import RegisterMachine.Code.Program
import RegisterMachine.Wire.Reader

/-!
The encoding of programs. A list is its length and its items, a text its length in bytes and its
bytes, an option one byte and perhaps the value, a double its eight bytes from the lowest. Notes
are not encoded. What decodes is the front of the input, so bytes after it are left unread, and
function names must turn out distinct.
-/

namespace RegisterMachine.Wire

def list {α : Type} (item : α → List UInt8) (xs : List α) : List UInt8 :=
  varint xs.length ++ xs.flatMap item

def text (s : String) : List UInt8 := varint s.utf8ByteSize ++ s.toUTF8.data.toList

def option {α : Type} (item : α → List UInt8) : Option α → List UInt8
  | none => [0]
  | some x => 1 :: item x

def littleEndian : (n : Nat) → Nat → List UInt8
  | 0, _ => []
  | n + 1, v => UInt8.ofNat (v % 256) :: littleEndian n (v / 256)

def descriptor (d : Descriptor) : List UInt8 := text d.name ++ list text d.fields

def payload : Payload → List UInt8
  | .none => varint 0
  | .int v => varint 1 ++ varint (zigzag v.toInt)
  | .long v => varint 2 ++ varint (zigzag v.toInt)
  | .double v => varint 3 ++ littleEndian 8 v.bits.toNat
  | .bool v => varint 4 ++ [if v then 1 else 0]
  | .name s => varint 5 ++ text s
  | .descriptor d => varint 6 ++ descriptor d

def instruction (i : Instruction) : List UInt8 :=
  text i.opcode ++ list varint i.inputs ++ option varint i.output ++ payload i.payload

def routine (r : Routine) : List UInt8 := text r.name ++ list instruction r.body

def program (p : Program) : List UInt8 := list routine p.routines

namespace Read

def list {α : Type} (item : Reader α) : Reader (List α) := do
  let count ← Width.word64.read
  Reader.times item count

def text : Reader String := do
  let count ← Width.word64.read
  let bytes ← Reader.block count
  match String.fromUTF8? ⟨bytes.toArray⟩ with
  | some s => pure s
  | none => throw .badText

def option {α : Type} (item : Reader α) : Reader (Option α) := do
  match (← Reader.byte).toNat with
  | 0 => pure none
  | 1 => some <$> item
  | _ => throw .badOption

def bool : Reader Bool := do
  match (← Reader.byte).toNat with
  | 0 => pure false
  | 1 => pure true
  | _ => throw .badBool

def ofLittleEndian : List UInt8 → Nat
  | [] => 0
  | b :: rest => b.toNat + 256 * ofLittleEndian rest

def double : Reader Double := do
  let bytes ← Reader.block 8
  pure ⟨UInt64.ofNat (ofLittleEndian bytes)⟩

def descriptor : Reader Descriptor := do
  let name ← text
  let fields ← list text
  pure ⟨name, fields⟩

def payload : Reader Payload := do
  match ← Width.word32.read with
  | 0 => pure .none
  | 1 => (fun n => .int (Int32.ofInt (unzigzag n))) <$> Width.word32.read
  | 2 => (fun n => .long (Int64.ofInt (unzigzag n))) <$> Width.word64.read
  | 3 => .double <$> double
  | 4 => .bool <$> bool
  | 5 => .name <$> text
  | 6 => .descriptor <$> descriptor
  | _ => throw .rejected

def instruction : Reader Instruction := do
  let opcode ← text
  let inputs ← list Width.word64.read
  let output ← option Width.word64.read
  let payload ← payload
  pure { opcode, inputs, output, payload }

def routine : Reader Routine := do
  let name ← text
  let body ← list instruction
  pure { name, body }

def routines : Reader (List Routine) := list routine

end Read

/-- The program at the front of the input. -/
def decode (input : List UInt8) : Except Defect Program :=
  match Read.routines input with
  | .error e => .error e
  | .ok (rs, _) =>
    match Program.ofRoutines rs with
    | .ok p => .ok p
    | .error _ => .error .rejected

end RegisterMachine.Wire
