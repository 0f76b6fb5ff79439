import RegisterMachine.Fault
import RegisterMachine.Double.Text
import RegisterMachine.Text.Quoted

/-!
Instructions: an opcode, input registers, perhaps an output register, and a payload, which is a
constant, a name or the descriptor of an object type. Opcodes are plain strings here; which of
them mean something is up to the machine that runs them.
-/

namespace RegisterMachine

abbrev Register := Nat

structure Descriptor where
  name : String
  fields : List String
deriving DecidableEq, Repr, Inhabited

namespace Descriptor

/-- Where a field's value is kept; of two fields of one name the first answers. -/
def position (d : Descriptor) (field : String) : Except Fault Nat :=
  match d.fields.idxOf? field with
  | some i => .ok i
  | none => .error (.unknownField d.name field)

def text (d : Descriptor) : String := d.name ++ "\x7b" ++ ", ".intercalate d.fields ++ "\x7d"

end Descriptor

inductive Payload where
  | none
  | int (v : Int32)
  | long (v : Int64)
  | double (v : Double)
  | bool (v : Bool)
  | name (s : String)
  | descriptor (d : Descriptor)
deriving DecidableEq, Repr, Inhabited

namespace Payload

def kind : Payload → PayloadKind
  | none => .none
  | int _ => .int
  | long _ => .long
  | double _ => .double
  | bool _ => .bool
  | name _ => .name
  | descriptor _ => .descriptor

/-- A long is marked by a final L, a name stands in quotes. -/
def text : Payload → String
  | none => ""
  | int v => toString v.toInt
  | long v => toString v.toInt ++ "L"
  | double v => v.text
  | bool v => toString v
  | name s => Text.quoted s
  | descriptor d => d.text

/-- Equality in which doubles are compared as numbers. -/
def same : Payload → Payload → Bool
  | double x, double y => x.numericEq y
  | p, q => p == q

end Payload

structure Instruction where
  opcode : String
  inputs : List Register := []
  output : Option Register := .none
  payload : Payload := .none
deriving DecidableEq, Repr, Inhabited

namespace Instruction

def input (i : Instruction) (position : Nat) : Except Fault Register :=
  match i.inputs[position]? with
  | some r => .ok r
  | none => .error (.missingOperand i.opcode position)

def destination (i : Instruction) : Except Fault Register :=
  match i.output with
  | some r => .ok r
  | none => .error (.missingOutput i.opcode)

def name (i : Instruction) : Except Fault String :=
  match i.payload with
  | .name s => .ok s
  | p => .error (.payloadMismatch i.opcode .name p.kind)

def descriptor (i : Instruction) : Except Fault Descriptor :=
  match i.payload with
  | .descriptor d => .ok d
  | p => .error (.payloadMismatch i.opcode .descriptor p.kind)

def registers (i : Instruction) : List Register := i.inputs ++ i.output.toList

def highest (i : Instruction) : Option Register := i.registers.max?

def same (i j : Instruction) : Bool :=
  i.opcode == j.opcode && i.inputs == j.inputs && i.output == j.output &&
    i.payload.same j.payload

def text (i : Instruction) : String :=
  let inputs := if i.inputs.isEmpty then ""
    else " " ++ ", ".intercalate (i.inputs.map fun r => s!"r{r}")
  let output := match i.output with
    | some r => s!" -> r{r}"
    | none => ""
  let payload := if i.payload = .none then "" else " [" ++ i.payload.text ++ "]"
  i.opcode ++ inputs ++ output ++ payload

end Instruction

end RegisterMachine
