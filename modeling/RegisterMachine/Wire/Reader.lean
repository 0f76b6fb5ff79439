/-!
Reading bytes from the front, and numbers. A reader hands over a value and the bytes after it, or says
what is wrong with the bytes; it never looks beyond what it takes.

A number of any size is bytes of seven bits each, lowest first, every byte but the last with its
high bit set. Signed numbers alternate: zero, minus one, one, minus two. A reader bounds how many
bytes a number may have, and by the last of them how large it may be; a number written with more
bytes than it needs is accepted.
-/

namespace RegisterMachine.Wire

inductive Defect where
  | endOfInput
  | badVarint
  | badBool
  | badOption
  | badText
  | rejected
deriving DecidableEq, Repr

def Defect.message : Defect → String
  | endOfInput => "Hit the end of buffer, expected more data"
  | badVarint =>
    "Found a varint that didn't terminate. Is the usize too big for this platform?"
  | badBool => "Found a bool that wasn't 0 or 1"
  | badOption => "Found an Option discriminant that wasn't 0 or 1"
  | badText => "Tried to parse invalid utf-8"
  | rejected => "Serde Deserialization Error"

abbrev Reader := StateT (List UInt8) (Except Defect)

namespace Reader

def byte : Reader UInt8
  | [] => .error .endOfInput
  | b :: rest => .ok (b, rest)

def times {α : Type} (item : Reader α) : Nat → Reader (List α)
  | 0 => pure []
  | n + 1 => do
    let first ← item
    let rest ← times item n
    pure (first :: rest)

def block (n : Nat) : Reader (List UInt8) := times byte n

end Reader

def varint (n : Nat) : List UInt8 :=
  if n < 128 then [UInt8.ofNat n] else UInt8.ofNat (n % 128 + 128) :: varint (n / 128)

/-- The most bytes that a number may have, and the largest last byte at that length. -/
structure Width where
  bytes : Nat
  last : Nat
deriving DecidableEq, Repr

def Width.word32 : Width := ⟨5, 15⟩

def Width.word64 : Width := ⟨10, 1⟩

/-- A number of at most `left` bytes. -/
def readDigits (last : Nat) : (left : Nat) → Reader Nat
  | 0 => throw .badVarint
  | left + 1 => do
    let b ← Reader.byte
    if b.toNat < 128 then
      if left = 0 ∧ last < b.toNat then throw .badVarint else pure b.toNat
    else
      let high ← readDigits last left
      pure (b.toNat - 128 + 128 * high)

def Width.read (w : Width) : Reader Nat := readDigits w.last w.bytes

/-- The place of an integer in the alternating order. -/
def zigzag (v : Int) : Nat := if v < 0 then 2 * (-v).toNat - 1 else 2 * v.toNat

def unzigzag (n : Nat) : Int := if n % 2 = 0 then (n / 2 : Nat) else -((n / 2 : Nat) : Int) - 1

theorem unzigzag_zigzag (v : Int) : unzigzag (zigzag v) = v := by
  unfold unzigzag zigzag
  split <;> split <;> omega

theorem zigzag_unzigzag (n : Nat) : zigzag (unzigzag n) = n := by
  unfold unzigzag zigzag
  split <;> split <;> omega

theorem zigzag_lt_iff (v : Int) (bound : Nat) : zigzag v < 2 * bound ↔ -bound ≤ v ∧ v < bound := by
  unfold zigzag
  split <;> omega

end RegisterMachine.Wire
