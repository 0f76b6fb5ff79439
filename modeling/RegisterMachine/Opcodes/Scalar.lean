import RegisterMachine.Run.Operands

/-!
Opcodes that compute: each reads registers or a constant and writes one register, and touches
nothing else. Integers wrap around at their width; dividing an integer by zero is a fault, while
doubles have a result for every pair of operands.
-/

namespace RegisterMachine.Opcodes

open Effect

variable {α β : Type}

/-- Arithmetic and order of one representation. Quotient and remainder may be undefined. -/
structure Calculator (α : Type) where
  rep : Representation α
  add : α → α → α
  sub : α → α → α
  mul : α → α → α
  div? : α → α → Option α
  mod? : α → α → Option α
  compare : α → α → Ordering

namespace Calculator

def int : Calculator Int32 where
  rep := .int
  add := (· + ·)
  sub := (· - ·)
  mul := (· * ·)
  div? a b := if b = 0 then none else some (a / b)
  mod? a b := if b = 0 then none else some (a % b)
  compare a b := Ord.compare a.toInt b.toInt

def long : Calculator Int64 where
  rep := .long
  add := (· + ·)
  sub := (· - ·)
  mul := (· * ·)
  div? a b := if b = 0 then none else some (a / b)
  mod? a b := if b = 0 then none else some (a % b)
  compare a b := Ord.compare a.toInt b.toInt

def double : Calculator Double where
  rep := .double
  add := Double.add
  sub := Double.sub
  mul := Double.mul
  div? a b := some (a.div b)
  mod? a b := some (a.rem b)
  compare := Double.compare

end Calculator

def unary (source : Representation α) (target : Representation β) (f : α → β) : Handler :=
  fun _ i => do
    let a ← readAs source i 0
    write i (target.toValue (f a))

def binary (source : Representation α) (target : Representation β) (f : α → α → β) : Handler :=
  fun _ i => do
    let a ← readAs source i 0
    let b ← readAs source i 1
    write i (target.toValue (f a b))

/-- As `binary`, where no result means a division by zero. -/
def division (rep : Representation α) (f : α → α → Option α) : Handler :=
  fun _ i => do
    let a ← readAs rep i 0
    let b ← readAs rep i 1
    match f a b with
    | some c => write i (rep.toValue c)
    | none => throw (.divisionByZero i.opcode)

def comparison (c : Calculator α) (expected : Ordering) : Handler :=
  binary c.rep .bool fun a b => c.compare a b == expected

def constant : Handler := fun _ i =>
  match Value.ofPayload? i.payload with
  | some v => write i v
  | none => throw (.payloadMismatch i.opcode .scalar i.payload.kind)

def copy : Handler := fun _ i => do
  let v ← read i 0
  write i v

def Calculator.handlers (c : Calculator α) : List (String × Handler) := [
  ("add", binary c.rep c.rep c.add),
  ("sub", binary c.rep c.rep c.sub),
  ("mul", binary c.rep c.rep c.mul),
  ("div", division c.rep c.div?),
  ("mod", division c.rep c.mod?),
  ("equal", comparison c .eq),
  ("less", comparison c .lt),
  ("greater", comparison c .gt),
  ("val", constant)]

def logic : List (String × Handler) := [
  ("and", binary .bool .bool and),
  ("or", binary .bool .bool or),
  ("xor", binary .bool .bool xor),
  ("not", unary .bool .bool not),
  ("val", constant)]

def doubleToInt (x : Double) : Int32 :=
  Int32.ofInt (x.saturate Int32.minValue.toInt Int32.maxValue.toInt)

def doubleToLong (x : Double) : Int64 :=
  Int64.ofInt (x.saturate Int64.minValue.toInt Int64.maxValue.toInt)

def fromInt : List (String × Handler) := [
  ("int-to-long", unary .int .long Int32.toInt64),
  ("int-to-double", unary .int .double fun v => Double.ofInt v.toInt)]

/-- An int keeps the lower half of a long. -/
def fromLong : List (String × Handler) := [
  ("long-to-int", unary .long .int Int64.toInt32),
  ("long-to-double", unary .long .double fun v => Double.ofInt v.toInt)]

def fromDouble : List (String × Handler) := [
  ("double-to-int", unary .double .int doubleToInt),
  ("double-to-long", unary .double .long doubleToLong)]

end RegisterMachine.Opcodes
