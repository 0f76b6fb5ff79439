import RegisterMachine.Code.Instruction

/-!
What registers hold. Scalars are held themselves; arrays, objects and coroutines are held by
reference, so that all holders of one see the same contents. No kind turns into another unasked:
an opcode asks for one representation and gets it or faults.
-/

namespace RegisterMachine

abbrev ArrayId := Nat

abbrev ObjectId := Nat

abbrev CoroutineId := Nat

inductive Value where
  | unset
  | int (v : Int32)
  | long (v : Int64)
  | double (v : Double)
  | bool (v : Bool)
  | array (id : ArrayId)
  | object (id : ObjectId)
  | coroutine (id : CoroutineId)
deriving DecidableEq, Repr, Inhabited

namespace Value

def kind : Value → ValueKind
  | unset => .unset
  | int _ => .int
  | long _ => .long
  | double _ => .double
  | bool _ => .bool
  | array _ => .array
  | object _ => .object
  | coroutine _ => .coroutine

def ofPayload? : Payload → Option Value
  | .int v => some (.int v)
  | .long v => some (.long v)
  | .double v => some (.double v)
  | .bool v => some (.bool v)
  | .none | .name _ | .descriptor _ => none

/-- Scalars are compared by value, doubles as numbers, and everything shared by identity. -/
def same : Value → Value → Bool
  | double x, double y => x.numericEq y
  | v, w => v == w

end Value

/-- One exact representation that an opcode may ask for. -/
structure Representation (α : Type) where
  kind : ValueKind
  ofValue? : Value → Option α
  toValue : α → Value

namespace Representation

def int : Representation Int32 where
  kind := .int
  ofValue? | .int v => some v | _ => none
  toValue := .int

def long : Representation Int64 where
  kind := .long
  ofValue? | .long v => some v | _ => none
  toValue := .long

def double : Representation Double where
  kind := .double
  ofValue? | .double v => some v | _ => none
  toValue := .double

def bool : Representation Bool where
  kind := .bool
  ofValue? | .bool v => some v | _ => none
  toValue := .bool

def array : Representation ArrayId where
  kind := .array
  ofValue? | .array id => some id | _ => none
  toValue := .array

def object : Representation ObjectId where
  kind := .object
  ofValue? | .object id => some id | _ => none
  toValue := .object

def coroutine : Representation CoroutineId where
  kind := .coroutine
  ofValue? | .coroutine id => some id | _ => none
  toValue := .coroutine

end Representation

end RegisterMachine
