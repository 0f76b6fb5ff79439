import RegisterMachine.Run.Heap

/-!
The text of a value. Arrays and objects are written out with what they hold, however often they
are met; one that is already being written out around the place in question is replaced by a
mark, so that a value that contains itself has a finite text. Coroutines are not entered.
-/

namespace RegisterMachine

inductive Container where
  | array (id : ArrayId)
  | object (id : ObjectId)
deriving DecidableEq, Repr

namespace Heap

def containers (h : Heap) : Nat := h.arrays.size + h.objects.size

/-- The text of a value inside the given containers, the innermost first. No path is longer than
there are containers, and `fuel` bounds its length. -/
def renderWithin (h : Heap) : (fuel : Nat) → (path : List Container) → Value → String
  | _, _, .unset => "unset"
  | _, _, .int v => toString v.toInt
  | _, _, .long v => toString v.toInt
  | _, _, .double v => v.text
  | _, _, .bool v => toString v
  | _, _, .coroutine id => "<coroutine " ++ (h.coroutine id).name ++ ">"
  | 0, _, .array _ => "[...]"
  | 0, _, .object id => (h.object id).shape.name ++ "\x7b...\x7d"
  | fuel + 1, path, .array id =>
    if .array id ∈ path then "[...]"
    else
      let inner := (h.elements id).toList.map (h.renderWithin fuel (.array id :: path))
      "[" ++ ", ".intercalate inner ++ "]"
  | fuel + 1, path, .object id =>
    let o := h.object id
    if .object id ∈ path then o.shape.name ++ "\x7b...\x7d"
    else
      let inner := (o.shape.fields.zip o.cells.toList).map fun field =>
        field.1 ++ "=" ++ h.renderWithin fuel (.object id :: path) field.2
      o.shape.name ++ "\x7b" ++ ", ".intercalate inner ++ "\x7d"

def render (h : Heap) (v : Value) : String := h.renderWithin (h.containers + 1) [] v

def inspect (h : Heap) : Value → String
  | .unset => "Unset"
  | .int v => "Int(" ++ toString v.toInt ++ ")"
  | .long v => "Long(" ++ toString v.toInt ++ ")"
  | .double v => "Double(" ++ v.text ++ ")"
  | .bool v => "Bool(" ++ toString v ++ ")"
  | .array id => "Array(Array(" ++ h.render (.array id) ++ "))"
  | .object id => "Object(Object(" ++ h.render (.object id) ++ "))"
  | .coroutine id =>
    let c := h.coroutine id
    "Coroutine(Coroutine \x7b name: " ++ Text.quoted c.name ++ ", suspended: " ++
      toString c.parked.isSome ++ " \x7d)"

end Heap

end RegisterMachine
