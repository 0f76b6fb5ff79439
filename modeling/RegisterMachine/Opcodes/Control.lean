import RegisterMachine.Machine.Extension

/-!
Opcodes that say where the run goes on. A call, a method call or the resumption of a coroutine
puts a frame on the stack; a return or a yield takes one off. What comes back with a value goes
through `Effect.deliver`, whichever of them it is.

Inside one function there are labels and jumps. A label does nothing when it is met; before the run
a hook notes where the labels of each function are, and a jump moves the pointer to the label itself.
-/

namespace RegisterMachine.Opcodes

open Effect

section Transfers

def callFunction : Handler := fun p i => do
  let args ← readAll i
  let name ← check i.name
  call p name args

/-- The function that a method call on an object of that type means. -/
def methodName (type method : String) : String := type ++ "$" ++ method

def callMethod : Handler := fun p i => do
  let id ← readAs .object i 0
  let shape := ((← heap).object id).shape
  let method ← check i.name
  let args ← readAll i
  call p (methodName shape.name method) args

def leave : Handler := fun _ _ => do
  let _ ← pop
  pure ()

def leaveWith : Handler := fun p i => do
  let v ← read i 0
  let _ ← pop
  deliver p i.opcode v

/-- The coroutine rests in a fresh frame of the function until it is first resumed. It is created
only when the register that is to hold it is there. -/
def createCoroutine : Handler := fun p i => do
  let name ← check i.name
  let id ← check (p.find name)
  let f ← check (Frame.enter p id [])
  write i (.coroutine (← heap).nextCoroutine)
  modifyHeap (·.addCoroutine name f)

/-- The frame leaves the coroutine before it goes on the stack, and is lost if the stack is full. -/
def resume : Handler := fun _ i => do
  let id ← readAs .coroutine i 0
  let c := (← heap).coroutine id
  match c.parked with
  | none => throw (.coroutineUnavailable c.name)
  | some f =>
    modifyHeap (·.park id none)
    push { f with home := some id }

/-- The frame goes back to the coroutine that it came from; a frame of an ordinary call is left
for good. -/
def yield : Handler := fun p i => do
  let v ← read i 0
  let f ← pop
  match f.home with
  | none => pure ()
  | some id => modifyHeap (·.park id (some { f with home := none }))
  deliver p i.opcode v

/-- Stands where a coroutine must not come. -/
def crash : Handler := fun _ _ => do
  let f ← frame
  throw (.crash f.name)

end Transfers

section Labels

def labelKey : String := "labels"

/-- The labels of instructions that begin at `index`, behind those already seen. -/
def collectLabels (routine : String) (seen : List (String × Nat)) (index : Nat) :
    List Instruction → Except Fault (List (String × Nat))
  | [] => .ok seen
  | i :: rest =>
    if i.opcode = labelOpcode then
      match i.name with
      | .error e => .error e
      | .ok label =>
        if (seen.lookup label).isSome then .error (.duplicateLabel routine label)
        else collectLabels routine (seen ++ [(label, index)]) (index + 1) rest
    else collectLabels routine seen (index + 1) rest

def labelTable (r : Routine) : Except Fault (List (String × Nat)) :=
  collectLabels r.name [] 0 r.body

def indexLabels : RoutineHook := fun r =>
  { outcome := (labelTable r).map fun table => some (labelKey, .labels table) }

def target (r : Routine) (label : String) : Except Fault Nat :=
  match (r.notes.labels? labelKey).bind (·.lookup label) with
  | some index => .ok index
  | none => .error (.unknownLabel r.name label)

def jump : Handler := fun p i => do
  let label ← check i.name
  let f ← frame
  let r ← check (p.routine f.routine)
  let index ← check (target r label)
  replaceFrame { f with pointer := index }

def jumpIf : Handler := fun p i => do
  if ← readAs .bool i 0 then jump p i

def label : Handler := fun _ _ => pure ()

end Labels

end RegisterMachine.Opcodes
