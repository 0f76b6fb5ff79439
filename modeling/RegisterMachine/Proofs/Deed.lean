import RegisterMachine.Opcodes.Standard

/-!
An instruction in two halves. What it is to do is decided by the executing frame and the shared
contents alone, and deciding changes nothing; `Deed` is the decision, and `Deed.perform` carries
it out. A deed that stays within its frame and the shared contents is a `Change` and cannot fail.
-/

namespace RegisterMachine

/-- What an instruction can do without moving a frame. -/
inductive Change where
  | nothing
  | register (r : Register) (v : Value)
  | jump (index : Nat)
  | array (r : Register) (length : Nat)
  | object (r : Register) (shape : Descriptor)
  | coroutine (r : Register) (name : String) (parked : Frame)
  | element (id : ArrayId) (place : Nat) (v : Value)
  | cell (id : ObjectId) (place : Nat) (v : Value)
deriving DecidableEq

inductive Deed where
  | change (c : Change)
  | print (v : Value)
  | enter (callee : Frame)
  | resume (id : CoroutineId) (parked : Frame)
  | leave
  | handBack (v : Value)
  | yield (v : Value)
deriving DecidableEq

namespace Stack

variable {α : Type}

theorem replaceTop_self {s : Stack α} {x : α} {rest : List α} (top : s.items = x :: rest) :
    s.replaceTop x = s := by
  obtain ⟨items, room⟩ := s
  cases top
  rfl

end Stack

namespace Frame

/-- A register that is not there keeps nothing. -/
def put (f : Frame) (r : Register) (v : Value) : Frame :=
  { f with registers := f.registers.setIfInBounds r v }

@[simp] theorem put_routine (f : Frame) (r : Register) (v : Value) :
    (f.put r v).routine = f.routine := rfl

@[simp] theorem put_name (f : Frame) (r : Register) (v : Value) : (f.put r v).name = f.name := rfl

@[simp] theorem put_pointer (f : Frame) (r : Register) (v : Value) :
    (f.put r v).pointer = f.pointer := rfl

@[simp] theorem put_returned (f : Frame) (r : Register) (v : Value) :
    (f.put r v).returned = f.returned := rfl

@[simp] theorem put_home (f : Frame) (r : Register) (v : Value) : (f.put r v).home = f.home := rfl

@[simp] theorem put_size (f : Frame) (r : Register) (v : Value) :
    (f.put r v).registers.size = f.registers.size := by simp [put]

theorem put_getElem? (f : Frame) {r q : Register} (v : Value) (apart : q ≠ r) :
    (f.put r v).registers[q]? = f.registers[q]? := by
  simp [put, Array.getElem?_setIfInBounds_ne (Ne.symm apart)]

theorem set_eq (f : Frame) (r : Register) (v : Value) :
    f.set r v = if r < f.registers.size then .ok (f.put r v) else .error (f.outOfRange r) := by
  unfold set
  split
  · next inside => simp [put, Array.setIfInBounds, inside]
  · rfl

def operand (f : Frame) (i : Instruction) (position : Nat) : Except Fault Value := do
  let r ← i.input position
  f.get r

def operandAs {α : Type} (rep : Representation α) (f : Frame) (i : Instruction)
    (position : Nat) : Except Fault α := do
  let r ← i.input position
  let v ← f.get r
  match rep.ofValue? v with
  | some a => pure a
  | none => throw (.kindMismatch i.opcode r rep.kind v.kind)

def outlet (f : Frame) (i : Instruction) : Except Fault Register := do
  let r ← i.destination
  if r < f.registers.size then pure r else throw (f.outOfRange r)

def receive (f : Frame) (p : Program) (opcode : String) (v : Value) : Except Fault Frame :=
  match f.callSite? p with
  | none => .error (.undeliverable opcode .noCallSite)
  | some site =>
    match site.output with
    | none => .error (.undeliverable opcode .noOutput)
    | some r =>
      if r < f.registers.size then .ok { f.put r v with returned := some v }
      else .error (f.outOfRange r)

end Frame

/-- A frame that leaves the stack by a yield rests where it came from, if it came from anywhere. -/
def Heap.rest (h : Heap) (f : Frame) : Heap :=
  match f.home with
  | none => h
  | some id => h.park id (some { f with home := none })

namespace Change

def frame (h : Heap) (f : Frame) : Change → Frame
  | nothing | element .. | cell .. => f
  | register r v => f.put r v
  | jump index => { f with pointer := index }
  | array r _ => f.put r (.array h.nextArray)
  | object r _ => f.put r (.object h.nextObject)
  | coroutine r .. => f.put r (.coroutine h.nextCoroutine)

def heap (h : Heap) : Change → Heap
  | nothing | register .. | jump _ => h
  | array _ length => h.addArray (Array.replicate length .unset)
  | object _ shape => h.addObject shape
  | coroutine _ name parked => h.addCoroutine name parked
  | element id place v => h.setElement id place v
  | cell id place v => h.setCell id place v

end Change

/-- Carries out a deed of the executing frame `f` at instruction `i`. -/
def Deed.perform (p : Program) (i : Instruction) (f : Frame) : Deed → Effect Unit
  | .change c => fun s =>
    .ok () { s with calls := s.calls.replaceTop (c.frame s.heap f), heap := c.heap s.heap }
  | .print v => fun s => Effect.print (s.heap.render v ++ "\n") s
  | .enter callee => Effect.push callee
  | .resume id parked => fun s =>
    Effect.push { parked with home := some id } { s with heap := s.heap.park id none }
  | .leave => fun s => .ok () { s with calls := s.calls.pop }
  | .handBack v => fun s => Effect.deliver p i.opcode v { s with calls := s.calls.pop }
  | .yield v => fun s =>
    Effect.deliver p i.opcode v { s with calls := s.calls.pop, heap := s.heap.rest f }

end RegisterMachine
