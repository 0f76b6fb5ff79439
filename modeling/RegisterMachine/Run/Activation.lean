import RegisterMachine.Code.Program
import RegisterMachine.Run.Value

/-!
Activations of functions. A frame holds the registers of one activation and the place of the
next instruction; the call stack holds the frames in progress, the innermost first, and never
more than its limit. A frame may also rest outside the stack, in a coroutine.
-/

namespace RegisterMachine

/-- Items in progress, the latest first, with room for so many more. -/
structure Stack (α : Type) where
  items : List α := []
  room : Nat
deriving DecidableEq, Repr

namespace Stack

variable {α : Type}

def empty (limit : Nat) : Stack α := { room := limit }

def depth (s : Stack α) : Nat := s.items.length

def limit (s : Stack α) : Nat := s.depth + s.room

def isEmpty (s : Stack α) : Bool := s.items.isEmpty

def top? (s : Stack α) : Option α := s.items.head?

def push (s : Stack α) (x : α) : Except Fault (Stack α) :=
  match s.room with
  | 0 => .error (.stackOverflow (s.depth + 1) s.limit)
  | room + 1 => .ok { items := x :: s.items, room }

def pop (s : Stack α) : Stack α :=
  match s.items with
  | [] => s
  | _ :: rest => { items := rest, room := s.room + 1 }

def replaceTop (s : Stack α) (x : α) : Stack α :=
  match s.items with
  | [] => s
  | _ :: rest => { s with items := x :: rest }

theorem depth_le_limit (s : Stack α) : s.depth ≤ s.limit := Nat.le_add_right ..

@[simp] theorem limit_empty (limit : Nat) : (empty limit : Stack α).limit = limit := by
  simp [empty, Stack.limit, depth]

theorem push_eq_ok_iff {s t : Stack α} {x : α} :
    s.push x = .ok t ↔ t.items = x :: s.items ∧ t.limit = s.limit := by
  obtain ⟨items, room⟩ := s
  obtain ⟨pushed, left⟩ := t
  cases room with
  | zero =>
    simp only [push, limit, depth, reduceCtorEq, false_iff, not_and]
    rintro rfl
    simp only [List.length_cons]
    omega
  | succ room =>
    simp only [push, limit, depth, Except.ok.injEq, mk.injEq, eq_comm (a := pushed)]
    refine and_congr_right ?_
    rintro rfl
    simp only [List.length_cons]
    omega

@[simp] theorem limit_pop (s : Stack α) : s.pop.limit = s.limit := by
  obtain ⟨items, room⟩ := s
  cases items <;> simp [pop, limit, depth]
  omega

@[simp] theorem depth_replaceTop (s : Stack α) (x : α) : (s.replaceTop x).depth = s.depth := by
  unfold replaceTop depth
  split <;> simp_all

@[simp] theorem limit_replaceTop (s : Stack α) (x : α) : (s.replaceTop x).limit = s.limit := by
  obtain ⟨items, room⟩ := s
  cases items <;> simp [replaceTop, limit, depth]

def outermostFirst (s : Stack α) : List α := s.items.reverse

def display (item : α → String) (s : Stack α) : String :=
  "Stack \x7b items: [" ++ ", ".intercalate (s.outermostFirst.map item) ++
    "], max_depth: " ++ toString s.limit ++ " \x7d"

end Stack

/-- One activation. `pointer` is the place of the next instruction, `returned` the value that was
last delivered here, `home` the coroutine that this activation goes back to when it yields. -/
structure Frame where
  routine : RoutineId
  name : String
  registers : Array Value
  pointer : Nat := 0
  returned : Option Value := none
  home : Option CoroutineId := none
deriving DecidableEq, Repr

namespace Frame

/-- The arguments fill the first registers and the others are unset. -/
def enter (p : Program) (id : RoutineId) (args : List Value) : Except Fault Frame := do
  let r ← p.routine id
  let count := r.registerCount
  if count < args.length then
    throw (.registerOutOfRange r.name (args.length - 1) count)
  else
    pure {
      routine := id
      name := r.name
      registers := (args ++ List.replicate (count - args.length) Value.unset).toArray }

def outOfRange (f : Frame) (r : Register) : Fault :=
  .registerOutOfRange f.name r f.registers.size

def get (f : Frame) (r : Register) : Except Fault Value :=
  match f.registers[r]? with
  | some v => .ok v
  | none => .error (f.outOfRange r)

def set (f : Frame) (r : Register) (v : Value) : Except Fault Frame :=
  if h : r < f.registers.size then .ok { f with registers := f.registers.set r v }
  else .error (f.outOfRange r)

def advance (f : Frame) : Frame := { f with pointer := f.pointer + 1 }

/-- The instruction just before the pointer: in a frame that waits for a callee, the call. -/
def callSite? (p : Program) (f : Frame) : Option Instruction :=
  if f.pointer = 0 then none else p.fetch? f.routine (f.pointer - 1)

end Frame

end RegisterMachine
