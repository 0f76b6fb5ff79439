import RegisterMachine.Machine.Extension

/-!
Opcodes and hooks outside the standard families, for hosts that watch a run or steer it: they
show the frame and the depth, move the pointer or the stack at will, print values in several
forms, and make a preparation fail or leave a note.
-/

namespace RegisterMachine.Probe

open Effect

def noop : Handler := fun _ _ => pure ()

/-- The pointer as a long; one beyond the longs wraps around. -/
def pointer : Handler := fun _ i => do
  let f ← frame
  write i (.long (Int64.ofNat f.pointer))

def depth : Handler := fun _ i => do
  let s ← get
  write i (.long (Int64.ofNat s.calls.depth))

def drop : Handler := fun _ _ => do
  let _ ← pop
  pure ()

/-- Moves the pointer to the int in the payload, read as an unsigned word of 64 bits. -/
def goto : Handler := fun _ i => do
  match i.payload with
  | .int v =>
    let f ← frame
    replaceFrame { f with pointer := v.toInt64.toUInt64.toNat }
  | _ => pure ()

def returned : Handler := fun _ i => do
  let f ← frame
  write i (f.returned.getD .unset)

def emit : Handler := fun _ i => do
  let values ← readAll i
  values.forM fun v => do print ((← heap).render v ++ ";")

def inspect : Handler := fun _ i => do
  let values ← readAll i
  values.forM fun v => do print ((← heap).inspect v ++ "\n")

/-- Two calls on top of each other, the second of which runs first. -/
def callTwice : Handler := fun p i => do
  let args ← readAll i
  let name ← check i.name
  call p name args
  call p name args

/-- Hands a value to the executing frame itself, as though a callee had returned it. -/
def deliverHere : Handler := fun p i => do
  let v ← read i 0
  deliver p i.opcode v

def fail : Handler := fun _ i => throw (.duplicateNote i.opcode)

def scale (factor : Int64) : Handler := fun _ i => do
  let v ← readAs .long i 0
  write i (.long (v * factor))

def mention (r : Routine) : List String := ["func " ++ r.name]

def watch : RoutineHook := fun r => { remarks := mention r }

def failOn (name : String) : RoutineHook := fun r =>
  { remarks := mention r
    outcome := if r.name = name then .error (.unknownRoutine name) else .ok none }

def annotate (key : String) (note : Note) : RoutineHook := fun r =>
  { remarks := mention r, outcome := .ok (some (key, note)) }

def mentionProgram : List String := ["program"]

def watchProgram : ProgramHook := fun _ => { remarks := mentionProgram }

def failProgram : ProgramHook := fun _ =>
  { remarks := mentionProgram, outcome := .error (.unknownRoutine "hook") }

def countRoutines (key : String) : ProgramHook := fun p =>
  { remarks := mentionProgram, outcome := .ok (some (key, .index p.routines.length)) }

def annotateProgram (key : String) (note : Note) : ProgramHook := fun _ =>
  { remarks := mentionProgram, outcome := .ok (some (key, note)) }

end RegisterMachine.Probe
