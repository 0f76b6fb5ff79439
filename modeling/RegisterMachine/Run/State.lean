import RegisterMachine.Run.Rendering

/-!
The state of a run: the call stack, shared contents, what was printed, and how many instructions
were carried out. An effect changes the state and may fault; a fault keeps what was done before
it.
-/

namespace RegisterMachine

/-- Where a run prints. It takes `room` bytes in all, if that is bounded. -/
structure Sink where
  written : Array UInt8 := #[]
  room : Option Nat := none
  flushes : Bool := true
deriving DecidableEq, Repr, Inhabited

namespace Sink

def accepted (s : Sink) (wanted : Nat) : Nat :=
  match s.room with
  | none => wanted
  | some n => min wanted (n - s.written.size)

def append (s : Sink) (bytes : Array UInt8) : Sink :=
  let n := s.accepted bytes.size
  { s with written := s.written ++ bytes.take n }

def full : Fault := .outputFailed "sink is full"

def flushFailed : Fault := .outputFailed "flush failed"

def flush (s : Sink) : Except Fault Unit :=
  if s.flushes then .ok () else .error flushFailed

/-- Bytes as text. A character that was cut off at the end shows as the replacement character. -/
def textOf (bytes : Array UInt8) : String :=
  match String.fromUTF8? ⟨bytes⟩ with
  | some s => s
  | none =>
    let whole := [1, 2, 3].findSome? fun n => String.fromUTF8? ⟨bytes.take (bytes.size - n)⟩
    whole.getD "" ++ "\ufffd"

def text (s : Sink) : String := textOf s.written

def textFrom (s : Sink) (start : Nat) : String := textOf (s.written.drop start)

end Sink

structure State where
  calls : Stack Frame
  heap : Heap := {}
  sink : Sink := {}
  dispatched : Nat := 0
deriving DecidableEq, Repr

abbrev Effect := EStateM Fault State

namespace Effect

variable {α : Type}

def check : Except Fault α → Effect α
  | .ok a => pure a
  | .error e => throw e

def frame : Effect Frame := do
  match (← get).calls.top? with
  | some f => pure f
  | none => throw .emptyStack

def replaceFrame (f : Frame) : Effect Unit :=
  modify fun s => { s with calls := s.calls.replaceTop f }

def push (f : Frame) : Effect Unit := do
  let s ← get
  let calls ← check (s.calls.push f)
  set { s with calls }

def pop : Effect Frame := do
  let f ← frame
  modify fun s => { s with calls := s.calls.pop }
  pure f

def heap : Effect Heap := do pure (← get).heap

def modifyHeap (change : Heap → Heap) : Effect Unit :=
  modify fun s => { s with heap := change s.heap }

/-- What finds no room is lost, and that is a fault. -/
def print (text : String) : Effect Unit := do
  let bytes := text.toUTF8.data
  let complete ← modifyGet fun s =>
    let complete : Bool := s.sink.accepted bytes.size = bytes.size
    (complete, { s with sink := s.sink.append bytes })
  if !complete then throw Sink.full

end Effect

end RegisterMachine
