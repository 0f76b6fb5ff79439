import RegisterMachine.Machine.Preparation

/-!
Running a program. A step fetches the instruction at the pointer of the executing frame, moves the
pointer past it, and hands it to the handler of its opcode; a run is steps until the call stack
is empty or one of them fails.
-/

namespace RegisterMachine

namespace Machine

def start (m : Machine) (p : Program) (sink : Sink) : Except Fault State := do
  let id ← p.find Program.entry
  let f ← Frame.enter p id []
  let calls ← (Stack.empty m.maxDepth).push f
  pure { calls, sink }

def dispatch (m : Machine) (p : Program) (l : Location) (i : Instruction) :
    EStateM Failure State Bool := fun s =>
  match m.handler? i.opcode with
  | none => .error ⟨.unknownOpcode i.opcode, some l⟩ s
  | some handler =>
    match handler p i s with
    | .ok () s => .ok true { s with dispatched := s.dispatched + 1 }
    | .error e s => .error ⟨e, some l⟩ s

/-- One instruction; `false` when there is nothing left to execute. A pointer past the end of the
function is left where it is, and that failure belongs to no instruction. -/
def step (m : Machine) (p : Program) : EStateM Failure State Bool := fun s =>
  match s.calls.top? with
  | none => .ok false s
  | some f =>
    match p.routine f.routine with
    | .error e => .error ⟨e, none⟩ s
    | .ok r =>
      match r.body[f.pointer]? with
      | none => .error ⟨.pastEnd r.name f.pointer r.body.length, none⟩ s
      | some i =>
        m.dispatch p ⟨r.name, f.pointer, i.opcode⟩ i
          { s with calls := s.calls.replaceTop f.advance }

inductive Ending where
  | halted
  | failed (f : Failure)
  | unfinished
deriving DecidableEq, Repr

def runFor (m : Machine) (p : Program) : (steps : Nat) → State → Ending × State
  | 0, s => (.unfinished, s)
  | n + 1, s =>
    match m.step p s with
    | .ok true s => m.runFor p n s
    | .ok false s => (.halted, s)
    | .error e s => (.failed e, s)

/-- Each step's result with the state after it, until nothing is left or, unless `past` failures,
one fails. -/
def trace (m : Machine) (p : Program) (past : Bool) :
    (steps : Nat) → State → List (Except Failure Bool × State)
  | 0, _ => []
  | n + 1, s =>
    match m.step p s with
    | .ok true s => (.ok true, s) :: m.trace p past n s
    | .ok false s => [(.ok false, s)]
    | .error e s => (.error e, s) :: if past then m.trace p past n s else []

/-- More steps than any run is given the time for. -/
def unbounded : Nat := 1000000000000000000

/-- The end of a run from its start, and what it printed. A run that halts flushes its sink. -/
def execute (m : Machine) (p : Program) (sink : Sink) (steps : Nat) :
    Ending × Sink × Nat :=
  match m.start p sink with
  | .error e => (.failed ⟨e, none⟩, sink, 0)
  | .ok s =>
    let (ending, s) := m.runFor p steps s
    (ending, s.sink, s.dispatched)

def flushed (ending : Ending) (sink : Sink) : Ending :=
  match ending, sink.flush with
  | .halted, .error e => .failed ⟨e, none⟩
  | ending, _ => ending

structure Report where
  program : Program
  remarks : List String
  ending : Ending
  sink : Sink

def run (m : Machine) (p : Program) (sink : Sink) (steps : Nat) : Report :=
  match m.prepare.run { program := p } with
  | .error e s => ⟨s.program, s.remarks, .failed ⟨e, none⟩, sink⟩
  | .ok () s =>
    let (ending, sink, _) := m.execute s.program sink steps
    ⟨s.program, s.remarks, flushed ending sink, sink⟩

end Machine

end RegisterMachine
