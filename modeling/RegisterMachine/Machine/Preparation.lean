import RegisterMachine.Machine.Extension

/-!
Preparing a program. Each program hook looks at the program once, then each function hook looks
at every function in turn; what they find is attached as notes. The first hook that fails, or
whose note is refused, ends the preparation, and what was attached before it stays attached.
-/

namespace RegisterMachine

structure Preparation where
  program : Program
  remarks : List String := []
deriving Repr

abbrev Preparing := EStateM Fault Preparation

namespace Preparation

def remark (lines : List String) : Preparing Unit :=
  modify fun s => { s with remarks := s.remarks ++ lines }

def attach (notes : Notes) (f : Finding) : Except Fault Notes :=
  match f.outcome with
  | .error e => .error e
  | .ok none => .ok notes
  | .ok (some (key, note)) => notes.add key note

def settle (r : Except Fault Notes) (put : Notes → Program → Program) : Preparing Unit :=
  match r with
  | .error e => throw e
  | .ok notes => modify fun s => { s with program := put notes s.program }

def consult (hook : ProgramHook) : Preparing Unit := do
  let p := (← get).program
  let finding := hook p
  remark finding.remarks
  settle (attach p.notes finding) fun notes p => { p with notes }

/-- A function that is not there is passed over. -/
def consultAt (hook : RoutineHook) (id : RoutineId) : Preparing Unit := do
  match (← get).program.routines[id]? with
  | none => pure ()
  | some r =>
    let finding := hook r
    remark finding.remarks
    settle (attach r.notes finding) fun notes p =>
      { p with routines := p.routines.modify id fun r => { r with notes } }

def consultAll (hook : RoutineHook) : Preparing Unit := do
  let count := (← get).program.routines.length
  (List.range count).forM (consultAt hook)

end Preparation

def Machine.prepare (m : Machine) : Preparing Unit := do
  m.programHooks.forM Preparation.consult
  m.routineHooks.forM Preparation.consultAll

end RegisterMachine
