/-!
The faults of the machine. A fault is a cause with the facts that belong to it; its wording is in
one place, `Fault.message`. A fault ends the run: nothing in a program can catch one.
-/

namespace RegisterMachine

inductive ValueKind where
  | unset
  | int
  | long
  | double
  | bool
  | array
  | object
  | coroutine
deriving DecidableEq, Repr

def ValueKind.word : ValueKind → String
  | unset => "unset"
  | int => "int"
  | long => "long"
  | double => "double"
  | bool => "bool"
  | array => "array"
  | object => "object"
  | coroutine => "coroutine"

inductive PayloadKind where
  | none
  | int
  | long
  | double
  | bool
  | name
  | descriptor
deriving DecidableEq, Repr

def PayloadKind.word : PayloadKind → String
  | none => "none"
  | int => "int"
  | long => "long"
  | double => "double"
  | bool => "bool"
  | name => "name"
  | descriptor => "descriptor"

/-- What an opcode asks of the payload; a scalar is an int, a long, a double or a bool. -/
inductive PayloadDemand where
  | scalar
  | name
  | descriptor
deriving DecidableEq, Repr

def PayloadDemand.word : PayloadDemand → String
  | scalar => "scalar"
  | name => "name"
  | descriptor => "descriptor"

/-- Why a value that leaves a frame finds no register to go to. -/
inductive Obstacle where
  | noFrame
  | noCallSite
  | noOutput
deriving DecidableEq, Repr

def Obstacle.reason : Obstacle → String
  | noFrame => "no frame to resume"
  | noCallSite => "resumed frame has no call site"
  | noOutput => "call site has no output register"

inductive Fault where
  | unknownOpcode (opcode : String)
  | unknownRoutine (name : String)
  | foreignRoutine (index count : Nat)
  | unknownLabel (routine label : String)
  | unknownField (type field : String)
  | kindMismatch (opcode : String) (register : Nat) (expected found : ValueKind)
  | payloadMismatch (opcode : String) (expected : PayloadDemand) (found : PayloadKind)
  | pastEnd (routine : String) (index length : Nat)
  | registerOutOfRange (routine : String) (register count : Nat)
  | indexOutOfBounds (index : Int) (length : Nat)
  | missingOperand (opcode : String) (position : Nat)
  | missingOutput (opcode : String)
  | undeliverable (opcode : String) (obstacle : Obstacle)
  | emptyStack
  | duplicateNote (key : String)
  | duplicateOpcode (opcode : String)
  | duplicateRoutine (name : String)
  | duplicateLabel (routine label : String)
  | divisionByZero (opcode : String)
  | coroutineUnavailable (name : String)
  | crash (routine : String)
  | stackOverflow (depth limit : Nat)
  | outputFailed (reason : String)
deriving DecidableEq, Repr

def Fault.message : Fault → String
  | unknownOpcode opcode => s!"unknown opcode '{opcode}'"
  | unknownRoutine name => s!"no such function '{name}'"
  | foreignRoutine index count =>
    s!"function #{index} is not part of this program ({count} functions)"
  | unknownLabel routine label => s!"no label '{label}' in function '{routine}'"
  | unknownField type field => s!"no field '{field}' on type '{type}'"
  | kindMismatch opcode register expected found =>
    s!"{opcode}: expected {expected.word} in register {register}, found {found.word}"
  | payloadMismatch opcode expected found =>
    s!"{opcode}: expected {expected.word} payload, found {found.word}"
  | pastEnd routine index length =>
    s!"instruction {index} is past the end of function '{routine}' ({length} instructions)"
  | registerOutOfRange routine register count =>
    s!"register {register} is out of range for function '{routine}' ({count} registers)"
  | indexOutOfBounds index length => s!"index {index} out of bounds (length: {length})"
  | missingOperand opcode position => s!"{opcode}: missing input operand {position}"
  | missingOutput opcode => s!"{opcode}: missing output register"
  | undeliverable opcode obstacle => s!"{opcode}: cannot deliver value, {obstacle.reason}"
  | emptyStack => "call stack is empty"
  | duplicateNote key => s!"metadata '{key}' already defined"
  | duplicateOpcode opcode => s!"opcode '{opcode}' is defined multiple times"
  | duplicateRoutine name => s!"function '{name}' is defined multiple times"
  | duplicateLabel routine label =>
    s!"label '{label}' is defined multiple times in function '{routine}'"
  | divisionByZero opcode => s!"{opcode}: division by zero"
  | coroutineUnavailable name => s!"coroutine '{name}' is not suspended"
  | crash routine => s!"reached the end of routine '{routine}'"
  | stackOverflow depth limit => s!"call depth {depth} exceeds maximum of {limit}"
  | outputFailed reason => s!"output error: {reason}"

structure Location where
  routine : String
  index : Nat
  opcode : String
deriving DecidableEq, Repr

def Location.text (l : Location) : String := s!"{l.routine}#{l.index} ({l.opcode})"

structure Failure where
  fault : Fault
  location : Option Location := none
deriving DecidableEq, Repr

def Failure.message (f : Failure) : String :=
  match f.location with
  | none => f.fault.message
  | some l => f.fault.message ++ " at " ++ l.text

end RegisterMachine
