import RegisterMachine.Machine.Extension

/-!
Command line arguments. A request is a command with its operands and a bound on the call depth,
which may be given before or after the name of the command, the latter counting. An option takes
a value, after an equals sign or as the next argument; no option is given twice in one place; two
dashes end the options.
-/

namespace RegisterMachine.CommandLine

inductive Command where
  | demo (name : String) (emit : Option String)
  | run (file : String)
  | disassemble (file : String)
deriving DecidableEq, Repr

structure Request where
  maxDepth : Nat
  command : Command
deriving DecidableEq, Repr

structure Arguments where
  options : List (String × String) := []
  operands : List String := []
deriving DecidableEq, Repr

/-- One dash alone is an operand. -/
def isFlag (a : String) : Bool := a.startsWith "-" && a != "-"

def splitFlag (a : String) : String × Option String :=
  match a.toList.span (· ≠ '=') with
  | (flag, '=' :: value) => (String.ofList flag, some (String.ofList value))
  | (flag, _) => (String.ofList flag, none)

inductive Flag where
  | complete (flag value : String)
  | pending (flag : String)
  | unknown
deriving DecidableEq, Repr

def Flag.of (known : List String) (a : String) : Flag :=
  match splitFlag a with
  | (flag, value) =>
    if flag ∉ known then .unknown
    else
      match value with
      | some v => .complete flag v
      | none => .pending flag

/-- Sorts arguments, of which the first may be the value that an open flag waits for; nothing if
a flag is unknown or lacks its value. -/
def sort (known : List String) : (waiting : Option String) → List String → Option Arguments
  | none, [] => some {}
  | some _, [] => none
  | some flag, v :: rest =>
    if isFlag v then none
    else (sort known none rest).map fun s => { s with options := (flag, v) :: s.options }
  | none, a :: rest =>
    if a = "--" then some { operands := rest }
    else if isFlag a then
      match Flag.of known a with
      | .unknown => none
      | .pending flag => sort known (some flag) rest
      | .complete flag v =>
        (sort known none rest).map fun s => { s with options := (flag, v) :: s.options }
    else (sort known none rest).map fun s => { s with operands := a :: s.operands }

def depthFlag : String := "--max-depth"

def emitFlag : String := "--emit"

/-- A number below 2^64 in decimal digits, perhaps after a plus sign. -/
def readDepth (s : String) : Option Nat :=
  let digits := match s.toList with
    | '+' :: rest => rest
    | cs => cs
  if digits.isEmpty || !digits.all Char.isDigit then none
  else
    let n := digits.foldl (fun n c => 10 * n + (c.toNat - '0'.toNat)) 0
    if n < UInt64.size then some n else none

/-- The value of a flag that may be missing; nothing if what is given is no such value. -/
def value? {α : Type} (options : List (String × String)) (flag : String)
    (read : String → Option α) : Option (Option α) :=
  match options.lookup flag with
  | none => some none
  | some s => (read s).map some

def readPath (s : String) : Option String := if s.isEmpty then none else some s

def command? (name : String) (a : Arguments) : Option Command :=
  match name, a.operands with
  | "demo", [] => do pure (.demo "all" (← value? a.options emitFlag readPath))
  | "demo", [demo] => do pure (.demo demo (← value? a.options emitFlag readPath))
  | "run", [file] => do pure (.run (← readPath file))
  | "disasm", [file] => do pure (.disassemble (← readPath file))
  | _, _ => none

def flags (name : String) : List String :=
  if name = "demo" then [depthFlag, emitFlag] else [depthFlag]

def ofCommand? (before : List (String × String)) (name : String) (rest : List String) :
    Option Request := do
  let args ← sort (flags name) none rest
  if (repeated? (before.map Prod.fst)).isSome then none
  if (repeated? (args.options.map Prod.fst)).isSome then none
  let outer ← value? before depthFlag readDepth
  let inner ← value? args.options depthFlag readDepth
  let command ← command? name args
  pure { maxDepth := (inner <|> outer).getD Machine.defaultDepth, command }

def request? (before : List (String × String)) :
    (waiting : Option String) → List String → Option Request
  | _, [] => none
  | some flag, v :: rest =>
    if isFlag v then none else request? (before ++ [(flag, v)]) none rest
  | none, a :: rest =>
    if isFlag a then
      match Flag.of [depthFlag] a with
      | .unknown => none
      | .pending flag => request? before (some flag) rest
      | .complete flag v => request? (before ++ [(flag, v)]) none rest
    else ofCommand? before a rest

def Request.ofArguments? (args : List String) : Option Request := request? [] none args

end RegisterMachine.CommandLine
