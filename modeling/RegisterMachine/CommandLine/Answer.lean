import RegisterMachine.CommandLine.Request
import RegisterMachine.Demo
import RegisterMachine.Machine.Execution
import RegisterMachine.Wire.Format

/-!
What a request comes to: text for the standard output, and either perhaps a file to be written
or the trouble that ended it. Trouble is reported by a code, a chain of messages from the most
general to the cause, and sometimes a hint. A request reads at most one file and writes at most
one; `inDirectory` says what comes of it in a directory of plain files.
-/

namespace RegisterMachine.CommandLine

inductive Trouble where
  | unknownDemo (name : String)
  | emitSeveral
  | inaccessible (path : String)
  | undecodable (path : String) (defect : Wire.Defect)
  | illFormed (fault : Fault)
  | stopped (failure : Failure)
deriving DecidableEq, Repr

namespace Trouble

def code : Trouble → String
  | unknownDemo _ => "kiln::unknown_demo"
  | emitSeveral => "kiln::emit_all"
  | inaccessible _ => "kiln::io"
  | undecodable _ _ => "kiln::decode"
  | illFormed _ => "kiln::program"
  | stopped _ => "kiln::runtime"

def chain : Trouble → List String
  | unknownDemo name => [s!"unknown demo '{name}'"]
  | emitSeveral => ["--emit needs a single demo"]
  | inaccessible path => [s!"cannot access '{path}'"]
  | undecodable path defect => [s!"'{path}' is not an encoded program", defect.message]
  | illFormed fault => ["invalid program", fault.message]
  | stopped failure => ["execution failed", failure.message, failure.fault.message]

def available : String := ", ".intercalate Demo.names

def hint? : Trouble → Option String
  | unknownDemo _ => some ("available demos: all, " ++ available)
  | emitSeveral => some ("pick one of: " ++ available)
  | _ => none

end Trouble

structure Answer where
  output : String := ""
  result : Except Trouble (Option (String × List UInt8))

def runProgram (maxDepth : Nat) (p : Program) : String × Except Trouble Unit :=
  let report := (Machine.standard maxDepth).run p {} Machine.unbounded
  match report.ending with
  | .failed f => (report.sink.text, .error (.stopped f))
  | .halted | .unfinished => (report.sink.text, .ok ())

def runDemo (maxDepth : Nat) (d : Demo) : String × Except Trouble Unit :=
  match d.program with
  | .error e => ("", .error (.illFormed e))
  | .ok p => runProgram maxDepth p

def runDemos (maxDepth : Nat) : List Demo → String × Except Trouble Unit
  | [] => ("", .ok ())
  | d :: rest =>
    let heading := s!"== {d.name}: {d.description}\n"
    match runDemo maxDepth d with
    | (output, .error t) => (heading ++ output, .error t)
    | (output, .ok ()) =>
      let (more, result) := runDemos maxDepth rest
      (heading ++ output ++ more, result)

def emitDemo (d : Demo) (path : String) : Answer :=
  match d.program with
  | .error e => { result := .error (.illFormed e) }
  | .ok p => { result := .ok (some (path, Wire.program p)) }

def answerDemo (maxDepth : Nat) (name : String) (emit : Option String) : Answer :=
  let ran (r : String × Except Trouble Unit) : Answer :=
    { output := r.1, result := r.2.map fun _ => none }
  if name = "all" then
    match emit with
    | some _ => { result := .error .emitSeveral }
    | none => ran (runDemos maxDepth Demo.all)
  else
    match Demo.find? name, emit with
    | none, _ => { result := .error (.unknownDemo name) }
    | some d, some path => emitDemo d path
    | some d, none => ran (runDemo maxDepth d)

def Request.source? (r : Request) : Option String :=
  match r.command with
  | .demo _ _ => none
  | .run file | .disassemble file => some file

/-- The program in a file, whose contents are missing when it cannot be read. -/
def load (path : String) (contents : Option (List UInt8)) : Except Trouble Program :=
  match contents with
  | none => .error (.inaccessible path)
  | some bytes =>
    match Wire.decode bytes with
    | .error defect => .error (.undecodable path defect)
    | .ok p => .ok p

def Request.answer (r : Request) (contents : Option (List UInt8)) : Answer :=
  match r.command with
  | .demo name emit => answerDemo r.maxDepth name emit
  | .run file =>
    match load file contents with
    | .error t => { result := .error t }
    | .ok p =>
      let (output, result) := runProgram r.maxDepth p
      { output, result := result.map fun _ => none }
  | .disassemble file =>
    match load file contents with
    | .error t => { result := .error t }
    | .ok p => { output := p.listing, result := .ok none }

abbrev Directory := List (String × List UInt8)

/-- The file in the directory that a path names; nothing for a path that leads elsewhere. -/
def fileName? (path : String) : Option String :=
  let parts := path.splitOn "/"
  let steps := parts.filter fun s => s ≠ "" ∧ s ≠ "."
  match path.startsWith "/", steps, parts.getLast? with
  | false, [name], some last => if name = ".." ∨ last ≠ name then none else some name
  | _, _, _ => none

def Directory.contents (d : Directory) (path : String) : Option (List UInt8) :=
  (fileName? path).bind (d.lookup ·)

def Directory.write (d : Directory) (path : String) (bytes : List UInt8) :
    Except Trouble Directory :=
  match fileName? path with
  | none => .error (.inaccessible path)
  | some name => .ok ((name, bytes) :: d.filter (·.1 ≠ name))

structure Outcome where
  status : Nat
  output : String
  trouble : Option Trouble
  directory : Directory

/-- Arguments that are not understood end with status 2 and do nothing. -/
def inDirectory (d : Directory) (args : List String) : Outcome :=
  match Request.ofArguments? args with
  | none => ⟨2, "", none, d⟩
  | some r =>
    let a := r.answer (r.source?.bind d.contents)
    match a.result with
    | .error t => ⟨1, a.output, some t, d⟩
    | .ok none => ⟨0, a.output, none, d⟩
    | .ok (some (path, bytes)) =>
      match d.write path bytes with
      | .error t => ⟨1, a.output, some t, d⟩
      | .ok d => ⟨0, a.output, none, d⟩

end RegisterMachine.CommandLine
