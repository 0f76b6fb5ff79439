import RegisterMachine.CommandLine.Answer

/-!
The command line program: it reads the file that the request names, prints the answer, and
writes the file that the answer holds.
-/

namespace RegisterMachine.CommandLine

def readFile (path : String) : IO (Option (List UInt8)) := do
  try
    return some (← IO.FS.readBinFile path).toList
  catch _ => return none

def report (t : Trouble) : IO Unit := do
  IO.eprintln t.code
  for message in t.chain do
    IO.eprintln ("  " ++ message)
  if let some hint := t.hint? then
    IO.eprintln ("  help: " ++ hint)

def settle (a : Answer) : IO UInt32 := do
  IO.print a.output
  match a.result with
  | .error t =>
    report t
    return 1
  | .ok none => return 0
  | .ok (some (path, bytes)) =>
    try
      IO.FS.writeBinFile path ⟨bytes.toArray⟩
      return 0
    catch _ =>
      report (.inaccessible path)
      return 1

end RegisterMachine.CommandLine

open RegisterMachine CommandLine in
def main (args : List String) : IO UInt32 := do
  match Request.ofArguments? args with
  | none =>
    IO.eprintln "usage: kiln [--max-depth N] demo [NAME] [--emit FILE] | run FILE | disasm FILE"
    return 2
  | some r =>
    let contents ← match r.source? with
      | none => pure none
      | some path => readFile path
    settle (r.answer contents)
