import RegisterMachine.Run.State

/-!
How an instruction reaches its operands: it reads input registers of the executing frame, writes
its output register, calls functions by name, and hands a value to the frame below. The frame
below has no record of where the value goes: the place is the output register of the instruction
just before its pointer, which is the call that it waits for.
-/

namespace RegisterMachine

namespace Effect

variable {α : Type}

def read (i : Instruction) (position : Nat) : Effect Value := do
  let r ← check (i.input position)
  let f ← frame
  check (f.get r)

def readAs (rep : Representation α) (i : Instruction) (position : Nat) : Effect α := do
  let r ← check (i.input position)
  let f ← frame
  let v ← check (f.get r)
  match rep.ofValue? v with
  | some a => pure a
  | none => throw (.kindMismatch i.opcode r rep.kind v.kind)

def readAll (i : Instruction) : Effect (List Value) := do
  let f ← frame
  check (i.inputs.mapM f.get)

def write (i : Instruction) (v : Value) : Effect Unit := do
  let r ← check i.destination
  let f ← frame
  let f ← check (f.set r v)
  replaceFrame f

def call (p : Program) (name : String) (args : List Value) : Effect Unit := do
  let id ← check (p.find name)
  let f ← check (Frame.enter p id args)
  push f

/-- The value goes to the output register of the resumed frame's call, and is remembered there as
the last one returned. Nothing changes unless both are done. -/
def deliver (p : Program) (opcode : String) (v : Value) : Effect Unit := do
  match (← get).calls.top? with
  | none => throw (.undeliverable opcode .noFrame)
  | some f =>
    match f.callSite? p with
    | none => throw (.undeliverable opcode .noCallSite)
    | some site =>
      match site.output with
      | none => throw (.undeliverable opcode .noOutput)
      | some r =>
        let f ← check (f.set r v)
        replaceFrame { f with returned := some v }

end Effect

abbrev Handler := Program → Instruction → Effect Unit

end RegisterMachine
