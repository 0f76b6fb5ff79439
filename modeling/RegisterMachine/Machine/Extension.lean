import RegisterMachine.Code.Names
import RegisterMachine.Run.Operands

/-!
Extensions and machines. An extension is a family of opcodes with hooks that look at a program
before it runs; a machine is the union of its extensions. No two of its handlers answer to the
same opcode.
-/

namespace RegisterMachine

/-- What a hook answers: remarks for whoever prepares the program, and then a fault or perhaps a
note to attach. That is the contract that hooks are held to: they attach notes and leave code alone.
-/
structure Finding where
  remarks : List String := []
  outcome : Except Fault (Option (String × Note)) := .ok none

abbrev RoutineHook := Routine → Finding

abbrev ProgramHook := Program → Finding

structure Extension where
  family : String
  handlers : List (String × Handler) := []
  routineHooks : List RoutineHook := []
  programHooks : List ProgramHook := []

namespace Extension

def opcode (e : Extension) (name : String) : String := e.family ++ "-" ++ name

def opcodes (e : Extension) : List String := e.handlers.map fun h => e.opcode h.1

def table (e : Extension) : List (String × Handler) :=
  e.handlers.map fun h => (e.opcode h.1, h.2)

theorem map_fst_table (e : Extension) : e.table.map Prod.fst = e.opcodes := by
  simp [table, opcodes]

end Extension

structure Machine where
  handlers : List (String × Handler)
  routineHooks : List RoutineHook
  programHooks : List ProgramHook
  maxDepth : Nat

namespace Machine

def defaultDepth : Nat := 10000

def assemble (extensions : List Extension) (maxDepth : Nat) : Except Fault Machine :=
  let handlers := extensions.flatMap Extension.table
  match repeated? (handlers.map Prod.fst) with
  | some opcode => .error (.duplicateOpcode opcode)
  | none => .ok {
      handlers
      routineHooks := extensions.flatMap Extension.routineHooks
      programHooks := extensions.flatMap Extension.programHooks
      maxDepth }

def handler? (m : Machine) (opcode : String) : Option Handler := m.handlers.lookup opcode

def has (m : Machine) (opcode : String) : Bool := (m.handler? opcode).isSome

def opcodes (m : Machine) : List String :=
  (m.handlers.map Prod.fst).mergeSort fun a b => a ≤ b

end Machine

def quotedList (names : List String) : String :=
  "[" ++ ", ".intercalate (names.map Text.quoted) ++ "]"

def Extension.display (e : Extension) : String :=
  "Extension \x7b namespace: " ++ Text.quoted e.family ++
    ", opcodes: " ++ quotedList e.opcodes ++
    ", func_hooks: " ++ toString e.routineHooks.length ++
    ", program_hooks: " ++ toString e.programHooks.length ++ " \x7d"

def Machine.display (m : Machine) : String :=
  "VirtualMachine \x7b opcodes: " ++ quotedList m.opcodes ++
    ", func_hooks: " ++ toString m.routineHooks.length ++
    ", program_hooks: " ++ toString m.programHooks.length ++
    ", options: ExecutionOptions \x7b max_depth: " ++ toString m.maxDepth ++ " \x7d \x7d"

end RegisterMachine
