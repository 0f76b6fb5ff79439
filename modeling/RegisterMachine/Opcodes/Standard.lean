import RegisterMachine.Opcodes.Scalar
import RegisterMachine.Opcodes.Control
import RegisterMachine.Opcodes.Memory

/-!
The standard extensions, fourteen families of opcodes, in the order in which a machine takes
them. The three families of casts share one name.
-/

namespace RegisterMachine

namespace Opcodes

def printLine : Handler := fun _ i => do
  let v ← Effect.read i 0
  Effect.print ((← Effect.heap).render v ++ "\n")

end Opcodes

namespace Extension

open Opcodes

def int : Extension := { family := "int", handlers := Calculator.int.handlers }

def long : Extension := { family := "long", handlers := Calculator.long.handlers }

def double : Extension := { family := "double", handlers := Calculator.double.handlers }

def bool : Extension := { family := "bool", handlers := logic }

def castInt : Extension := { family := "cast", handlers := fromInt }

def castLong : Extension := { family := "cast", handlers := fromLong }

def castDouble : Extension := { family := "cast", handlers := fromDouble }

/-- Calls and returns; each way to return has a short spelling. -/
def functions : Extension where
  family := "fn"
  handlers := [
    ("call", callFunction),
    ("return", leave),
    ("return-value", leaveWith),
    ("ret", leave),
    ("ret-val", leaveWith)]

def jumps : Extension where
  family := "jump"
  handlers := [("to", jump), ("if", jumpIf), ("label", label)]
  routineHooks := [indexLabels]

def objects : Extension where
  family := "obj"
  handlers := [
    ("create", createObject),
    ("get", loadField),
    ("set", storeField),
    ("invoke", callMethod)]

def arrays : Extension where
  family := "arr"
  handlers := [
    ("create", createArray),
    ("get", loadElement),
    ("set", storeElement),
    ("length", arrayLength)]

def coroutines : Extension where
  family := "co"
  handlers := [
    ("create", createCoroutine),
    ("invoke", resume),
    ("yield", yield),
    ("crash", crash)]

def copying : Extension := { family := "copy", handlers := [("val", copy)] }

def printing : Extension := { family := "debug", handlers := [("print", printLine)] }

def standard : List Extension := [
  int, long, double, bool, castInt, castLong, castDouble, functions, jumps, objects, arrays,
  coroutines, copying, printing]

end Extension

theorem repeated?_standard :
    repeated? (Extension.standard.flatMap Extension.opcodes) = none := by decide +kernel

def Machine.standard (maxDepth : Nat) : Machine where
  handlers := Extension.standard.flatMap Extension.table
  routineHooks := Extension.standard.flatMap Extension.routineHooks
  programHooks := Extension.standard.flatMap Extension.programHooks
  maxDepth := maxDepth

theorem Machine.assemble_standard (maxDepth : Nat) :
    Machine.assemble Extension.standard maxDepth = .ok (.standard maxDepth) := by
  have opcodes : (Extension.standard.flatMap Extension.table).map Prod.fst =
      Extension.standard.flatMap Extension.opcodes := by
    simp [List.map_flatMap, Extension.map_fst_table]
  simp only [assemble, opcodes, repeated?_standard]
  rfl

end RegisterMachine
