import RegisterMachine.Run.Operands

/-!
Opcodes on arrays and objects. A container is created only when the register that is to hold it
is there, so a step that fails creates none. Reading and writing an element or a field changes
nothing else.
-/

namespace RegisterMachine.Opcodes

open Effect

def createArray : Handler := fun _ i => do
  let length ← readAs .int i 0
  if length.toInt < 0 then throw (.indexOutOfBounds length.toInt 0)
  write i (.array (← heap).nextArray)
  modifyHeap (·.addArray (Array.replicate length.toInt.toNat .unset))

def loadElement : Handler := fun _ i => do
  let id ← readAs .array i 0
  let index ← readAs .int i 1
  let v ← check ((← heap).load id index.toInt)
  write i v

def storeElement : Handler := fun _ i => do
  let id ← readAs .array i 0
  let index ← readAs .int i 1
  let v ← read i 2
  let place ← check ((← heap).place id index.toInt)
  modifyHeap (·.setElement id place v)

def arrayLength : Handler := fun _ i => do
  let id ← readAs .array i 0
  let length := ((← heap).elements id).size
  write i (.int (Int32.ofInt (min length Int32.maxValue.toInt)))

def createObject : Handler := fun _ i => do
  let shape ← check i.descriptor
  write i (.object (← heap).nextObject)
  modifyHeap (·.addObject shape)

def loadField : Handler := fun _ i => do
  let id ← readAs .object i 0
  let field ← check i.name
  let v ← check ((← heap).getField id field)
  write i v

def storeField : Handler := fun _ i => do
  let id ← readAs .object i 0
  let v ← read i 1
  let field ← check i.name
  let place ← check ((← heap).fieldPlace id field)
  modifyHeap (·.setCell id place v)

end RegisterMachine.Opcodes
