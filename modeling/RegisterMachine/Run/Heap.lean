import RegisterMachine.Run.Activation

/-!
Shared contents: arrays, objects and coroutines, each kind numbered in order of creation.
Contents are never given up and a number never changes its meaning. The length of an array and
the shape of an object are fixed at creation; a coroutine holds the frame that rests in it, and
holds none while that frame runs or after it has ended.
-/

namespace RegisterMachine

structure Instance where
  shape : Descriptor
  cells : Array Value
deriving DecidableEq, Repr, Inhabited

structure Coroutine where
  name : String
  parked : Option Frame
deriving DecidableEq, Repr, Inhabited

structure Heap where
  arrays : Array (Array Value) := #[]
  objects : Array Instance := #[]
  coroutines : Array Coroutine := #[]
deriving DecidableEq, Repr, Inhabited

namespace Heap

def elements (h : Heap) (id : ArrayId) : Array Value := h.arrays[id]?.getD #[]

def object (h : Heap) (id : ObjectId) : Instance := h.objects[id]?.getD default

def coroutine (h : Heap) (id : CoroutineId) : Coroutine := h.coroutines[id]?.getD default

def nextArray (h : Heap) : ArrayId := h.arrays.size

def nextObject (h : Heap) : ObjectId := h.objects.size

def nextCoroutine (h : Heap) : CoroutineId := h.coroutines.size

def addArray (h : Heap) (elements : Array Value) : Heap :=
  { h with arrays := h.arrays.push elements }

def addObject (h : Heap) (shape : Descriptor) : Heap :=
  { h with objects := h.objects.push ⟨shape, Array.replicate shape.fields.length .unset⟩ }

def addCoroutine (h : Heap) (name : String) (parked : Frame) : Heap :=
  { h with coroutines := h.coroutines.push ⟨name, some parked⟩ }

/-- The place of a signed index among `length` elements. -/
def slot (length : Nat) (index : Int) : Except Fault Nat :=
  if 0 ≤ index ∧ index < length then .ok index.toNat
  else .error (.indexOutOfBounds index length)

theorem slot_eq_ok_iff (length : Nat) (index : Int) (i : Nat) :
    slot length index = .ok i ↔ index = i ∧ i < length := by
  unfold slot
  split
  · rw [Except.ok.injEq]
    omega
  · simp only [reduceCtorEq, false_iff]
    omega

def place (h : Heap) (id : ArrayId) (index : Int) : Except Fault Nat :=
  slot (h.elements id).size index

def element (h : Heap) (id : ArrayId) (i : Nat) : Value := (h.elements id)[i]?.getD .unset

def setElement (h : Heap) (id : ArrayId) (i : Nat) (v : Value) : Heap :=
  { h with arrays := h.arrays.modify id fun elements => elements.setIfInBounds i v }

def load (h : Heap) (id : ArrayId) (index : Int) : Except Fault Value :=
  (h.place id index).map (h.element id)

def store (h : Heap) (id : ArrayId) (index : Int) (v : Value) : Except Fault Heap :=
  (h.place id index).map fun i => h.setElement id i v

def fieldPlace (h : Heap) (id : ObjectId) (field : String) : Except Fault Nat :=
  (h.object id).shape.position field

def cell (h : Heap) (id : ObjectId) (i : Nat) : Value := (h.object id).cells[i]?.getD .unset

def setCell (h : Heap) (id : ObjectId) (i : Nat) (v : Value) : Heap :=
  { h with objects := h.objects.modify id fun o => { o with cells := o.cells.setIfInBounds i v } }

def getField (h : Heap) (id : ObjectId) (field : String) : Except Fault Value :=
  (h.fieldPlace id field).map (h.cell id)

def setField (h : Heap) (id : ObjectId) (field : String) (v : Value) : Except Fault Heap :=
  (h.fieldPlace id field).map fun i => h.setCell id i v

theorem element_setElement (h : Heap) (id other : ArrayId) (i j : Nat) (v : Value) :
    (h.setElement id i v).element other j =
      if other = id ∧ j = i ∧ i < (h.elements id).size then v else h.element other j := by
  unfold setElement element elements
  rw [Array.getElem?_modify]
  by_cases same : id = other
  · subst same
    cases found : h.arrays[id]? with
    | none => simp
    | some xs =>
      by_cases at_i : j = i
      · subst at_i
        by_cases inside : j < xs.size <;> simp [inside]
      · simp [at_i, Ne.symm at_i]
  · simp [same, Ne.symm same]

def park (h : Heap) (id : CoroutineId) (parked : Option Frame) : Heap :=
  { h with coroutines := h.coroutines.modify id fun c => { c with parked } }

theorem coroutine_park (h : Heap) (id other : CoroutineId) (parked : Option Frame) :
    ((h.park id parked).coroutine other).parked =
      if other = id ∧ id < h.coroutines.size then parked else (h.coroutine other).parked := by
  unfold park coroutine
  rw [Array.getElem?_modify]
  by_cases same : id = other
  · subst same
    by_cases inside : id < h.coroutines.size
    · simp [inside]
    · simp [inside]
  · simp [same, Ne.symm same]

end Heap

end RegisterMachine
