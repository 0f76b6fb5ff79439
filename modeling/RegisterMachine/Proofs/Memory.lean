import RegisterMachine.Proofs.SideBySide

/-!
Arrays and objects as the runs of a program see them. A step creates at most one of them, with all
that it holds unset, or stores one value in one place, and leaves the rest as it was; lengths and
shapes stay as they were created. So what is found in a place is what was stored there last.
-/

namespace RegisterMachine

section Fields

variable {d : Descriptor} {name other : String} {i : Nat}

theorem Descriptor.position_eq_ok_iff :
    d.position name = .ok i ↔ d.fields.idxOf? name = some i := by
  unfold position
  cases d.fields.idxOf? name <;> simp

theorem Descriptor.getElem?_position (found : d.position name = .ok i) :
    d.fields[i]? = some name := by
  obtain ⟨inside, same, -⟩ := List.idxOf?_eq_some_iff.mp (position_eq_ok_iff.mp found)
  exact List.getElem?_eq_some_iff.mpr ⟨inside, same⟩

theorem Descriptor.position_lt (found : d.position name = .ok i) : i < d.fields.length :=
  (List.getElem?_eq_some_iff.mp (getElem?_position found)).1

theorem Descriptor.position_inj (found : d.position name = .ok i)
    (also : d.position other = .ok i) : name = other :=
  Option.some.inj ((getElem?_position found).symm.trans (getElem?_position also))

theorem Descriptor.exists_position_iff : (∃ i, d.position name = .ok i) ↔ name ∈ d.fields := by
  simp only [position_eq_ok_iff, ← Option.isSome_iff_exists, List.isSome_idxOf?]

end Fields

namespace Heap

variable {h k : Heap} {id other : Nat} {i j : Nat} {v : Value}

def field (h : Heap) (id : ObjectId) (name : String) : Value :=
  (h.getField id name).toOption.getD .unset

theorem field_of_place {name : String} (placed : h.fieldPlace id name = .ok i) :
    h.field id name = h.cell id i := by
  simp [field, getField, placed, Except.map, Except.toOption]

theorem field_of_absent {name : String} {e : Fault} (absent : h.fieldPlace id name = .error e) :
    h.field id name = .unset := by
  simp [field, getField, absent, Except.map, Except.toOption]

theorem elements_addArray (h : Heap) (elements : Array Value) (id : ArrayId) :
    (h.addArray elements).elements id = if id = h.nextArray then elements else h.elements id := by
  unfold addArray nextArray Heap.elements
  rw [Array.getElem?_push]
  split <;> rfl

theorem object_addObject (h : Heap) (shape : Descriptor) (id : ObjectId) :
    (h.addObject shape).object id = if id = h.nextObject then
      ⟨shape, Array.replicate shape.fields.length .unset⟩ else h.object id := by
  unfold addObject nextObject object
  rw [Array.getElem?_push]
  split <;> rfl

theorem size_elements_setElement (h : Heap) (id : ArrayId) (i : Nat) (v : Value)
    (other : ArrayId) :
    ((h.setElement id i v).elements other).size = (h.elements other).size := by
  unfold setElement Heap.elements
  rw [Array.getElem?_modify]
  split
  · cases h.arrays[other]? <;> simp
  · rfl

theorem shape_setCell (h : Heap) (id : ObjectId) (i : Nat) (v : Value) (other : ObjectId) :
    ((h.setCell id i v).object other).shape = (h.object other).shape ∧
      ((h.setCell id i v).object other).cells.size = (h.object other).cells.size := by
  unfold setCell object
  rw [Array.getElem?_modify]
  split
  · cases h.objects[other]? <;> simp
  · exact ⟨rfl, rfl⟩

theorem cell_setCell (h : Heap) (id other : ObjectId) (i j : Nat) (v : Value) :
    (h.setCell id i v).cell other j =
      if other = id ∧ j = i ∧ i < (h.object id).cells.size then v else h.cell other j := by
  unfold setCell cell object
  rw [Array.getElem?_modify]
  by_cases same : id = other
  · subst same
    cases found : h.objects[id]? with
    | none =>
      have nothing : (default : Instance).cells.size = 0 := rfl
      simp [nothing]
    | some o =>
      by_cases at_i : j = i
      · subst at_i
        by_cases inside : j < o.cells.size <;> simp [inside]
      · simp [at_i, Ne.symm at_i]
  · simp [same, Ne.symm same]

theorem element_addArray (h : Heap) (length : Nat) (id : ArrayId) (i : Nat) :
    (h.addArray (Array.replicate length .unset)).element id i = h.element id i := by
  unfold element
  rw [elements_addArray]
  split
  · next new =>
    have nothing : h.elements id = #[] := by
      subst new
      simp [Heap.elements, nextArray]
    simp only [nothing, Array.getElem?_replicate]
    split <;> rfl
  · rfl

theorem field_addObject (h : Heap) (shape : Descriptor) (id : ObjectId) (name : String) :
    (h.addObject shape).field id name = h.field id name := by
  have unset {g : Heap} (blank : ∀ i, g.cell id i = .unset) : g.field id name = .unset := by
    cases placed : g.fieldPlace id name with
    | error e => exact field_of_absent placed
    | ok i => rw [field_of_place placed, blank]
  by_cases new : id = h.nextObject
  · have nothing : h.object id = default := by
      subst new
      simp [object, nextObject]
    rw [unset fun i => ?_, unset fun i => ?_]
    · rw [cell, nothing]
      rfl
    · rw [cell, object_addObject, if_pos new]
      simp only [Array.getElem?_replicate]
      split <;> rfl
  · have same : (h.addObject shape).object id = h.object id := by
      rw [object_addObject, if_neg new]
    have cells : (h.addObject shape).cell id = h.cell id :=
      funext fun i => by rw [cell, same, cell]
    simp only [field, getField, fieldPlace, same, cells]

structure Unaltered (h k : Heap) : Prop where
  arrays : k.arrays = h.arrays
  objects : k.objects = h.objects

theorem Unaltered.elements (same : h.Unaltered k) : k.elements = h.elements :=
  funext fun id => by rw [Heap.elements, same.arrays, Heap.elements]

theorem Unaltered.object (same : h.Unaltered k) : k.object = h.object :=
  funext fun id => by rw [Heap.object, same.objects, Heap.object]

theorem Unaltered.element (same : h.Unaltered k) : k.element = h.element := by
  funext id i
  rw [Heap.element, same.elements, Heap.element]

theorem Unaltered.field (same : h.Unaltered k) : k.field = h.field := by
  have cell : k.cell = h.cell := by
    funext id i
    rw [Heap.cell, same.object, Heap.cell]
  funext id name
  simp only [Heap.field, getField, fieldPlace, cell, same.object]

/-- What one heap has the other has as well, with the length or the shape that it has there. -/
structure Keeps (h k : Heap) : Prop where
  arrays : ∀ id < h.nextArray,
    id < k.nextArray ∧ (k.elements id).size = (h.elements id).size
  objects : ∀ id < h.nextObject,
    id < k.nextObject ∧ (k.object id).shape = (h.object id).shape

/-- Lengths are numbers of 32 bits, and an object has a cell for each field of its shape. -/
structure Shaped (h : Heap) : Prop where
  length : ∀ id, ((h.elements id).size : Int) ≤ Int32.maxValue.toInt
  cells : ∀ id, (h.object id).cells.size = (h.object id).shape.fields.length

theorem Keeps.refl (h : Heap) : h.Keeps h :=
  ⟨fun _ present => ⟨present, rfl⟩, fun _ present => ⟨present, rfl⟩⟩

theorem Keeps.trans {l : Heap} (first : h.Keeps k) (second : k.Keeps l) : h.Keeps l where
  arrays id present := by
    obtain ⟨still, size⟩ := first.arrays id present
    exact ⟨(second.arrays id still).1, (second.arrays id still).2.trans size⟩
  objects id present := by
    obtain ⟨still, shape⟩ := first.objects id present
    exact ⟨(second.objects id still).1, (second.objects id still).2.trans shape⟩

theorem place_lt {index : Int} (placed : h.place id index = .ok i) : i < (h.elements id).size :=
  ((slot_eq_ok_iff _ _ _).mp placed).2

theorem Shaped.fieldPlace_lt {name : String} (shaped : h.Shaped)
    (placed : h.fieldPlace id name = .ok i) : i < (h.object id).cells.size :=
  shaped.cells id ▸ Descriptor.position_lt placed

theorem Shaped.field_setCell {name : String} (shaped : h.Shaped)
    (placed : h.fieldPlace id name = .ok i) (v : Value) (other : ObjectId) (name' : String) :
    (h.setCell id i v).field other name' =
      if other = id ∧ name' = name then v else h.field other name' := by
  have inside := shaped.fieldPlace_lt placed
  have places : (h.setCell id i v).fieldPlace other name' = h.fieldPlace other name' := by
    rw [fieldPlace, (h.shape_setCell id i v other).1, fieldPlace]
  cases placed' : h.fieldPlace other name' with
  | error e =>
    have apart : ¬(other = id ∧ name' = name) := by
      rintro ⟨rfl, rfl⟩
      exact nomatch placed.symm.trans placed'
    rw [if_neg apart, field_of_absent placed', field_of_absent (places.trans placed')]
  | ok j =>
    have place : other = id ∧ j = i ↔ other = id ∧ name' = name := by
      refine and_congr_right fun same => ?_
      subst same
      constructor
      · rintro rfl
        exact Descriptor.position_inj placed' placed
      · rintro rfl
        exact Except.ok.inj (placed'.symm.trans placed)
    rw [field_of_place (places.trans placed'), field_of_place placed', cell_setCell]
    simp only [inside, and_true, place]

end Heap

def State.given (s : State) (f : Frame) (r : Register) (v : Value) : State :=
  { s with calls := s.calls.replaceTop (f.advance.put r v), dispatched := s.dispatched + 1 }

theorem Stack.replaceTop_replaceTop {α : Type} (s : Stack α) (x y : α) :
    (s.replaceTop x).replaceTop y = s.replaceTop y := by
  obtain ⟨items, room⟩ := s
  cases items <;> rfl

section Stores

variable (m : Machine) (p : Program) (s : State)

def Machine.StoresElement (id : ArrayId) (place : Nat) (v : Value) : Prop :=
  ∃ f below r i index, Executes p s f below r i ∧ i.opcode = "arr-set" ∧
    f.operandAs .array i 0 = .ok id ∧ f.operandAs .int i 1 = .ok index ∧ index.toInt = place ∧
    f.operand i 2 = .ok v ∧ (m.attempt p s).1 = .ok true

def Machine.StoresField (id : ObjectId) (name : String) (v : Value) : Prop :=
  ∃ f below r i, Executes p s f below r i ∧ i.opcode = "obj-set" ∧
    f.operandAs .object i 0 = .ok id ∧ i.name = .ok name ∧ f.operand i 1 = .ok v ∧
    (m.attempt p s).1 = .ok true

/-- All that a step can do to arrays and objects. -/
inductive Machine.Alters : Heap → Prop where
  | nothing {k} (same : s.heap.Unaltered k) : Alters k
  | array {length : Nat} (short : (length : Int) ≤ Int32.maxValue.toInt) :
      Alters (s.heap.addArray (Array.replicate length .unset))
  | object (shape : Descriptor) : Alters (s.heap.addObject shape)
  | element {id place v} (stores : m.StoresElement p s id place v)
      (inside : place < (s.heap.elements id).size) : Alters (s.heap.setElement id place v)
  | field {id name place v} (stores : m.StoresField p s id name v)
      (placed : s.heap.fieldPlace id name = .ok place) : Alters (s.heap.setCell id place v)

end Stores

section Steps

variable {p : Program} {s t : State} {f : Frame} {below : List Frame} {r : Routine}
  {i : Instruction} {id : Nat} {v : Value} {depth : Nat}

theorem Deed.perform_unaltered {d : Deed} (other : ∀ c, d ≠ .change c) (s : State) (l : Location) :
    s.heap.Unaltered (Machine.finish l (d.perform p i f s)).2.heap := by
  have pushed (g : Frame) (s : State) :
      s.heap.Unaltered (Machine.finish l (Effect.push g s)).2.heap := by
    rw [Effect.push_run]
    cases s.calls.push g <;> exact ⟨rfl, rfl⟩
  have delivered (v : Value) (s : State) :
      s.heap.Unaltered (Machine.finish l (Effect.deliver p i.opcode v s)).2.heap := by
    rw [Effect.deliver_run]
    cases s.calls.items with
    | nil => exact ⟨rfl, rfl⟩
    | cons g rest => simp only; cases g.receive p i.opcode v <;> exact ⟨rfl, rfl⟩
  cases d with
  | change c => exact absurd rfl (other c)
  | print v =>
    simp only [perform, Effect.print_run]
    split <;> exact ⟨rfl, rfl⟩
  | enter callee => exact pushed callee s
  | resume id parked =>
    have resumed := pushed { parked with home := some id } { s with heap := s.heap.park id none }
    exact ⟨resumed.arrays, resumed.objects⟩
  | leave => exact ⟨rfl, rfl⟩
  | handBack v => exact delivered v { s with calls := s.calls.pop }
  | yield v =>
    have rested := delivered v { s with calls := s.calls.pop, heap := s.heap.rest f }
    have same : s.heap.Unaltered (s.heap.rest f) := by
      unfold Heap.rest
      cases f.home <;> exact ⟨rfl, rfl⟩
    exact ⟨rested.arrays.trans same.arrays, rested.objects.trans same.objects⟩

theorem Machine.attempt_alters (depth : Nat) (p : Program) (s : State) :
    (standard depth).Alters p s ((standard depth).attempt p s).2.heap := by
  have together := attempt_together (t := s) p depth rfl rfl
  generalize ran : (standard depth).attempt p s = x at together ⊢
  cases together with
  | stays idle room => exact .nothing ⟨rfl, rfl⟩
  | fails executes room => exact .nothing ⟨rfl, rfl⟩
  | @performs f below r i d executes fits =>
    by_cases changes : ∃ c, d = .change c
    · obtain ⟨c, rfl⟩ := changes
      have through : ((standard depth).attempt p s).1 = .ok true := by rw [ran]; rfl
      cases c with
      | nothing | register | jump | coroutine => exact .nothing ⟨rfl, rfl⟩
      | array q length =>
        obtain ⟨-, -, n, -, size⟩ := fits
        exact .array (size ▸ n.toInt_le)
      | object q shape => exact .object shape
      | element id place v =>
        obtain ⟨opcode, array, ⟨index, number, placed⟩, value⟩ := fits
        obtain ⟨same, inside⟩ := (Heap.slot_eq_ok_iff _ _ _).mp placed
        exact .element ⟨f, below, r, i, index, executes, opcode, array, number, same, value,
          through⟩
          inside
      | cell id place v =>
        obtain ⟨opcode, object, ⟨name, named, placed⟩, value⟩ := fits
        exact .field ⟨f, below, r, i, executes, opcode, object, named, value, through⟩ placed
    · exact .nothing (d.perform_unaltered (fun c same => changes ⟨c, same⟩) (s.advance f) _)

theorem Executes.attempt_change (executes : Executes p s f below r i) {handler : Handler}
    {plan : Plan}
    (known : (Machine.standard depth).handler? i.opcode = some handler)
    (follows : Follows handler plan) {c : Change}
    (decided : plan p i f.advance s.heap = .ok (.change c)) :
    (Machine.standard depth).attempt p s = (.ok true, { s with
      calls := s.calls.replaceTop (c.frame s.heap f.advance)
      heap := c.heap s.heap
      dispatched := s.dispatched + 1 }) := by
  rw [executes.attempt_eq known follows, decided]
  simp only [Deed.perform, State.advance, Stack.replaceTop_replaceTop]

theorem Executes.attempt_refused (executes : Executes p s f below r i) {handler : Handler}
    {plan : Plan} (known : (Machine.standard depth).handler? i.opcode = some handler)
    (follows : Follows handler plan) {e : Fault}
    (decided : plan p i f.advance s.heap = .error e) :
    (Machine.standard depth).attempt p s =
      (.error ⟨e, some ⟨r.name, f.pointer, i.opcode⟩⟩, s.advance f) := by
  rw [executes.attempt_eq known follows, decided]

theorem Executes.attempt_computing (executes : Executes p s f below r i) {handler : Handler}
    {value : Instruction → Frame → Heap → Except Fault Value}
    (known : (Machine.standard depth).handler? i.opcode = some handler)
    (follows : Follows handler (.computing value)) :
    (Machine.standard depth).attempt p s = match value i f.advance s.heap, f.outlet i with
      | .ok v, .ok out => (.ok true, s.given f out v)
      | .ok _, .error e | .error e, _ =>
        (.error ⟨e, some ⟨r.name, f.pointer, i.opcode⟩⟩, s.advance f) := by
  have outlet : f.advance.outlet i = f.outlet i := rfl
  cases found : value i f.advance s.heap with
  | error e =>
    exact executes.attempt_refused known follows (by simp only [Plan.computing, found, error_bind])
  | ok v =>
    cases destination : f.outlet i with
    | error e =>
      refine executes.attempt_refused known follows ?_
      simp only [Plan.computing, found, outlet, destination, ok_bind, error_bind]
    | ok out =>
      refine executes.attempt_change (c := .register out v) known follows ?_
      simp only [Plan.computing, found, outlet, destination, ok_bind, pure, Except.pure]

theorem Executes.attempt_value (executes : Executes p s f below r i) {handler : Handler}
    {value : Instruction → Frame → Heap → Except Fault Value}
    (known : (Machine.standard depth).handler? i.opcode = some handler)
    (follows : Follows handler (.computing value)) {out : Register} (output : i.output = some out)
    (inside : out < f.registers.size) :
    (Machine.standard depth).attempt p s = match value i f.advance s.heap with
      | .ok v => (.ok true, s.given f out v)
      | .error e => (.error ⟨e, some ⟨r.name, f.pointer, i.opcode⟩⟩, s.advance f) := by
  rw [executes.attempt_computing known follows, Frame.outlet_eq_ok_iff.mpr ⟨output, inside⟩]
  cases value i f.advance s.heap <;> rfl

theorem Executes.attempt_loadElement (executes : Executes p s f below r i)
    (opcode : i.opcode = "arr-get") (array : f.operandAs .array i 0 = .ok id) {index : Int32}
    (number : f.operandAs .int i 1 = .ok index) (depth : Nat) :
    (Machine.standard depth).attempt p s = match s.heap.load id index.toInt, f.outlet i with
      | .ok v, .ok out => (.ok true, s.given f out v)
      | .ok _, .error e | .error e, _ =>
        (.error ⟨e, some ⟨r.name, f.pointer, i.opcode⟩⟩, s.advance f) := by
  have array : f.advance.operandAs .array i 0 = .ok id := array
  have number : f.advance.operandAs .int i 1 = .ok index := number
  have known : (Machine.standard depth).handler? i.opcode = some Opcodes.loadElement :=
    opcode ▸ rfl
  rw [executes.attempt_computing known follows_loadElement]
  simp only [Plan.loadElement, array, number, ok_bind]

theorem Executes.attempt_loadField (executes : Executes p s f below r i)
    (opcode : i.opcode = "obj-get") (object : f.operandAs .object i 0 = .ok id) {name : String}
    (named : i.name = .ok name) (depth : Nat) :
    (Machine.standard depth).attempt p s = match s.heap.getField id name, f.outlet i with
      | .ok v, .ok out => (.ok true, s.given f out v)
      | .ok _, .error e | .error e, _ =>
        (.error ⟨e, some ⟨r.name, f.pointer, i.opcode⟩⟩, s.advance f) := by
  have object : f.advance.operandAs .object i 0 = .ok id := object
  have known : (Machine.standard depth).handler? i.opcode = some Opcodes.loadField := opcode ▸ rfl
  rw [executes.attempt_computing known follows_loadField]
  simp only [Plan.loadField, object, named, ok_bind]

theorem Executes.attempt_arrayLength (executes : Executes p s f below r i)
    (opcode : i.opcode = "arr-length") (array : f.operandAs .array i 0 = .ok id) (depth : Nat) :
    (Machine.standard depth).attempt p s = match f.outlet i with
      | .ok out => (.ok true, s.given f out
          (.int (Int32.ofInt (min (s.heap.elements id).size Int32.maxValue.toInt))))
      | .error e => (.error ⟨e, some ⟨r.name, f.pointer, i.opcode⟩⟩, s.advance f) := by
  have array : f.advance.operandAs .array i 0 = .ok id := array
  have known : (Machine.standard depth).handler? i.opcode = some Opcodes.arrayLength :=
    opcode ▸ rfl
  rw [executes.attempt_computing known follows_arrayLength]
  simp only [Plan.arrayLength, array, ok_bind, pure, Except.pure]
  cases f.outlet i <;> rfl

theorem Executes.attempt_storeElement (executes : Executes p s f below r i)
    (opcode : i.opcode = "arr-set") (array : f.operandAs .array i 0 = .ok id) {index : Int32}
    (number : f.operandAs .int i 1 = .ok index) (value : f.operand i 2 = .ok v) (depth : Nat) :
    (Machine.standard depth).attempt p s = match s.heap.place id index.toInt with
      | .ok place => (.ok true, { s.advance f with
          heap := s.heap.setElement id place v, dispatched := s.dispatched + 1 })
      | .error e => (.error ⟨e, some ⟨r.name, f.pointer, i.opcode⟩⟩, s.advance f) := by
  have array : f.advance.operandAs .array i 0 = .ok id := array
  have number : f.advance.operandAs .int i 1 = .ok index := number
  have value : f.advance.operand i 2 = .ok v := value
  have known : (Machine.standard depth).handler? i.opcode = some Opcodes.storeElement :=
    opcode ▸ rfl
  cases placed : s.heap.place id index.toInt with
  | error e =>
    refine executes.attempt_refused known follows_storeElement ?_
    simp only [Plan.storeElement, array, number, value, placed, ok_bind, error_bind]
  | ok place =>
    refine executes.attempt_change (c := .element id place v) known follows_storeElement ?_
    simp only [Plan.storeElement, array, number, value, placed, ok_bind, pure, Except.pure]

theorem Executes.attempt_storeField (executes : Executes p s f below r i)
    (opcode : i.opcode = "obj-set") (object : f.operandAs .object i 0 = .ok id) {name : String}
    (named : i.name = .ok name) (value : f.operand i 1 = .ok v) (depth : Nat) :
    (Machine.standard depth).attempt p s = match s.heap.fieldPlace id name with
      | .ok place => (.ok true, { s.advance f with
          heap := s.heap.setCell id place v, dispatched := s.dispatched + 1 })
      | .error e => (.error ⟨e, some ⟨r.name, f.pointer, i.opcode⟩⟩, s.advance f) := by
  have object : f.advance.operandAs .object i 0 = .ok id := object
  have value : f.advance.operand i 1 = .ok v := value
  have known : (Machine.standard depth).handler? i.opcode = some Opcodes.storeField := opcode ▸ rfl
  cases placed : s.heap.fieldPlace id name with
  | error e =>
    refine executes.attempt_refused known follows_storeField ?_
    simp only [Plan.storeField, object, named, value, placed, ok_bind, error_bind]
  | ok place =>
    refine executes.attempt_change (c := .cell id place v) known follows_storeField ?_
    simp only [Plan.storeField, object, named, value, placed, ok_bind, pure, Except.pure]

end Steps

section Consequences

variable {p : Program} {s : State} {id other : Nat} {place i : Nat} {name name' : String}
  {v : Value}
  {k : Heap} {m : Machine} {depth : Nat}

theorem Machine.Alters.keeps (alters : m.Alters p s k) : s.heap.Keeps k := by
  cases alters with
  | nothing same =>
    refine ⟨fun id present => ⟨?_, ?_⟩, fun id present => ⟨?_, ?_⟩⟩
    · rwa [Heap.nextArray, same.arrays]
    · rw [same.elements]
    · rwa [Heap.nextObject, same.objects]
    · rw [same.object]
  | array short =>
    refine ⟨fun id present => ⟨?_, ?_⟩, fun id present => ⟨present, rfl⟩⟩
    · rw [Heap.nextArray, Heap.addArray, Array.size_push]
      exact Nat.lt_succ_of_lt present
    · rw [Heap.elements_addArray, if_neg (Nat.ne_of_lt present)]
  | object shape =>
    refine ⟨fun id present => ⟨present, rfl⟩, fun id present => ⟨?_, ?_⟩⟩
    · rw [Heap.nextObject, Heap.addObject, Array.size_push]
      exact Nat.lt_succ_of_lt present
    · rw [Heap.object_addObject, if_neg (Nat.ne_of_lt present)]
  | element stores inside =>
    refine ⟨fun id present => ⟨?_, Heap.size_elements_setElement ..⟩,
      fun id present => ⟨present, rfl⟩⟩
    simpa [Heap.nextArray, Heap.setElement] using present
  | field stores placed =>
    refine ⟨fun id present => ⟨present, rfl⟩,
      fun id present => ⟨?_, (Heap.shape_setCell ..).1⟩⟩
    simpa [Heap.nextObject, Heap.setCell] using present

theorem Machine.Alters.shaped (shaped : s.heap.Shaped) (alters : m.Alters p s k) : k.Shaped := by
  cases alters with
  | nothing same =>
    exact ⟨fun id => same.elements ▸ shaped.length id, fun id => same.object ▸ shaped.cells id⟩
  | array short =>
    refine ⟨fun id => ?_, shaped.cells⟩
    rw [Heap.elements_addArray]
    split
    · simpa using short
    · exact shaped.length id
  | object shape =>
    refine ⟨shaped.length, fun id => ?_⟩
    rw [Heap.object_addObject]
    split
    · simp
    · exact shaped.cells id
  | element stores inside =>
    refine ⟨fun id => ?_, shaped.cells⟩
    rw [Heap.size_elements_setElement]
    exact shaped.length id
  | field stores placed =>
    refine ⟨shaped.length, fun id => ?_⟩
    obtain ⟨shape, size⟩ := Heap.shape_setCell s.heap _ _ _ id
    rw [shape, size]
    exact shaped.cells id

theorem Machine.StoresElement.heap (stores : (standard depth).StoresElement p s id place v) :
    place < (s.heap.elements id).size ∧
      ((standard depth).attempt p s).2.heap = s.heap.setElement id place v := by
  obtain ⟨f, below, r, i, index, executes, opcode, array, number, same, value, through⟩ := stores
  rw [executes.attempt_storeElement opcode array number value] at through ⊢
  cases placed : s.heap.place id index.toInt with
  | error e => simp [placed] at through
  | ok there =>
    obtain ⟨also, inside⟩ := (Heap.slot_eq_ok_iff _ _ _).mp placed
    obtain rfl : there = place := Int.ofNat.inj (also.symm.trans same)
    exact ⟨inside, rfl⟩

theorem Machine.StoresField.heap (stores : (standard depth).StoresField p s id name v) :
    ∃ place, s.heap.fieldPlace id name = .ok place ∧
      ((standard depth).attempt p s).2.heap = s.heap.setCell id place v := by
  obtain ⟨f, below, r, i, executes, opcode, object, named, value, through⟩ := stores
  rw [executes.attempt_storeField opcode object named value] at through ⊢
  cases placed : s.heap.fieldPlace id name with
  | error e => simp [placed] at through
  | ok place => exact ⟨place, rfl, rfl⟩

theorem Machine.Alters.element_eq (alters : m.Alters p s k)
    (untouched : ∀ v, ¬m.StoresElement p s id place v) :
    k.element id place = s.heap.element id place := by
  cases alters with
  | nothing same => rw [same.element]
  | array short => exact s.heap.element_addArray _ id place
  | object | field => rfl
  | @element id' place' v' stores inside =>
    have apart : ¬(id = id' ∧ place = place' ∧ place' < (s.heap.elements id').size) := by
      rintro ⟨rfl, rfl, -⟩
      exact untouched v' stores
    rw [Heap.element_setElement, if_neg apart]

theorem Machine.Alters.field_eq (shaped : s.heap.Shaped) (alters : m.Alters p s k)
    (untouched : ∀ v, ¬m.StoresField p s id name v) : k.field id name = s.heap.field id name := by
  cases alters with
  | nothing same => rw [same.field]
  | array | element => rfl
  | object shape => exact s.heap.field_addObject shape id name
  | @field id' name' place v' stores placed =>
    have apart : ¬(id = id' ∧ name = name') := by
      rintro ⟨rfl, rfl⟩
      exact untouched v' stores
    rw [shaped.field_setCell placed, if_neg apart]

end Consequences

end RegisterMachine
