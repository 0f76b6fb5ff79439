import RegisterMachine.Proofs.Memory

/-!
What is read is what was written last. Whoever holds an array or an object holds its number, so it
does not matter which register, element or field a number was taken from: a read of a place gives
what the latest store to that place left there, in whatever activation that was, and unset where
there was none. The induction is on the steps of the run, failed ones among them.
-/

namespace RegisterMachine

/-- The last of the first `n` steps to write wrote that value; if none wrote, it is unset. -/
inductive Latest (writes : Nat → Value → Prop) (n : Nat) : Value → Prop where
  | unset (never : ∀ k < n, ∀ v, ¬writes k v) : Latest writes n .unset
  | written {k v} (before : k < n) (wrote : writes k v)
      (last : ∀ j, k < j → j < n → ∀ w, ¬writes j w) : Latest writes n v

theorem latest_of_steps {writes : Nat → Value → Prop} (value : Nat → Value)
    (initial : value 0 = .unset) (wrote : ∀ k v, writes k v → value (k + 1) = v)
    (kept : ∀ k, (∀ v, ¬writes k v) → value (k + 1) = value k) (n : Nat) :
    Latest writes n (value n) := by
  induction n with
  | zero => exact initial ▸ .unset nofun
  | succ n ih =>
    by_cases writing : ∃ v, writes n v
    · obtain ⟨v, writing⟩ := writing
      rw [wrote n v writing]
      exact .written (Nat.lt_succ_self n) writing fun j after before => by omega
    · have silent : ∀ v, ¬writes n v := fun v writing' => writing ⟨v, writing'⟩
      rw [kept n silent]
      have extend {j : Nat} (still : j < n → ∀ w, ¬writes j w) (within : j < n + 1) :
          ∀ w, ¬writes j w := by
        rcases Nat.lt_or_eq_of_le (Nat.le_of_lt_succ within) with earlier | rfl
        · exact still earlier
        · exact silent
      -- a silent step leaves the last write the last
      generalize value n = v at ih ⊢
      cases ih with
      | unset never => exact .unset fun k within => extend (never k) within
      | written before wrote last =>
        exact .written (Nat.lt_succ_of_lt before) wrote fun j after => extend (last j after)

/-- The step from `s` executes the instruction of frame `f` that stands there, and its first two
operands are an array and an index. -/
structure State.Indexes (p : Program) (s : State) (f : Frame) (i : Instruction) (l : Location)
    (id : ArrayId) (index : Int32) : Prop where
  executes : ∃ below r, Executes p s f below r i ∧ l = ⟨r.name, f.pointer, i.opcode⟩
  array : f.operandAs .array i 0 = .ok id
  number : f.operandAs .int i 1 = .ok index

structure State.Names (p : Program) (s : State) (f : Frame) (i : Instruction) (id : ObjectId)
    (name : String) : Prop where
  executes : ∃ below r, Executes p s f below r i
  object : f.operandAs .object i 0 = .ok id
  named : i.name = .ok name

/-- The step from `s` gets the value into the output register of its instruction, if there is one.
-/
def Machine.Reads (m : Machine) (p : Program) (s : State) (f : Frame) (i : Instruction)
    (v : Value) :
    Prop :=
  ∀ out, f.outlet i = .ok out → m.attempt p s = (.ok true, s.given f out v)

namespace Heap

variable {h : Heap} {id : ArrayId} {index : Int}

def Inside (h : Heap) (id : ArrayId) (index : Int) : Prop :=
  0 ≤ index ∧ index < (h.elements id).size

theorem place_of_inside (inside : h.Inside id index) : h.place id index = .ok index.toNat :=
  if_pos inside

theorem place_of_outside (outside : ¬h.Inside id index) :
    h.place id index = .error (.indexOutOfBounds index (h.elements id).size) :=
  if_neg outside

end Heap

section Accesses

variable {p : Program} {s : State} {f : Frame} {i : Instruction} {l : Location} {id : Nat}
  {index : Int32} {name : String} {v : Value} {depth : Nat}

theorem Frame.outlet_ne_outOfBounds {e : Fault} (refused : f.outlet i = .error e) (index : Int)
    (size : Nat) : e ≠ .indexOutOfBounds index size := by
  rintro rfl
  unfold outlet Instruction.destination at refused
  cases output : i.output with
  | none => simp [output] at refused
  | some r =>
    simp only [output, ok_bind] at refused
    split at refused <;> cases refused

theorem State.Indexes.reads (indexes : s.Indexes p f i l id index) (opcode : i.opcode = "arr-get")
    (inside : s.heap.Inside id index.toInt) :
    (Machine.standard depth).Reads p s f i (s.heap.element id index.toInt.toNat) := by
  obtain ⟨⟨below, r, executes, rfl⟩, array, number⟩ := indexes
  intro out outlet
  rw [executes.attempt_loadElement opcode array number]
  simp only [Heap.load, Heap.place_of_inside inside, Except.map, outlet]

theorem State.Indexes.load_error_iff (indexes : s.Indexes p f i l id index)
    (opcode : i.opcode = "arr-get") : ((Machine.standard depth).attempt p s).1 =
        .error ⟨.indexOutOfBounds index.toInt (s.heap.elements id).size, some l⟩ ↔
      ¬s.heap.Inside id index.toInt := by
  obtain ⟨⟨below, r, executes, rfl⟩, array, number⟩ := indexes
  rw [executes.attempt_loadElement opcode array number, Heap.load]
  by_cases inside : s.heap.Inside id index.toInt
  · simp only [Heap.place_of_inside inside, Except.map, inside, not_true_eq_false, iff_false]
    cases outlet : f.outlet i with
    | ok out => simp
    | error e => simp [Frame.outlet_ne_outOfBounds outlet]
  · simp only [Heap.place_of_outside inside, Except.map, inside, not_false_eq_true]

theorem State.Indexes.stores (indexes : s.Indexes p f i l id index) (opcode : i.opcode = "arr-set")
    (value : f.operand i 2 = .ok v) (inside : s.heap.Inside id index.toInt) :
    (Machine.standard depth).StoresElement p s id index.toInt.toNat v := by
  obtain ⟨⟨below, r, executes, rfl⟩, array, number⟩ := indexes
  refine ⟨f, below, r, i, index, executes, opcode, array, number, ?_, value, ?_⟩
  · exact (Int.toNat_of_nonneg inside.1).symm
  · rw [executes.attempt_storeElement opcode array number value, Heap.place_of_inside inside]

theorem State.Indexes.store_error_iff (indexes : s.Indexes p f i l id index)
    (opcode : i.opcode = "arr-set") (value : f.operand i 2 = .ok v) :
    ((Machine.standard depth).attempt p s).1 =
        .error ⟨.indexOutOfBounds index.toInt (s.heap.elements id).size, some l⟩ ↔
      ¬s.heap.Inside id index.toInt := by
  obtain ⟨⟨below, r, executes, rfl⟩, array, number⟩ := indexes
  rw [executes.attempt_storeElement opcode array number value]
  by_cases inside : s.heap.Inside id index.toInt
  · simp [Heap.place_of_inside inside, inside]
  · simp [Heap.place_of_outside inside, inside]

theorem State.Names.reads (names : s.Names p f i id name) (opcode : i.opcode = "obj-get")
    (listed : name ∈ (s.heap.object id).shape.fields) :
    (Machine.standard depth).Reads p s f i (s.heap.field id name) := by
  obtain ⟨⟨below, r, executes⟩, object, named⟩ := names
  obtain ⟨place, placed⟩ := Descriptor.exists_position_iff.mpr listed
  have placed : s.heap.fieldPlace id name = .ok place := placed
  intro out outlet
  rw [executes.attempt_loadField opcode object named, Heap.field_of_place placed]
  simp only [Heap.getField, placed, Except.map, outlet]

theorem State.Names.stores (names : s.Names p f i id name) (opcode : i.opcode = "obj-set")
    (value : f.operand i 1 = .ok v) (listed : name ∈ (s.heap.object id).shape.fields) :
    (Machine.standard depth).StoresField p s id name v := by
  obtain ⟨⟨below, r, executes⟩, object, named⟩ := names
  obtain ⟨place, placed⟩ := Descriptor.exists_position_iff.mpr listed
  have placed : s.heap.fieldPlace id name = .ok place := placed
  refine ⟨f, below, r, i, executes, opcode, object, named, value, ?_⟩
  rw [executes.attempt_storeField opcode object named value, placed]

theorem Executes.reads_length {below : List Frame} {r : Routine}
    (executes : Executes p s f below r i) (shaped : s.heap.Shaped)
    (opcode : i.opcode = "arr-length")
    (array : f.operandAs .array i 0 = .ok id) :
    ∃ n : Int32, n.toInt = (s.heap.elements id).size ∧
      (Machine.standard depth).Reads p s f i (.int n) := by
  have short := shaped.length id
  have fits : min ((s.heap.elements id).size : Int) Int32.maxValue.toInt =
      (s.heap.elements id).size := by omega
  refine ⟨Int32.ofInt (s.heap.elements id).size, ?_, fun out outlet => ?_⟩
  · rw [Int32.toInt_maxValue] at short
    exact Int32.toInt_ofInt_of_le (by omega) (by omega)
  · rw [executes.attempt_arrayLength opcode array, outlet]
    simp only [fits]

end Accesses

section Runs

variable {p : Program} {s : State} {sink : Sink} {depth : Nat}

theorem Machine.after_keeps (depth : Nat) (p : Program) (s : State) {j k : Nat} (le : j ≤ k) :
    ((standard depth).after p s j).heap.Keeps ((standard depth).after p s k).heap := by
  induction le with
  | refl => exact .refl _
  | step le ih => exact ih.trans (attempt_alters depth p _).keeps

theorem Machine.after_shaped (started : (standard depth).start p sink = .ok s) (k : Nat) :
    ((standard depth).after p s k).heap.Shaped := by
  induction k with
  | zero =>
    obtain ⟨-, -, -, -, -, heap⟩ := start_eq_ok started
    rw [after, heap]
    have least : (0 : Int) ≤ Int32.maxValue.toInt := by decide
    exact ⟨fun _ => least, fun _ => rfl⟩
  | succ k ih => exact (attempt_alters depth p _).shaped ih

theorem Machine.element_latest (started : (standard depth).start p sink = .ok s) (id : ArrayId)
    (place n : Nat) :
    Latest (fun k => (standard depth).StoresElement p ((standard depth).after p s k) id place) n
      (((standard depth).after p s n).heap.element id place) := by
  refine latest_of_steps (fun n => ((standard depth).after p s n).heap.element id place)
    ?_ ?_ ?_ n
  · obtain ⟨-, -, -, -, -, heap⟩ := start_eq_ok started
    rw [after, heap]
    rfl
  · intro k v stores
    obtain ⟨inside, heap⟩ := stores.heap
    rw [after, heap, Heap.element_setElement, if_pos ⟨rfl, rfl, inside⟩]
  · intro k untouched
    exact (attempt_alters depth p _).element_eq untouched

theorem Machine.field_latest (started : (standard depth).start p sink = .ok s) (id : ObjectId)
    (name : String) (n : Nat) :
    Latest (fun k => (standard depth).StoresField p ((standard depth).after p s k) id name) n
      (((standard depth).after p s n).heap.field id name) := by
  refine latest_of_steps (fun n => ((standard depth).after p s n).heap.field id name)
    ?_ ?_ ?_ n
  · obtain ⟨-, -, -, -, -, heap⟩ := start_eq_ok started
    rw [after, heap]
    rfl
  · intro k v stores
    obtain ⟨place, placed, heap⟩ := stores.heap
    rw [after, heap, (after_shaped started k).field_setCell placed, if_pos ⟨rfl, rfl⟩]
  · intro k untouched
    exact (attempt_alters depth p _).field_eq (after_shaped started k) untouched

/-- Arrays and objects are shared by all who hold them. Lengths and shapes stay, every access is in
range, and a read gives what was stored last in that element or that field, through whichever
reference. -/
theorem Machine.shared_memory (started : (standard depth).start p sink = .ok s) :
    let m := standard depth
    let run := m.after p s
    let stores (id : ArrayId) (place : Nat) (k : Nat) := m.StoresElement p (run k) id place
    let assigns (id : ObjectId) (name : String) (k : Nat) := m.StoresField p (run k) id name
    (∀ j k, j ≤ k → (run j).heap.Keeps (run k).heap) ∧
    (∀ k, (run k).heap.Shaped ∧
      (∀ id index place, (run k).heap.place id index = .ok place →
        place < ((run k).heap.elements id).size) ∧
      ∀ id name place, (run k).heap.fieldPlace id name = .ok place →
        place < ((run k).heap.object id).cells.size) ∧
    (∀ k f below r i id, Executes p (run k) f below r i → i.opcode = "arr-length" →
      f.operandAs .array i 0 = .ok id → ∃ n : Int32,
        n.toInt = ((run k).heap.elements id).size ∧ m.Reads p (run k) f i (.int n)) ∧
    (∀ k f i l id index, (run k).Indexes p f i l id index →
      let inside := (run k).heap.Inside id index.toInt
      let refused := (m.attempt p (run k)).1 =
        .error ⟨.indexOutOfBounds index.toInt ((run k).heap.elements id).size, some l⟩
      (i.opcode = "arr-get" → (refused ↔ ¬inside) ∧
        (inside → ∃ v, Latest (stores id index.toInt.toNat) k v ∧ m.Reads p (run k) f i v)) ∧
      (i.opcode = "arr-set" → ∀ v, f.operand i 2 = .ok v → (refused ↔ ¬inside) ∧
        (inside → stores id index.toInt.toNat k v))) ∧
    (∀ k f i id name, (run k).Names p f i id name →
      name ∈ ((run k).heap.object id).shape.fields →
      (i.opcode = "obj-get" →
        ∃ v, Latest (assigns id name) k v ∧ m.Reads p (run k) f i v) ∧
      (i.opcode = "obj-set" → ∀ v, f.operand i 1 = .ok v → assigns id name k v)) ∧
    (∀ k id place v, stores id place k v →
      (run (k + 1)).heap.objects = (run k).heap.objects ∧
      ∀ other j, (run (k + 1)).heap.element other j =
        if other = id ∧ j = place then v else (run k).heap.element other j) ∧
    (∀ k id name v, assigns id name k v →
      (run (k + 1)).heap.arrays = (run k).heap.arrays ∧
      ∀ other name', (run (k + 1)).heap.field other name' =
        if other = id ∧ name' = name then v else (run k).heap.field other name') := by
  intro m run stores assigns
  have shaped (k : Nat) : (run k).heap.Shaped := after_shaped started k
  refine ⟨fun j k le => after_keeps depth p s le, fun k => ⟨shaped k, ?_, ?_⟩, ?_, ?_, ?_, ?_, ?_⟩
  · exact fun id index place placed => Heap.place_lt placed
  · exact fun id name place placed => (shaped k).fieldPlace_lt placed
  · exact fun k f below r i id executes opcode array =>
      executes.reads_length (shaped k) opcode array
  · intro k f i l id index indexes
    refine ⟨fun opcode => ⟨indexes.load_error_iff opcode, fun inside => ?_⟩,
      fun opcode v value => ⟨indexes.store_error_iff opcode value,
        indexes.stores opcode value⟩⟩
    exact ⟨_, element_latest started id _ k, indexes.reads opcode inside⟩
  · intro k f i id name names listed
    exact ⟨fun opcode => ⟨_, field_latest started id name k, names.reads opcode listed⟩,
      fun opcode v value => names.stores opcode value listed⟩
  · intro k id place v stored
    obtain ⟨inside, heap⟩ := stored.heap
    have next : (run (k + 1)).heap = (run k).heap.setElement id place v := heap
    refine ⟨by rw [next]; rfl, fun other j => ?_⟩
    rw [next, Heap.element_setElement]
    simp only [inside, and_true]
  · intro k id name v assigned
    obtain ⟨place, placed, heap⟩ := assigned.heap
    have next : (run (k + 1)).heap = (run k).heap.setCell id place v := heap
    refine ⟨by rw [next]; rfl, fun other name' => ?_⟩
    rw [next, (shaped k).field_setCell placed]

end Runs

/-- An array and an object that hold each other; the object's only field is listed twice. What was
stored in the array is read through the reference in the object. -/
def Program.entwined : Program where
  routines := [{
    name := "main"
    body := [
      { opcode := "int-val", output := some 0, payload := .int 1 },
      { opcode := "arr-create", inputs := [0], output := some 1 },
      { opcode := "int-val", output := some 0, payload := .int 0 },
      { opcode := "obj-create", output := some 2, payload := .descriptor ⟨"Pair", ["a", "a"]⟩ },
      { opcode := "obj-set", inputs := [2, 1], payload := .name "a" },
      { opcode := "arr-set", inputs := [1, 0, 2] },
      { opcode := "obj-get", inputs := [2], output := some 3, payload := .name "a" },
      { opcode := "arr-get", inputs := [3, 0], output := some 4 },
      { opcode := "fn-return" }] }]

def State.entwined : State where
  calls := {
    items := [{
      routine := 0
      name := "main"
      registers := #[.unset, .unset, .unset, .unset, .unset] }]
    room := 0 }

def Frame.entwined : Frame where
  routine := 0
  name := "main"
  registers := #[.int 0, .array 0, .object 0, .array 0, .unset]
  pointer := 7

theorem Machine.entwined_memory :
    let run := (standard 1).after .entwined .entwined
    let i : Instruction := { opcode := "arr-get", inputs := [3, 0], output := some 4 }
    (standard 1).start .entwined {} = .ok .entwined ∧
      (run 5).heap.Keeps (run 8).heap ∧
      (run 7).Indexes .entwined Frame.entwined i ⟨"main", 7, "arr-get"⟩ 0 0 ∧
      (run 7).heap.Inside 0 0 ∧
      (∃ v, Latest (fun k => (standard 1).StoresElement .entwined (run k) 0 0) 7 v ∧
        (standard 1).Reads .entwined (run 7) Frame.entwined i v) ∧
      (run 8).calls.items.map (·.registers[4]?) = [some (.object 0)] := by
  intro run i
  have started : (standard 1).start .entwined {} = .ok .entwined := rfl
  have indexes : (run 7).Indexes .entwined Frame.entwined i ⟨"main", 7, "arr-get"⟩ 0 0 :=
    ⟨⟨[], Program.entwined.routines[0], ⟨by decide +kernel, rfl, rfl⟩, rfl⟩, rfl, rfl⟩
  have inside : (run 7).heap.Inside 0 0 := by
    unfold Heap.Inside
    decide +kernel
  obtain ⟨keeps, -, -, elements, -⟩ := shared_memory started
  exact ⟨started, keeps 5 8 (by decide), indexes, inside,
    ((elements 7 _ _ _ 0 0 indexes).1 rfl).2 inside, by decide +kernel⟩

end RegisterMachine
