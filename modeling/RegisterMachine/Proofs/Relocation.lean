import RegisterMachine.Proofs.Generators

/-!
One program within another, its functions in other places. A frame is carried over by changing the
position that it refers to, and so are states and deeds. What an instruction decides for a frame it
decides for the image of the frame, and the decision is the image of the decision, unless it looks
for a name that only the larger program has.
-/

namespace RegisterMachine

def Program.Has (p : Program) (name : String) : Prop := ∃ id, p.find name = .ok id

/-- All functions of `p` are in `q`, wherever they are there. -/
def Program.Within (p q : Program) : Prop := ∀ r ∈ p.routines, q.Contains r

/-- The position in `q` of the function that `p` has at a position. -/
def Program.relocation (p q : Program) (id : RoutineId) : RoutineId :=
  match p.routine id >>= fun r => q.find r.name with
  | .ok there => there
  | .error _ => id

section Relocate

variable (g : RoutineId → RoutineId)

def Frame.relocate (f : Frame) : Frame := { f with routine := g f.routine }

def Coroutine.relocate (c : Coroutine) : Coroutine :=
  { c with parked := c.parked.map (·.relocate g) }

def Heap.relocate (h : Heap) : Heap := { h with coroutines := h.coroutines.map (·.relocate g) }

def Stack.relocate (s : Stack Frame) : Stack Frame :=
  { s with items := s.items.map (·.relocate g) }

def State.relocate (s : State) : State :=
  { s with calls := s.calls.relocate g, heap := s.heap.relocate g }

def Change.relocate : Change → Change
  | .coroutine r name parked => .coroutine r name (parked.relocate g)
  | c => c

def Deed.relocate : Deed → Deed
  | .change c => .change (c.relocate g)
  | .enter callee => .enter (callee.relocate g)
  | .resume id parked => .resume id (parked.relocate g)
  | d => d

end Relocate

section States

variable (g : RoutineId → RoutineId) {s : Stack Frame} {h : Heap} {f : Frame}

theorem Stack.replaceTop_relocate (s : Stack Frame) (f : Frame) :
    (s.relocate g).replaceTop (f.relocate g) = (s.replaceTop f).relocate g := by
  obtain ⟨items, room⟩ := s
  cases items <;> rfl

theorem Stack.pop_relocate (s : Stack Frame) : (s.relocate g).pop = s.pop.relocate g := by
  obtain ⟨items, room⟩ := s
  cases items <;> rfl

theorem Stack.push_relocate (s : Stack Frame) (f : Frame) :
    (s.relocate g).push (f.relocate g) = (s.push f).map (·.relocate g) := by
  obtain ⟨items, room⟩ := s
  cases room with
  | zero => simp [relocate, push, limit, depth, Except.map]
  | succ room => rfl

theorem Heap.coroutine_relocate (h : Heap) (id : CoroutineId) :
    (h.relocate g).coroutine id = (h.coroutine id).relocate g := by
  unfold coroutine relocate
  rw [Array.getElem?_map]
  cases h.coroutines[id]? <;> rfl

theorem Heap.nextCoroutine_relocate (h : Heap) :
    (h.relocate g).nextCoroutine = h.nextCoroutine := by
  simp [nextCoroutine, relocate]

theorem Heap.addCoroutine_relocate (h : Heap) (name : String) (parked : Frame) :
    (h.relocate g).addCoroutine name (parked.relocate g) =
      (h.addCoroutine name parked).relocate g := by
  simp [addCoroutine, relocate, Coroutine.relocate]

theorem Heap.park_relocate (h : Heap) (id : CoroutineId) (parked : Option Frame) :
    (h.relocate g).park id (parked.map (·.relocate g)) = (h.park id parked).relocate g := by
  have same : (h.relocate g).coroutines.modify id
        (fun c => { c with parked := parked.map (·.relocate g) }) =
      (h.coroutines.modify id fun c => { c with parked }).map (·.relocate g) := by
    refine Array.ext_getElem? fun k => ?_
    simp only [relocate, Array.getElem?_map, Array.getElem?_modify]
    split
    · cases h.coroutines[k]? <;> rfl
    · rfl
  simp only [park, same]
  rfl

theorem Heap.rest_relocate (h : Heap) (f : Frame) :
    (h.relocate g).rest (f.relocate g) = (h.rest f).relocate g := by
  unfold rest
  rw [Frame.relocate]
  cases f.home with
  | none => rfl
  | some id => exact h.park_relocate g id (some { f with home := none })

theorem Heap.renderWithin_relocate (h : Heap) (fuel : Nat) (path : List Container) (v : Value) :
    (h.relocate g).renderWithin fuel path v = h.renderWithin fuel path v := by
  have name (id : CoroutineId) : ((h.relocate g).coroutine id).name = (h.coroutine id).name := by
    rw [h.coroutine_relocate]
    rfl
  induction fuel generalizing path v with
  | zero =>
    cases v with
    | coroutine id => simp only [renderWithin, name]
    | _ => rfl
  | succ fuel ih =>
    have inner (path : List Container) :
        (h.relocate g).renderWithin fuel path = h.renderWithin fuel path := funext (ih path)
    cases v with
    | coroutine id => simp only [renderWithin, name]
    | array id => simp only [renderWithin, inner]; rfl
    | object id => simp only [renderWithin, inner]; rfl
    | _ => rfl

theorem Change.frame_relocate (h : Heap) (f : Frame) (c : Change) :
    (c.relocate g).frame (h.relocate g) (f.relocate g) = (c.frame h f).relocate g := by
  cases c with
  | coroutine r name parked => simp only [relocate, frame, h.nextCoroutine_relocate g]; rfl
  | _ => rfl

theorem Change.heap_relocate (h : Heap) (c : Change) :
    (c.relocate g).heap (h.relocate g) = (c.heap h).relocate g := by
  cases c with
  | coroutine r name parked => exact h.addCoroutine_relocate g name parked
  | _ => rfl

end States

section Programs

variable {p q : Program} {id : RoutineId} {r : Routine} {name : String} {f : Frame}

theorem Program.has_iff : p.Has name ↔ ∃ r ∈ p.routines, r.name = name := by
  constructor
  · rintro ⟨id, found⟩
    obtain ⟨r, present, named⟩ := find_eq_ok found
    exact ⟨r, List.mem_of_getElem? (routine_eq_ok_iff.mp present), named⟩
  · rintro ⟨r, member, named⟩
    cases found : p.find name with
    | ok id => exact ⟨id, found⟩
    | error e => exact absurd named ((find_eq_error_iff.mp found).2 r member)

theorem Program.find_eq_error (absent : ¬p.Has name) :
    p.find name = .error (.unknownRoutine name) :=
  find_eq_error_iff.mpr ⟨rfl, fun r member named => absent (has_iff.mpr ⟨r, member, named⟩)⟩

theorem Program.find_eq_ok_iff (distinct : (p.routines.map Routine.name).Nodup) :
    p.find name = .ok id ↔ ∃ r, p.routine id = .ok r ∧ r.name = name := by
  refine ⟨find_eq_ok, ?_⟩
  rintro ⟨r, present, named⟩
  have here := routine_eq_ok_iff.mp present
  obtain ⟨place, found⟩ := has_iff.mpr ⟨r, List.mem_of_getElem? here, named⟩
  obtain ⟨r', also, same⟩ := find_eq_ok found
  have there := routine_eq_ok_iff.mp also
  have inside : place < (p.routines.map Routine.name).length := by
    rw [List.length_map]
    exact (List.getElem?_eq_some_iff.mp there).1
  obtain rfl : place = id :=
    (List.getElem?_inj inside distinct).mp (by simp [here, there, named, same])
  exact found

theorem Program.get_of_mem (distinct : (p.routines.map Routine.name).Nodup)
    (member : r ∈ p.routines) : p.get r.name = .ok r := by
  obtain ⟨id, here⟩ := List.mem_iff_getElem?.mp member
  have present := routine_eq_ok_iff.mpr here
  rw [get, (find_eq_ok_iff distinct).mpr ⟨r, present, rfl⟩, ok_bind, present]

theorem Program.Prepared.within (prepared : p.Prepared) (prepared' : q.Prepared)
    (distinct : (q.routines.map Routine.name).Nodup)
    (includes : ∀ r ∈ p.routines, ∃ r' ∈ q.routines, r'.name = r.name ∧ r'.body = r.body) :
    p.Within q := by
  intro r member
  obtain ⟨r', member', name, body⟩ := includes r member
  obtain ⟨id, found⟩ := List.mem_iff_getElem?.mp member
  have labelled := prepared.labelled (routine_eq_ok_iff.mpr found)
  exact prepared'.contains labelled (name ▸ get_of_mem distinct member') body

theorem Program.Within.routine (within : p.Within q) (found : p.routine id = .ok r) :
    q.find r.name = .ok (p.relocation q id) ∧
      ∃ r', q.routine (p.relocation q id) = .ok r' ∧ r'.Matches r := by
  obtain ⟨r', got, same⟩ := within r (List.mem_of_getElem? (routine_eq_ok_iff.mp found))
  obtain ⟨there, named, present⟩ := bind_eq_ok_iff.mp got
  have place : p.relocation q id = there := by simp only [relocation, found, ok_bind, named]
  exact ⟨place ▸ named, r', place ▸ present, same⟩

theorem Program.Within.find (within : p.Within q) (found : p.find name = .ok id) :
    q.find name = .ok (p.relocation q id) := by
  obtain ⟨r, present, rfl⟩ := find_eq_ok found
  exact (within.routine present).1

theorem Program.Within.enter (within : p.Within q) (found : p.routine id = .ok r)
    (args : List Value) : Frame.enter q (p.relocation q id) args =
      (Frame.enter p id args).map (·.relocate (p.relocation q)) := by
  obtain ⟨-, r', present, same⟩ := within.routine found
  have count : r'.registerCount = r.registerCount := by
    rw [Routine.registerCount, Routine.registerCount, same.body]
  simp only [Frame.enter, found, present, ok_bind, count, same.name]
  split <;> rfl

theorem Program.Within.callSite? (within : p.Within q) (found : p.routine f.routine = .ok r) :
    (f.relocate (p.relocation q)).callSite? q = f.callSite? p := by
  obtain ⟨-, r', present, same⟩ := within.routine found
  have here := routine_eq_ok_iff.mp found
  have there := routine_eq_ok_iff.mp present
  simp only [Frame.callSite?, Frame.relocate, fetch?, here, there, Option.bind_some, same.body]

theorem Program.Within.receive (within : p.Within q) (found : p.routine f.routine = .ok r)
    (opcode : String) (v : Value) : (f.relocate (p.relocation q)).receive q opcode v =
      (f.receive p opcode v).map (·.relocate (p.relocation q)) := by
  simp only [Frame.receive, within.callSite? found]
  cases f.callSite? p with
  | none => rfl
  | some site =>
    have size : (f.relocate (p.relocation q)).registers.size = f.registers.size := rfl
    cases output : site.output with
    | none => simp only [output]; rfl
    | some r =>
      simp only [output, size]
      by_cases inside : r < f.registers.size <;> simp only [inside, if_true, if_false] <;> rfl

end Programs

section Plans

variable {α β : Type} {p q : Program} {i : Instruction} {f : Frame} {h : Heap} {handler : Handler}

/-- Two decisions that are one but for the positions, or the first is refused for want of a function
that `q` has. -/
inductive Relocated (p q : Program) : Except Fault Deed → Except Fault Deed → Prop where
  | refuses (e : Fault) : Relocated p q (.error e) (.error e)
  | does (d : Deed) : Relocated p q (.ok d) (.ok (d.relocate (p.relocation q)))
  | lacks {name x} (absent : ¬p.Has name) (present : q.Has name) :
      Relocated p q (.error (.unknownRoutine name)) x

theorem Relocated.bind {x : Except Fault α} {k k' : α → Except Fault Deed}
    (then_ : ∀ a, x = .ok a → Relocated p q (k a) (k' a)) :
    Relocated p q (x >>= k) (x >>= k') := by
  cases x with
  | error e => exact .refuses e
  | ok a => exact then_ a rfl

theorem Relocated.find {k k' : RoutineId → Except Fault Deed} (within : p.Within q) (name : String)
    (then_ : ∀ id, p.find name = .ok id → Relocated p q (k id) (k' (p.relocation q id))) :
    Relocated p q (p.find name >>= k) (q.find name >>= k') := by
  cases found : p.find name with
  | ok id =>
    rw [within.find found]
    exact then_ id found
  | error e =>
    have absent : ¬p.Has name := fun ⟨id, also⟩ => nomatch found.symm.trans also
    rw [← found, Program.find_eq_error absent]
    by_cases present : q.Has name
    · exact .lacks absent present
    · rw [Program.find_eq_error present]
      exact .refuses _

/-- The handler decides the same for a frame of the one program and for its image in the other. -/
def Portable (handler : Handler) : Prop :=
  ∃ plan, Follows handler plan ∧ ∀ p q i f h, p.Within q → (∃ r, p.routine f.routine = .ok r) →
    Relocated p q (plan p i f h)
      (plan q i (f.relocate (p.relocation q)) (h.relocate (p.relocation q)))

theorem computing_portable {value : Instruction → Frame → Heap → Except Fault Value}
    (follows : Follows handler (.computing value))
    (same : ∀ i f h g, value i (f.relocate g) (h.relocate g) = value i f h) : Portable handler := by
  refine ⟨_, follows, fun p q i f h _ _ => ?_⟩
  simp only [Plan.computing, same]
  exact .bind fun v _ => .bind fun r _ => .does _

theorem unary_portable (source : Representation α) (target : Representation β) (k : α → β) :
    Portable (Opcodes.unary source target k) :=
  computing_portable (follows_unary source target k) fun _ _ _ _ => rfl

theorem binary_portable (source : Representation α) (target : Representation β) (k : α → α → β) :
    Portable (Opcodes.binary source target k) :=
  computing_portable (follows_binary source target k) fun _ _ _ _ => rfl

theorem division_portable (rep : Representation α) (k : α → α → Option α) :
    Portable (Opcodes.division rep k) :=
  computing_portable (follows_division rep k) fun _ _ _ _ => rfl

theorem constant_portable : Portable Opcodes.constant :=
  computing_portable follows_constant fun _ _ _ _ => rfl

theorem callee_portable (within : p.Within q) (name : String) (args : List Value) :
    Relocated p q (Plan.callee p name args) (Plan.callee q name args) := by
  refine .find within name fun id found => ?_
  obtain ⟨r, present, -⟩ := find_eq_ok found
  rw [within.enter present]
  cases Frame.enter p id args with
  | error e => exact .refuses e
  | ok callee => exact .does _

theorem callFunction_portable : Portable Opcodes.callFunction :=
  ⟨_, follows_callFunction, fun _ _ _ _ _ within _ =>
    .bind fun _ _ => .bind fun _ _ => callee_portable within _ _⟩

theorem callMethod_portable : Portable Opcodes.callMethod :=
  ⟨_, follows_callMethod, fun _ _ _ _ _ within _ =>
    .bind fun _ _ => .bind fun _ _ => .bind fun _ _ => callee_portable within _ _⟩

theorem createObject_portable : Portable Opcodes.createObject :=
  ⟨_, follows_createObject, fun _ _ _ _ _ _ _ => .bind fun _ _ => .bind fun _ _ => .does _⟩

theorem createArray_portable : Portable Opcodes.createArray := by
  refine ⟨_, follows_createArray, fun p q i f h _ _ => .bind fun length _ => ?_⟩
  split
  · exact .refuses _
  · exact .bind fun _ _ => .does _

theorem storeElement_portable : Portable Opcodes.storeElement :=
  ⟨_, follows_storeElement, fun _ _ _ _ _ _ _ =>
    .bind fun _ _ => .bind fun _ _ => .bind fun _ _ => .bind fun _ _ => .does _⟩

theorem storeField_portable : Portable Opcodes.storeField :=
  ⟨_, follows_storeField, fun _ _ _ _ _ _ _ =>
    .bind fun _ _ => .bind fun _ _ => .bind fun _ _ => .bind fun _ _ => .does _⟩

theorem createCoroutine_portable : Portable Opcodes.createCoroutine := by
  refine ⟨_, follows_createCoroutine, fun p q i f h within _ => ?_⟩
  refine .bind fun name _ => .find within name fun id found => ?_
  obtain ⟨r, present, -⟩ := find_eq_ok found
  rw [within.enter present]
  cases Frame.enter p id [] with
  | error e => exact .refuses e
  | ok parked => exact .bind fun _ _ => .does _

theorem jump_relocated (within : p.Within q) (found : ∃ r, p.routine f.routine = .ok r) (h : Heap) :
    Relocated p q (Plan.jump p i f h)
      (Plan.jump q i (f.relocate (p.relocation q)) (h.relocate (p.relocation q))) := by
  obtain ⟨r, here⟩ := found
  obtain ⟨-, r', there, same⟩ := within.routine here
  have there : q.routine (f.relocate (p.relocation q)).routine = .ok r' := there
  simp only [Plan.jump, here, there, ok_bind, same.target]
  exact .bind fun _ _ => .bind fun _ _ => .does _

theorem jump_portable : Portable Opcodes.jump :=
  ⟨_, follows_jump, fun _ _ _ _ h within found => jump_relocated within found h⟩

theorem jumpIf_portable : Portable Opcodes.jumpIf := by
  refine ⟨_, follows_jumpIf, fun p q i f h within found => .bind fun taken _ => ?_⟩
  cases taken with
  | false => exact .does _
  | true => exact jump_relocated within found h

theorem resume_portable : Portable Opcodes.resume := by
  refine ⟨_, follows_resume, fun p q i f h within _ => .bind fun id _ => ?_⟩
  simp only [h.coroutine_relocate]
  cases rested : (h.coroutine id).parked with
  | none => simp only [Coroutine.relocate, rested]; exact .refuses _
  | some parked => simp only [Coroutine.relocate, rested]; exact .does _

theorem label_portable : Portable Opcodes.label :=
  ⟨_, follows_label, fun _ _ _ _ _ _ _ => .does _⟩

theorem leave_portable : Portable Opcodes.leave :=
  ⟨_, follows_leave, fun _ _ _ _ _ _ _ => .does _⟩

theorem leaveWith_portable : Portable Opcodes.leaveWith :=
  ⟨_, follows_leaveWith, fun _ _ _ _ _ _ _ => .bind fun _ _ => .does _⟩

theorem yield_portable : Portable Opcodes.yield :=
  ⟨_, follows_yield, fun _ _ _ _ _ _ _ => .bind fun _ _ => .does _⟩

theorem crash_portable : Portable Opcodes.crash :=
  ⟨_, follows_crash, fun _ _ _ _ _ _ _ => .refuses _⟩

theorem printLine_portable : Portable Opcodes.printLine :=
  ⟨_, follows_printLine, fun _ _ _ _ _ _ _ => .bind fun _ _ => .does _⟩

end Plans

section Table

variable {α : Type}

theorem calculator_portable (c : Opcodes.Calculator α) : ∀ e ∈ c.handlers, Portable e.2 := by
  simp only [Opcodes.Calculator.handlers, Opcodes.comparison, List.forall_mem_cons]
  exact ⟨binary_portable _ _ _, binary_portable _ _ _, binary_portable _ _ _,
    division_portable _ _, division_portable _ _, binary_portable _ _ _, binary_portable _ _ _,
    binary_portable _ _ _, constant_portable, by simp⟩

theorem logic_portable : ∀ e ∈ Opcodes.logic, Portable e.2 := by
  simp only [Opcodes.logic, List.forall_mem_cons]
  exact ⟨binary_portable _ _ _, binary_portable _ _ _, binary_portable _ _ _,
    unary_portable _ _ _, constant_portable, by simp⟩

theorem casts_portable {x : Extension} (cast : x ∈ [Extension.castInt, .castLong, .castDouble]) :
    ∀ e ∈ x.handlers, Portable e.2 := by
  simp only [List.mem_cons, List.not_mem_nil, or_false] at cast
  obtain rfl | rfl | rfl := cast <;>
    simp only [Extension.castInt, Extension.castLong, Extension.castDouble, Opcodes.fromInt,
      Opcodes.fromLong, Opcodes.fromDouble, List.forall_mem_cons] <;>
    exact ⟨unary_portable _ _ _, unary_portable _ _ _, by simp⟩

theorem functions_portable : ∀ e ∈ Extension.functions.handlers, Portable e.2 := by
  simp only [Extension.functions, List.forall_mem_cons]
  exact ⟨callFunction_portable, leave_portable, leaveWith_portable, leave_portable,
    leaveWith_portable, by simp⟩

theorem jumps_portable : ∀ e ∈ Extension.jumps.handlers, Portable e.2 := by
  simp only [Extension.jumps, List.forall_mem_cons]
  exact ⟨jump_portable, jumpIf_portable, label_portable, by simp⟩

theorem objects_portable : ∀ e ∈ Extension.objects.handlers, Portable e.2 := by
  simp only [Extension.objects, List.forall_mem_cons]
  exact ⟨createObject_portable, computing_portable follows_loadField fun _ _ _ _ => rfl,
    storeField_portable, callMethod_portable, by simp⟩

theorem arrays_portable : ∀ e ∈ Extension.arrays.handlers, Portable e.2 := by
  simp only [Extension.arrays, List.forall_mem_cons]
  exact ⟨createArray_portable, computing_portable follows_loadElement fun _ _ _ _ => rfl,
    storeElement_portable, computing_portable follows_arrayLength fun _ _ _ _ => rfl, by simp⟩

theorem coroutines_portable : ∀ e ∈ Extension.coroutines.handlers, Portable e.2 := by
  simp only [Extension.coroutines, List.forall_mem_cons]
  exact ⟨createCoroutine_portable, resume_portable, yield_portable, crash_portable, by simp⟩

theorem copying_portable : ∀ e ∈ Extension.copying.handlers, Portable e.2 :=
  List.forall_mem_singleton.mpr (computing_portable follows_copy fun _ _ _ _ => rfl)

theorem printing_portable : ∀ e ∈ Extension.printing.handlers, Portable e.2 :=
  List.forall_mem_singleton.mpr printLine_portable

theorem standard_portable : ∀ x ∈ Extension.standard, ∀ e ∈ x.handlers, Portable e.2 := by
  simp only [Extension.standard, List.forall_mem_cons]
  exact ⟨calculator_portable _, calculator_portable _, calculator_portable _, logic_portable,
    casts_portable (by simp), casts_portable (by simp), casts_portable (by simp),
    functions_portable, jumps_portable, objects_portable, arrays_portable, coroutines_portable,
    copying_portable, printing_portable, by simp⟩

theorem handler?_portable {depth : Nat} {opcode : String} {handler : Handler}
    (found : (Machine.standard depth).handler? opcode = some handler) : Portable handler :=
  handler?_mem standard_portable found

end Table

end RegisterMachine
