import RegisterMachine.Opcodes.Probe
import RegisterMachine.Proofs.Dispatch
import RegisterMachine.Proofs.WellFormed
import Mathlib.Logic.Relation

/-!
What preparing does, whatever the hooks are. Each hook is consulted once about each thing it looks
at, in one order that the extensions fix, up to the first consultation that fails; what was noted
before it stays noted. Only notes change, and a note once written stays as it is. Hooks that do not
look at notes find the same thing again when they are asked again, and then their key is taken.
-/

namespace RegisterMachine

/-- A hook is asked about the program, or about one of its functions. -/
inductive Consultation where
  | overall (hook : ProgramHook)
  | each (hook : RoutineHook) (id : RoutineId)

namespace Consultation

def finding (p : Program) : Consultation → Finding
  | overall hook => hook p
  | each hook id => (p.routines[id]?.map hook).getD {}

def notes (p : Program) : Consultation → Notes
  | overall _ => p.notes
  | each _ id => (p.routines[id]?.map Routine.notes).getD {}

def put (p : Program) (notes : Notes) : Consultation → Program
  | overall _ => { p with notes }
  | each _ id => { p with routines := p.routines.modify id fun r => { r with notes } }

/-- The hook has nothing to note, or its note is added under a key that is free. -/
inductive Adds (c : Consultation) (p : Program) : Program → Prop where
  | nothing (silent : (c.finding p).outcome = .ok none) : c.Adds p p
  | note {key : String} {note : Note} (found : (c.finding p).outcome = .ok (some (key, note)))
      (free : (c.notes p).get? key = none) :
      c.Adds p (c.put p ⟨(c.notes p).entries ++ [(key, note)]⟩)

inductive Fails (c : Consultation) (p : Program) : Fault → Prop where
  | hook {e : Fault} (failed : (c.finding p).outcome = .error e) : c.Fails p e
  | taken {key : String} {note : Note} (found : (c.finding p).outcome = .ok (some (key, note)))
      (taken : (c.notes p).get? key ≠ none) : c.Fails p (.duplicateNote key)

def run : Consultation → Preparing Unit
  | overall hook => Preparation.consult hook
  | each hook id => Preparation.consultAt hook id

def heard (c : Consultation) (s : Preparation) : Preparation :=
  { s with remarks := s.remarks ++ (c.finding s.program).remarks }

end Consultation

inductive Preparation.Carried : List Consultation → Preparation → Preparation → Prop where
  | nil {s} : Carried [] s s
  | cons {c rest s p t} (adds : c.Adds s.program p)
      (others : Carried rest { c.heard s with program := p } t) : Carried (c :: rest) s t

/-- The hooks on programs first, then each hook on functions over all functions in turn. -/
def Consultation.order (programHooks : List ProgramHook) (routineHooks : List RoutineHook)
    (count : Nat) : List Consultation :=
  programHooks.map overall ++ routineHooks.flatMap fun hook => (List.range count).map (each hook)

namespace Notes

variable {n m : Notes} {key : String} {note : Note}

theorem add_eq_ok_iff :
    n.add key note = .ok m ↔ n.get? key = none ∧ m = ⟨n.entries ++ [(key, note)]⟩ := by
  unfold add contains
  cases n.get? key <;> simp [eq_comm]

theorem add_eq_error_iff {e : Fault} :
    n.add key note = .error e ↔ n.get? key ≠ none ∧ e = .duplicateNote key := by
  unfold add contains
  cases n.get? key <;> simp [eq_comm]

end Notes

namespace Consultation

variable {c : Consultation} {cs rest : List Consultation} {s t : Preparation} {p q : Program}
  {e : Fault}

theorem finding_each {hook : RoutineHook} {id : RoutineId} {r : Routine}
    (found : p.routines[id]? = some r) : (each hook id).finding p = hook r := by
  simp [finding, found]

theorem notes_each {hook : RoutineHook} {id : RoutineId} {r : Routine}
    (found : p.routines[id]? = some r) : (each hook id).notes p = r.notes := by
  simp [notes, found]

theorem put_notes (c : Consultation) (p : Program) : c.put p (c.notes p) = p := by
  cases c with
  | overall hook => rfl
  | each hook id =>
    have same : p.routines.modify id (fun r => { r with notes := (each hook id).notes p }) =
        p.routines := by
      refine List.ext_getElem? fun k => ?_
      rw [List.getElem?_modify]
      split
      · next here =>
        subst here
        cases found : p.routines[id]? with
        | none => rfl
        | some r => simp [notes_each found]
      · simp
    simp only [put, same]

theorem run_eq (c : Consultation) (s : Preparation) :
    c.run s = match Preparation.attach (c.notes s.program) (c.finding s.program) with
      | .error e => .error e (c.heard s)
      | .ok notes => .ok () { c.heard s with program := c.put s.program notes } := by
  cases c with
  | overall hook =>
    simp only [run, Preparation.consult, Preparation.bind_run, Preparation.get_run,
      Preparation.remark_run, Preparation.settle_run]
    rfl
  | each hook id =>
    simp only [run, Preparation.consultAt_run, heard]
    cases found : s.program.routines[id]? with
    | none =>
      have absent := List.modify_eq_self (f := fun r : Routine => { r with notes := {} })
        (List.getElem?_eq_none_iff.mp found)
      simp [finding, notes, put, found, Preparation.attach, absent]
    | some r =>
      rw [finding_each found, notes_each found]
      exact Preparation.settle_run ..

theorem adds_iff : c.Adds p q ↔
    ∃ notes, Preparation.attach (c.notes p) (c.finding p) = .ok notes ∧ q = c.put p notes := by
  unfold Preparation.attach
  constructor
  · intro adds
    cases adds with
    | nothing silent => exact ⟨c.notes p, by rw [silent], (put_notes c p).symm⟩
    | note found free =>
      rw [found]
      exact ⟨_, Notes.add_eq_ok_iff.mpr ⟨free, rfl⟩, rfl⟩
  · rintro ⟨notes, attached, rfl⟩
    split at attached
    · cases attached
    · next silent =>
      cases attached
      rw [put_notes]
      exact .nothing silent
    · next key note found =>
      obtain ⟨free, rfl⟩ := Notes.add_eq_ok_iff.mp attached
      exact .note found free

theorem fails_iff : c.Fails p e ↔
    Preparation.attach (c.notes p) (c.finding p) = .error e := by
  unfold Preparation.attach
  constructor
  · intro fails
    cases fails with
    | hook failed => rw [failed]
    | taken found taken =>
      rw [found]
      exact Notes.add_eq_error_iff.mpr ⟨taken, rfl⟩
  · intro attached
    split at attached
    · next failed =>
      cases attached
      exact .hook failed
    · cases attached
    · next key note found =>
      obtain ⟨taken, rfl⟩ := Notes.add_eq_error_iff.mp attached
      exact .taken found taken

theorem run_eq_ok_iff : c.run s = .ok () t ↔
    ∃ p, c.Adds s.program p ∧ t = { c.heard s with program := p } := by
  simp only [run_eq, adds_iff]
  cases Preparation.attach (c.notes s.program) (c.finding s.program) <;> simp [eq_comm]

theorem run_eq_error_iff : c.run s = .error e t ↔ c.Fails s.program e ∧ t = c.heard s := by
  simp only [run_eq, fails_iff]
  cases Preparation.attach (c.notes s.program) (c.finding s.program) <;> simp [eq_comm]

theorem forM_run_eq_ok_iff : cs.forM run s = .ok () t ↔ Preparation.Carried cs s t := by
  induction cs generalizing s with
  | nil =>
    constructor
    · intro ran
      cases ran
      exact .nil
    · intro carried
      cases carried
      rfl
  | cons c rest ih =>
    simp only [List.forM_eq_forM, List.forM_cons, Preparation.bind_run] at ih ⊢
    constructor
    · intro ran
      cases asked : c.run s with
      | error e u => simp [asked] at ran
      | ok _ u =>
        obtain ⟨p, adds, rfl⟩ := run_eq_ok_iff.mp asked
        simp only [asked] at ran
        exact .cons adds (ih.mp ran)
    · intro carried
      cases carried with
      | cons adds others =>
        rw [run_eq_ok_iff.mpr ⟨_, adds, rfl⟩]
        exact ih.mpr others

theorem forM_run_eq_error_iff : cs.forM run s = .error e t ↔ ∃ before c after u,
    cs = before ++ c :: after ∧ Preparation.Carried before s u ∧ c.Fails u.program e ∧
      t = c.heard u := by
  induction cs generalizing s with
  | nil =>
    simp only [List.nil_eq, List.append_eq_nil_iff, reduceCtorEq, and_false, false_and,
      exists_false, iff_false]
    exact fun ran => nomatch ran
  | cons c rest ih =>
    simp only [List.forM_eq_forM, List.forM_cons, Preparation.bind_run] at ih ⊢
    constructor
    · intro ran
      cases asked : c.run s with
      | error e u =>
        simp only [asked, EStateM.Result.error.injEq] at ran
        obtain ⟨rfl, rfl⟩ := ran
        obtain ⟨fails, heard⟩ := run_eq_error_iff.mp asked
        exact ⟨[], c, rest, s, rfl, .nil, fails, heard⟩
      | ok _ u =>
        obtain ⟨p, adds, rfl⟩ := run_eq_ok_iff.mp asked
        simp only [asked] at ran
        obtain ⟨before, d, after, v, rfl, carried, fails, heard⟩ := ih.mp ran
        exact ⟨c :: before, d, after, v, rfl, .cons adds carried, fails, heard⟩
    · rintro ⟨before, d, after, u, split, carried, fails, rfl⟩
      cases carried with
      | nil =>
        obtain ⟨rfl, rfl⟩ := List.cons.inj split
        rw [run_eq_error_iff.mpr ⟨fails, rfl⟩]
      | cons adds others =>
        obtain ⟨rfl, rfl⟩ := List.cons.inj split
        rw [run_eq_ok_iff.mpr ⟨_, adds, rfl⟩]
        exact ih.mpr ⟨_, d, after, u, rfl, others, fails, rfl⟩

end Consultation

/-- `q` has the code of `p` and each of its notes under the same key. -/
structure Program.Keeps (p q : Program) : Prop where
  code : q.bare = p.bare
  notes : ∀ key note, p.notes.get? key = some note → q.notes.get? key = some note
  routines : ∀ (id : RoutineId) r r', p.routines[id]? = some r → q.routines[id]? = some r' →
    ∀ key note, r.notes.get? key = some note → r'.notes.get? key = some note

namespace Program.Keeps

variable {p q w : Program}

theorem refl (p : Program) : p.Keeps p where
  code := rfl
  notes _ _ noted := noted
  routines id r r' found also := by
    obtain rfl := Option.some.inj (found.symm.trans also)
    exact fun _ _ noted => noted

theorem routine (keeps : p.Keeps q) (id : RoutineId) :
    q.routines[id]?.map Routine.bare = p.routines[id]?.map Routine.bare := by
  have code := congrArg (fun w : Program => w.routines[id]?) keeps.code
  simpa [Program.bare] using code

theorem trans (first : p.Keeps q) (second : q.Keeps w) : p.Keeps w where
  code := second.code.trans first.code
  notes key note noted := second.notes key note (first.notes key note noted)
  routines id r r' found also key note noted := by
    have between := second.routine id
    cases present : q.routines[id]? with
    | none => simp [present, also] at between
    | some x =>
      exact second.routines id x r' present also key note
        (first.routines id r x found present key note noted)

theorem length_eq (keeps : p.Keeps q) : q.routines.length = p.routines.length := by
  simpa [Program.bare] using congrArg (fun w : Program => w.routines.length) keeps.code

theorem find_eq (keeps : p.Keeps q) (name : String) : q.find name = p.find name := by
  rw [← Program.find_bare, keeps.code, Program.find_bare]

theorem registerCounts (keeps : p.Keeps q) :
    q.routines.map Routine.registerCount = p.routines.map Routine.registerCount := by
  have counts (w : Program) : w.bare.routines.map Routine.registerCount =
      w.routines.map Routine.registerCount := by
    rw [Program.bare, List.map_map]
    rfl
  rw [← counts, keeps.code, counts]

theorem consulted (keeps : p.Keeps q) {c : Consultation} {key : String} {note : Note}
    (noted : (c.notes p).get? key = some note) : (c.notes q).get? key = some note := by
  cases c with
  | overall hook => exact keeps.notes key note noted
  | each hook id =>
    have same := keeps.routine id
    cases found : p.routines[id]? with
    | none => simp [Consultation.notes, found, Notes.get?] at noted
    | some r =>
      cases also : q.routines[id]? with
      | none => simp [found, also] at same
      | some r' =>
        rw [Consultation.notes_each found] at noted
        rw [Consultation.notes_each also]
        exact keeps.routines id r r' found also key note noted

end Program.Keeps

namespace Consultation

variable {c : Consultation} {cs : List Consultation} {s t : Preparation} {p q : Program}

theorem put_keeps {notes : Notes} (c : Consultation)
    (kept : ∀ key note, (c.notes p).get? key = some note → notes.get? key = some note) :
    p.Keeps (c.put p notes) := by
  cases c with
  | overall hook =>
    refine ⟨rfl, kept, fun id r r' found also => ?_⟩
    obtain rfl := Option.some.inj (found.symm.trans also)
    exact fun _ _ noted => noted
  | each hook id =>
    refine ⟨?_, fun _ _ noted => noted, fun other r r' found also => ?_⟩
    · simp only [put, Program.bare, Preparation.map_bare_modify]
    · simp only [put, List.getElem?_modify, found, Option.map_eq_map, Option.map_some,
        Option.some.injEq] at also
      subst also
      split
      · next here =>
        subst here
        rwa [notes_each found] at kept
      · exact fun _ _ noted => noted

theorem noted_put {key : String} {note : Note}
    (found : (c.finding p).outcome = .ok (some (key, note))) (free : (c.notes p).get? key = none) :
    (c.notes (c.put p ⟨(c.notes p).entries ++ [(key, note)]⟩)).get? key = some note := by
  have fits : (c.notes p).add key note = .ok ⟨(c.notes p).entries ++ [(key, note)]⟩ :=
    Notes.add_eq_ok_iff.mpr ⟨free, rfl⟩
  have added := Notes.get?_add fits key
  rw [if_pos rfl] at added
  cases c with
  | overall hook => exact added
  | each hook id =>
    cases present : p.routines[id]? with
    | none => simp [finding, present] at found
    | some r => simpa [notes, put, present] using added

theorem Adds.keeps (adds : c.Adds p q) : p.Keeps q := by
  cases adds with
  | nothing silent => exact .refl p
  | note found free =>
    refine put_keeps c fun k n noted => ?_
    rw [Notes.get?_add (Notes.add_eq_ok_iff.mpr ⟨free, rfl⟩)]
    split
    · next same => simp [← same, noted] at free
    · exact noted

end Consultation

theorem Preparation.Carried.keeps {cs : List Consultation} {s t : Preparation}
    (carried : Carried cs s t) : s.program.Keeps t.program := by
  induction carried with
  | nil => exact .refl _
  | cons adds others ih => exact adds.keeps.trans ih

namespace Machine

variable {m : Machine} {s t : Preparation} {e : Fault}

theorem consultAll_eq (hook : RoutineHook) (s : Preparation) :
    Preparation.consultAll hook s = ((List.range s.program.routines.length).map
      (Consultation.each hook)).forM Consultation.run s := by
  simp only [List.forM_eq_forM, List.forM_map]
  rfl

theorem forM_consultAll_eq (hooks : List RoutineHook) (s : Preparation) :
    hooks.forM Preparation.consultAll s = (hooks.flatMap fun hook =>
      (List.range s.program.routines.length).map (.each hook)).forM Consultation.run s := by
  induction hooks generalizing s with
  | nil => rfl
  | cons hook rest ih =>
    simp only [List.flatMap_cons, List.forM_eq_forM, List.forM_cons, List.forM_append,
      Preparation.bind_run, consultAll_eq] at ih ⊢
    cases asked : forM ((List.range s.program.routines.length).map (Consultation.each hook))
        Consultation.run s with
    | error e t => rfl
    | ok _ t =>
      have keeps := (Consultation.forM_run_eq_ok_iff.mp asked).keeps
      simp only [ih, keeps.length_eq]

/-- Preparing is a sequence of consultations, whose order does not depend on what is found. -/
theorem prepare_eq (m : Machine) (s : Preparation) :
    m.prepare s = (Consultation.order m.programHooks m.routineHooks
      s.program.routines.length).forM Consultation.run s := by
  have overall : m.programHooks.forM Preparation.consult s =
      (m.programHooks.map Consultation.overall).forM Consultation.run s := by
    simp only [List.forM_eq_forM, List.forM_map]
    rfl
  simp only [prepare, Consultation.order, Preparation.bind_run, overall]
  simp only [List.forM_eq_forM, List.forM_append, Preparation.bind_run]
  cases asked : forM (m.programHooks.map Consultation.overall) Consultation.run s with
  | error e t => rfl
  | ok _ t =>
    have keeps := (Consultation.forM_run_eq_ok_iff.mp asked).keeps
    simp only [← List.forM_eq_forM, forM_consultAll_eq, keeps.length_eq]

theorem prepare_keeps (ran : m.prepare s = .ok () t ∨ m.prepare s = .error e t) :
    s.program.Keeps t.program := by
  rw [prepare_eq] at ran
  obtain done | failed := ran
  · exact (Consultation.forM_run_eq_ok_iff.mp done).keeps
  · obtain ⟨before, c, after, u, -, carried, -, rfl⟩ := Consultation.forM_run_eq_error_iff.mp failed
    exact carried.keeps

end Machine

/-- Some machine has prepared `p`, or tried to, and `q` is what it left. -/
def Program.Becomes (p q : Program) : Prop :=
  ∃ (m : Machine) (s t : Preparation), s.program = p ∧ t.program = q ∧
    (m.prepare s = .ok () t ∨ ∃ e, m.prepare s = .error e t)

theorem Program.keeps_of_becomes {p q : Program} (later : Relation.ReflTransGen Becomes p q) :
    p.Keeps q := by
  induction later with
  | refl => exact .refl p
  | tail _ becomes ih =>
    obtain ⟨m, s, t, rfl, rfl, done | ⟨e, failed⟩⟩ := becomes
    · exact ih.trans (Machine.prepare_keeps (e := .emptyStack) (.inl done))
    · exact ih.trans (Machine.prepare_keeps (.inr failed))

inductive RoutineHook.Provided : RoutineHook → Prop where
  | labels : Provided Opcodes.indexLabels
  | watch : Provided Probe.watch
  | failOn (name : String) : Provided (Probe.failOn name)
  | annotate (key : String) (note : Note) : Provided (Probe.annotate key note)

inductive ProgramHook.Provided : ProgramHook → Prop where
  | watch : Provided Probe.watchProgram
  | fail : Provided Probe.failProgram
  | count (key : String) : Provided (Probe.countRoutines key)
  | annotate (key : String) (note : Note) : Provided (Probe.annotateProgram key note)

structure Extension.Provided (x : Extension) : Prop where
  program : ∀ hook ∈ x.programHooks, ProgramHook.Provided hook
  routine : ∀ hook ∈ x.routineHooks, RoutineHook.Provided hook

/-- What the hook finds does not depend on notes. -/
def Consultation.Blind (c : Consultation) : Prop :=
  ∀ p q : Program, q.bare = p.bare → c.finding q = c.finding p

section Blind

variable {s t u : Preparation} {cs : List Consultation}

theorem ProgramHook.Provided.blind {hook : ProgramHook} (provided : Provided hook) :
    (Consultation.overall hook).Blind := by
  intro p q same
  cases provided with
  | watch | fail | annotate => rfl
  | count key =>
    have counts : q.routines.length = p.routines.length := by
      simpa [Program.bare] using congrArg (fun w : Program => w.routines.length) same
    simp only [Consultation.finding, Probe.countRoutines, counts]

theorem RoutineHook.Provided.blind {hook : RoutineHook} (provided : Provided hook)
    (id : RoutineId) : (Consultation.each hook id).Blind := by
  have unmoved (r r' : Routine) (same : r'.bare = r.bare) : hook r' = hook r := by
    obtain ⟨name, body, -⟩ := Routine.mk.inj same
    cases provided with
    | labels => simp only [Opcodes.indexLabels, Opcodes.labelTable, name, body]
    | watch => simp only [Probe.watch, Probe.mention, name]
    | failOn => simp only [Probe.failOn, Probe.mention, name]
    | annotate => simp only [Probe.annotate, Probe.mention, name]
  intro p q same
  have code : q.routines[id]?.map Routine.bare = p.routines[id]?.map Routine.bare := by
    simpa [Program.bare] using congrArg (fun w : Program => w.routines[id]?) same
  cases found : p.routines[id]? with
  | none =>
    have absent : q.routines[id]? = none := by simpa [found] using code
    simp only [Consultation.finding, found, absent]
  | some r =>
    obtain ⟨r', also, bare⟩ : ∃ r', q.routines[id]? = some r' ∧ r'.bare = r.bare := by
      simpa [found] using code
    rw [Consultation.finding_each found, Consultation.finding_each also, unmoved r r' bare]

theorem Consultation.order_blind {extensions : List Extension}
    (provided : ∀ x ∈ extensions, x.Provided) (count : Nat) {c : Consultation}
    (member : c ∈ order (extensions.flatMap Extension.programHooks)
      (extensions.flatMap Extension.routineHooks) count) : c.Blind := by
  simp only [order, List.mem_append, List.mem_map, List.mem_flatMap] at member
  obtain ⟨hook, ⟨x, listed, among⟩, rfl⟩ | ⟨hook, ⟨x, listed, among⟩, id, -, rfl⟩ := member
  · exact ((provided x listed).program hook among).blind
  · exact ((provided x listed).routine hook among).blind id

theorem Preparation.Carried.again (blind : ∀ c ∈ cs, c.Blind) (carried : Carried cs s t)
    (noted : t.program ≠ s.program) (keeps : t.program.Keeps u.program) :
    ∃ key v, cs.forM Consultation.run u = .error (.duplicateNote key) v ∧
      v.program = u.program := by
  induction carried generalizing u with
  | nil => exact absurd rfl noted
  | @cons c rest s p t adds others ih =>
    have code := ((adds.keeps.trans others.keeps).trans keeps).code
    have found := blind c List.mem_cons_self _ _ code
    have blindRest := fun d member => blind d (List.mem_cons_of_mem c member)
    simp only [List.forM_eq_forM, List.forM_cons, Preparation.bind_run] at ih ⊢
    cases adds with
    | nothing silent =>
      have asked : c.run u = .ok () (c.heard u) :=
        Consultation.run_eq_ok_iff.mpr ⟨u.program, .nothing (found ▸ silent), rfl⟩
      rw [asked]
      exact ih (u := c.heard u) blindRest noted keeps
    | @note key note attached free =>
      have held := (others.keeps.trans keeps).consulted (Consultation.noted_put attached free)
      have taken : (c.notes u.program).get? key ≠ none := by simp [held]
      have asked : c.run u = .error (.duplicateNote key) (c.heard u) :=
        Consultation.run_eq_error_iff.mpr ⟨.taken (found ▸ attached) taken, rfl⟩
      rw [asked]
      exact ⟨key, c.heard u, rfl, rfl⟩

end Blind

/-- A machine consults its hooks in order, stops at the first that fails and keeps what was noted
before. However often a program is prepared, its code and its notes stay, and a machine whose hooks
have noted something cannot prepare it again. -/
theorem Machine.preparation {extensions : List Extension} {depth : Nat} {m : Machine}
    (assembled : assemble extensions depth = .ok m) (s : Preparation) :
    let order := Consultation.order (extensions.flatMap Extension.programHooks)
      (extensions.flatMap Extension.routineHooks) s.program.routines.length
    (∀ t, m.prepare s = .ok () t ↔ Preparation.Carried order s t) ∧
      (∀ e t, m.prepare s = .error e t ↔ ∃ before c after u, order = before ++ c :: after ∧
        Preparation.Carried before s u ∧ c.Fails u.program e ∧ t = c.heard u) ∧
      (∀ q, Relation.ReflTransGen Program.Becomes s.program q → s.program.Keeps q ∧
        (∀ name, q.find name = s.program.find name) ∧
        q.routines.map Routine.registerCount = s.program.routines.map Routine.registerCount) ∧
      ((∀ x ∈ extensions, x.Provided) → ∀ t, m.prepare s = .ok () t → t.program ≠ s.program →
        ∀ u, Relation.ReflTransGen Program.Becomes t.program u.program →
          ∃ key v, m.prepare u = .error (.duplicateNote key) v ∧ v.program = u.program) := by
  intro order
  have prepares (u : Preparation) : m.prepare u =
      (Consultation.order (extensions.flatMap Extension.programHooks)
        (extensions.flatMap Extension.routineHooks) u.program.routines.length).forM
          Consultation.run u := by
    obtain ⟨-, rfl⟩ := assemble_eq_ok_iff.mp assembled
    exact prepare_eq ..
  refine ⟨fun t => ?_, fun e t => ?_, fun q later => ?_, fun provided t done noted u later => ?_⟩
  · rw [prepares]
    exact Consultation.forM_run_eq_ok_iff
  · rw [prepares]
    exact Consultation.forM_run_eq_error_iff
  · have keeps := Program.keeps_of_becomes later
    exact ⟨keeps, keeps.find_eq, keeps.registerCounts⟩
  · rw [prepares] at done
    have carried := Consultation.forM_run_eq_ok_iff.mp done
    have keeps := Program.keeps_of_becomes later
    have count : u.program.routines.length = s.program.routines.length :=
      (carried.keeps.trans keeps).length_eq
    rw [prepares, count]
    exact carried.again (fun c => Consultation.order_blind provided _) noted keeps

theorem Machine.preparation_once :
    let counting : Extension := ⟨"counting", [], [Probe.watch], [Probe.countRoutines "count"]⟩
    let p : Program := { routines := [⟨"main", [], {}⟩, ⟨"next", [], {}⟩] }
    let noted : Notes := ⟨[(Opcodes.labelKey, .labels [])]⟩
    let q : Program := ⟨[⟨"main", [], noted⟩, ⟨"next", [], noted⟩], ⟨[("count", .index 2)]⟩⟩
    let remarks := ["program", "func main", "func next"]
    ∃ m, assemble [counting, .jumps] 8 = .ok m ∧ m.prepare ⟨p, []⟩ = .ok () ⟨q, remarks⟩ ∧
      Machine.prepare ⟨[], [], [Probe.countRoutines "count"], 1⟩ ⟨q, []⟩ =
        .error (.duplicateNote "count") ⟨q, ["program"]⟩ ∧
      ∃ key v, m.prepare ⟨q, ["program"]⟩ = .error (.duplicateNote key) v ∧ v.program = q := by
  intro counting p noted q remarks
  obtain ⟨m, assembled⟩ : ∃ m, assemble [counting, .jumps] 8 = .ok m :=
    exists_assemble_iff.mpr (by decide)
  have provided : ∀ x ∈ [counting, .jumps], x.Provided := by
    intro x member
    obtain rfl | rfl : x = counting ∨ x = .jumps := by simpa using member
    · exact ⟨fun hook listed => List.mem_singleton.mp listed ▸ .count "count",
        fun hook listed => List.mem_singleton.mp listed ▸ .watch⟩
    · exact ⟨nofun, fun hook listed => List.mem_singleton.mp listed ▸ .labels⟩
  obtain ⟨-, -, -, once⟩ := preparation assembled ⟨p, []⟩
  obtain ⟨-, rfl⟩ := assemble_eq_ok_iff.mp assembled
  have other : Machine.prepare ⟨[], [], [Probe.countRoutines "count"], 1⟩ ⟨q, []⟩ =
      .error (.duplicateNote "count") ⟨q, ["program"]⟩ := rfl
  refine ⟨_, assembled, rfl, other, once provided ⟨q, remarks⟩ rfl (by decide) ⟨q, ["program"]⟩ ?_⟩
  exact .single ⟨_, ⟨q, []⟩, _, rfl, rfl, .inr ⟨_, other⟩⟩

end RegisterMachine
