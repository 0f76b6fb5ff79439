import RegisterMachine.Machine.Preparation
import RegisterMachine.Opcodes.Standard

/-!
Where labels are. Preparation leaves every function with the table of its own labels, and a look-up
in that table finds a label exactly where the function has it. So a jump in a prepared program
stays inside its function, and it fails only for a label that the function does not have.
-/

namespace RegisterMachine

namespace Opcodes

def LabelAt (body : List Instruction) (label : String) (index : Nat) : Prop :=
  ∃ i, body[index]? = some i ∧ i.opcode = labelOpcode ∧ i.name = .ok label

theorem LabelAt.index_lt {body : List Instruction} {label : String} {index : Nat}
    (found : LabelAt body label index) : index < body.length := by
  obtain ⟨i, fetched, -⟩ := found
  exact (List.getElem?_eq_some_iff.mp fetched).1

theorem exists_labelAt_cons {first : Instruction} {rest : List Instruction} {label : String}
    {index k : Nat} : (∃ j, LabelAt (first :: rest) label j ∧ k = index + j) ↔
      (first.opcode = labelOpcode ∧ first.name = .ok label) ∧ k = index ∨
        ∃ j, LabelAt rest label j ∧ k = index + 1 + j := by
  constructor
  · intro found
    obtain ⟨j, ⟨i, fetched, isLabel⟩, place⟩ := found
    cases j with
    | zero =>
      obtain rfl := Option.some.inj fetched
      exact .inl ⟨isLabel, place⟩
    | succ j => exact .inr ⟨j, ⟨i, fetched, isLabel⟩, by omega⟩
  · intro found
    obtain ⟨isLabel, place⟩ | ⟨j, ⟨i, fetched, isLabel⟩, place⟩ := found
    · exact ⟨0, ⟨first, rfl, isLabel⟩, place⟩
    · exact ⟨j + 1, ⟨i, fetched, isLabel⟩, by omega⟩

theorem lookup_append_label {seen : List (String × Nat)} {label : String}
    (fresh : seen.lookup label = none) (index : Nat) (l : String) (k : Nat) :
    (seen ++ [(label, index)]).lookup l = some k ↔
      seen.lookup l = some k ∨ label = l ∧ k = index := by
  rw [List.lookup_append, List.lookup_cons]
  by_cases same : label = l
  · subst same
    simp [fresh, eq_comm]
  · have apart : (l == label) = false := by simpa using Ne.symm same
    simp [same, apart]

theorem collectLabels_lookup {routine : String} {body : List Instruction} {index : Nat}
    {seen table : List (String × Nat)}
    (collected : collectLabels routine seen index body = .ok table) (l : String) (k : Nat) :
    table.lookup l = some k ↔
      seen.lookup l = some k ∨ ∃ j, LabelAt body l j ∧ k = index + j := by
  induction body generalizing index seen with
  | nil =>
    cases collected
    simp [LabelAt]
  | cons first rest ih =>
    rw [exists_labelAt_cons]
    unfold collectLabels at collected
    split at collected
    · next isLabel =>
      split at collected
      · cases collected
      · next label named =>
        split at collected
        · cases collected
        · next fresh =>
          rw [Bool.not_eq_true, Option.isSome_eq_false_iff, Option.isNone_iff_eq_none] at fresh
          rw [ih collected, lookup_append_label fresh, named, or_assoc]
          simp [isLabel]
    · next other =>
      rw [ih collected]
      simp [other]

/-- A label table finds each label of its function where the function has it, and nothing else. -/
theorem labelTable_lookup {r : Routine} {table : List (String × Nat)}
    (collected : labelTable r = .ok table) (label : String) (index : Nat) :
    table.lookup label = some index ↔ LabelAt r.body label index := by
  rw [collectLabels_lookup collected]
  simp

end Opcodes

def Routine.Labelled (r : Routine) : Prop :=
  ∃ table, r.notes.labels? Opcodes.labelKey = some table ∧ Opcodes.labelTable r = .ok table

namespace Opcodes

theorem target_eq_ok_iff {r : Routine} (labelled : r.Labelled) {label : String} {index : Nat} :
    target r label = .ok index ↔ LabelAt r.body label index := by
  obtain ⟨table, noted, collected⟩ := labelled
  rw [← labelTable_lookup collected, target, noted, Option.bind_some]
  cases table.lookup label <;> simp

end Opcodes

/-- A program as the standard machine leaves it when it has prepared it without a fault. -/
def Program.Prepared (p : Program) : Prop :=
  ∃ depth before after, (Machine.standard depth).prepare before = .ok () after ∧ after.program = p

namespace Preparation

open Opcodes

variable {s t : Preparation}

theorem bind_run {α β : Type} (x : Preparing α) (g : α → Preparing β) (s : Preparation) :
    (x >>= g) s = match x s with
      | .ok a t => g a t
      | .error e t => .error e t := by
  simp only [bind, EStateM.bind]
  cases x s <;> rfl

theorem get_run (s : Preparation) : (get : Preparing Preparation) s = .ok s s := rfl

theorem remark_run (lines : List String) (s : Preparation) :
    remark lines s = .ok () { s with remarks := s.remarks ++ lines } := rfl

theorem settle_run (found : Except Fault Notes) (put : Notes → Program → Program)
    (s : Preparation) : settle found put s = match found with
      | .error e => .error e s
      | .ok notes => .ok () { s with program := put notes s.program } := by
  cases found <;> rfl

theorem consultAt_run (hook : RoutineHook) (id : RoutineId) (s : Preparation) :
    consultAt hook id s = match s.program.routines[id]? with
      | none => .ok () s
      | some r =>
        settle (attach r.notes (hook r))
          (fun notes p => { p with routines := p.routines.modify id fun r => { r with notes } })
          { s with remarks := s.remarks ++ (hook r).remarks } := by
  simp only [consultAt, bind_run, get_run]
  cases s.program.routines[id]? with
  | none => rfl
  | some r => simp only [bind_run, remark_run]

theorem consultAt_indexLabels {id : RoutineId} (ran : consultAt indexLabels id s = .ok () t) :
    (∀ other ≠ id, t.program.routines[other]? = s.program.routines[other]?) ∧
      ∀ r, t.program.routines[id]? = some r → r.Labelled := by
  rw [consultAt_run] at ran
  cases found : s.program.routines[id]? with
  | none =>
    simp only [found] at ran
    cases ran
    exact ⟨fun _ _ => rfl, fun r present => nomatch found.symm.trans present⟩
  | some r =>
    simp only [found, settle_run, attach, indexLabels] at ran
    cases collected : labelTable r with
    | error e => simp [collected, Except.map] at ran
    | ok table =>
      simp only [collected, Except.map] at ran
      cases noted : r.notes.add labelKey (.labels table) with
      | error e => simp [noted] at ran
      | ok notes =>
        simp only [noted, EStateM.Result.ok.injEq, true_and] at ran
        subst ran
        refine ⟨fun other apart => ?_, fun r' present => ?_⟩
        · simp [Ne.symm apart]
        · simp only [List.getElem?_modify_eq, found, Option.map_eq_map, Option.map_some,
            Option.some.injEq] at present
          subst present
          refine ⟨table, ?_, collected⟩
          simp [Notes.labels?, Notes.get?_add noted]

theorem forM_consultAt {ids : List RoutineId}
    (ran : ids.forM (consultAt indexLabels) s = .ok () t) :
    (∀ id ∉ ids, t.program.routines[id]? = s.program.routines[id]?) ∧
      ∀ id ∈ ids, ∀ r, t.program.routines[id]? = some r → r.Labelled := by
  induction ids generalizing s with
  | nil =>
    cases ran
    exact ⟨fun _ _ => rfl, fun _ looked => nomatch looked⟩
  | cons first rest ih =>
    simp only [List.forM_eq_forM, List.forM_cons, bind_run] at ran
    cases began : consultAt indexLabels first s with
    | error e u => simp [began] at ran
    | ok _ u =>
      simp only [began] at ran
      obtain ⟨others, labelled⟩ := consultAt_indexLabels began
      obtain ⟨untouched, labelledRest⟩ := ih ran
      refine ⟨fun id apart => ?_, fun id looked r present => ?_⟩
      · rw [List.mem_cons, not_or] at apart
        rw [untouched id apart.2, others id apart.1]
      · by_cases later : id ∈ rest
        · exact labelledRest id later r present
        · obtain rfl : id = first := (List.mem_cons.mp looked).resolve_right later
          exact labelled r (untouched id later ▸ present)

end Preparation

section Prepared

open Opcodes

variable {p : Program} {id : RoutineId} {r : Routine}

theorem Program.routine_eq_ok_iff : p.routine id = .ok r ↔ p.routines[id]? = some r := by
  unfold routine
  cases p.routines[id]? <;> simp

theorem Machine.prepare_standard (depth : Nat) (s : Preparation) :
    (Machine.standard depth).prepare s =
      (List.range s.program.routines.length).forM (Preparation.consultAt indexLabels) s := by
  have hooks : (Machine.standard depth).routineHooks = [indexLabels] := rfl
  have noHooks : (Machine.standard depth).programHooks = [] := rfl
  rw [prepare, hooks, noHooks]
  simp only [List.forM_nil, List.forM_cons, List.forM_eq_forM, bind_pure_unit, pure_bind]
  rfl

theorem Program.Prepared.labelled (prepared : p.Prepared) (found : p.routine id = .ok r) :
    r.Labelled := by
  obtain ⟨depth, before, after, ran, rfl⟩ := prepared
  rw [Machine.prepare_standard] at ran
  obtain ⟨others, labelled⟩ := Preparation.forM_consultAt ran
  rw [routine_eq_ok_iff] at found
  by_cases looked : id ∈ List.range before.program.routines.length
  · exact labelled id looked r found
  · rw [others id looked] at found
    exact absurd (List.mem_range.mpr (List.getElem?_eq_some_iff.mp found).1) looked

theorem Program.Prepared.target_eq_ok_iff (prepared : p.Prepared) (found : p.routine id = .ok r)
    {label : String} {index : Nat} : target r label = .ok index ↔ LabelAt r.body label index :=
  Opcodes.target_eq_ok_iff (prepared.labelled found)

theorem Program.Prepared.no_label (prepared : p.Prepared) (found : p.routine id = .ok r)
    {label : String} {e : Fault} (absent : target r label = .error e) (index : Nat) :
    ¬LabelAt r.body label index := by
  intro present
  exact nomatch absent.symm.trans ((prepared.target_eq_ok_iff found).mpr present)

end Prepared

end RegisterMachine
