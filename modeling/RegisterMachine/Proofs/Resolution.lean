import RegisterMachine.Demo
import RegisterMachine.Proofs.Footprint
import RegisterMachine.Proofs.Preparing
import Mathlib.Data.List.Forall2

/-!
From the labels of a program to the places that its jumps lead to. The standard machine prepares a
program just when it can tell all of its labels apart, and otherwise says what the first label is
that it cannot take. The tables that it leaves are those that listings show and that jumps look up.
-/

namespace RegisterMachine

open Opcodes

/-- Instruction `k` is a label that cannot go into the table of its function: it has no name, or the
name of a label before it. -/
inductive Routine.Rejects (r : Routine) (k : Nat) : Fault → Prop where
  | nameless {i : Instruction} (fetched : r.body[k]? = some i) (isLabel : i.opcode = labelOpcode)
      (other : i.payload.kind ≠ .name) :
      r.Rejects k (.payloadMismatch labelOpcode .name i.payload.kind)
  | repeated {label : String} {j : Nat} (earlier : j < k) (first : LabelAt r.body label j)
      (again : LabelAt r.body label k) : r.Rejects k (.duplicateLabel r.name label)

def Routine.FirstRejects (r : Routine) (k : Nat) (e : Fault) : Prop :=
  r.Rejects k e ∧ ∀ j < k, ∀ e', ¬r.Rejects j e'

structure Routine.Indexable (r : Routine) : Prop where
  named : ∀ i ∈ r.body, i.opcode = labelOpcode → i.payload.kind = .name
  distinct : ∀ label j k, LabelAt r.body label j → LabelAt r.body label k → j = k

/-- The first function that an instruction is rejected of, and there the first such instruction. -/
def Program.FirstRejects (p : Program) (e : Fault) : Prop :=
  ∃ (id : RoutineId) (r : Routine) (k : Nat), p.routines[id]? = some r ∧ r.FirstRejects k e ∧
    ∀ j < id, ∀ r', p.routines[j]? = some r' → r'.Indexable

def Routine.labelLine (index : Nat) (label : String) : String :=
  "  " ++ padLeft 4 (toString index) ++ " " ++ label ++ ":\n"

def Routine.plainLine (index : Nat) (i : Instruction) : String :=
  "  " ++ padLeft 4 (toString index) ++ "     " ++ i.text ++ "\n"

/-- The text shows the function with that table: a heading, then one line for each instruction, and
the label lines are those of the table. -/
def Routine.ShownAs (r : Routine) (table : List (String × Nat)) (text : String) : Prop :=
  ∃ lines, text = s!"fn {r.name} (registers: {r.registerCount}):\n" ++ String.join lines ∧
    lines.length = r.body.length ∧ ∀ k i, r.body[k]? = some i →
      (∀ label, table.lookup label = some k → lines[k]? = some (labelLine k label)) ∧
      ((∀ label, table.lookup label ≠ some k) → lines[k]? = some (plainLine k i))

theorem Instruction.name_eq_error_iff {i : Instruction} {e : Fault} : i.name = .error e ↔
    i.payload.kind ≠ .name ∧ e = .payloadMismatch i.opcode .name i.payload.kind := by
  unfold name
  cases i.payload <;> simp [Payload.kind, eq_comm]

theorem Opcodes.labelAt_append {done : List Instruction} {i : Instruction} {label : String}
    {k : Nat} : LabelAt (done ++ [i]) label k ↔
      LabelAt done label k ∨ (i.opcode = labelOpcode ∧ i.name = .ok label) ∧ k = done.length := by
  obtain below | rfl | above := Nat.lt_trichotomy k done.length
  · simp [LabelAt, List.getElem?_append_left below, Nat.ne_of_lt below]
  · simp [LabelAt]
  · have absent : (done ++ [i])[k]? = none := List.getElem?_eq_none_iff.mpr (by simp; omega)
    have alsoAbsent : done[k]? = none := List.getElem?_eq_none_iff.mpr (by omega)
    simp [LabelAt, absent, alsoAbsent, Nat.ne_of_gt above]

namespace Routine

variable {r r' : Routine} {k k' n : Nat} {e e' : Fault} {i : Instruction}

theorem Rejects.fetched (rejects : r.Rejects k e) : ∃ i, r.body[k]? = some i := by
  cases rejects with
  | nameless fetched => exact ⟨_, fetched⟩
  | repeated _ _ again => exact ⟨_, again.choose_spec.1⟩

theorem rejects_iff (fetched : r.body[k]? = some i) : r.Rejects k e ↔ i.opcode = labelOpcode ∧
    match i.name with
    | .error e' => e = e'
    | .ok label => e = .duplicateLabel r.name label ∧ ∃ j < k, LabelAt r.body label j := by
  constructor
  · intro rejects
    cases rejects with
    | nameless fetched' isLabel other =>
      obtain rfl := Option.some.inj (fetched'.symm.trans fetched)
      exact ⟨isLabel, by rw [Instruction.name_eq_error_iff.mpr ⟨other, rfl⟩, isLabel]⟩
    | repeated earlier first again =>
      obtain ⟨x, fetched', isLabel, named⟩ := again
      obtain rfl := Option.some.inj (fetched'.symm.trans fetched)
      exact ⟨isLabel, by rw [named]; exact ⟨rfl, _, earlier, first⟩⟩
  · rintro ⟨isLabel, reason⟩
    cases named : i.name with
    | error e' =>
      rw [named] at reason
      obtain ⟨other, rfl⟩ := Instruction.name_eq_error_iff.mp (reason ▸ named)
      exact isLabel ▸ .nameless fetched isLabel other
    | ok label =>
      rw [named] at reason
      obtain ⟨rfl, j, earlier, first⟩ := reason
      exact .repeated earlier first ⟨i, fetched, isLabel, named⟩

theorem Rejects.unique (one : r.Rejects k e) (other : r.Rejects k e') : e' = e := by
  obtain ⟨i, fetched⟩ := one.fetched
  obtain ⟨-, reason⟩ := (rejects_iff fetched).mp one
  obtain ⟨-, reason'⟩ := (rejects_iff fetched).mp other
  cases named : i.name with
  | error =>
    rw [named] at reason reason'
    exact reason'.trans reason.symm
  | ok label =>
    rw [named] at reason reason'
    exact reason'.1.trans reason.1.symm

theorem FirstRejects.unique (one : r.FirstRejects k e) (other : r.FirstRejects k' e') : e' = e := by
  obtain below | rfl | above := Nat.lt_trichotomy k k'
  · exact absurd one.1 (other.2 k below e)
  · exact one.1.unique other.1
  · exact absurd other.1 (one.2 k' above e')

theorem indexable_iff : r.Indexable ↔ ∀ k e, ¬r.Rejects k e := by
  constructor
  · intro indexable k e rejects
    cases rejects with
    | nameless fetched isLabel other =>
      exact other (indexable.named _ (List.mem_of_getElem? fetched) isLabel)
    | repeated earlier first again =>
      exact absurd (indexable.distinct _ _ _ first again) (Nat.ne_of_lt earlier)
  · intro fits
    refine ⟨fun i member isLabel => ?_, fun label j k one other => ?_⟩
    · obtain ⟨k, fetched⟩ := List.mem_iff_getElem?.mp member
      exact by_contra fun nameless => fits k _ (.nameless fetched isLabel nameless)
    · obtain below | same | above := Nat.lt_trichotomy j k
      · exact absurd (.repeated below one other) (fits k _)
      · exact same
      · exact absurd (.repeated above other one) (fits j _)

theorem Indexable.congr (same : r'.bare = r.bare) (indexable : r.Indexable) : r'.Indexable := by
  have body := body_eq_of_bare_eq same
  exact ⟨body ▸ indexable.named, body ▸ indexable.distinct⟩

/-- What looking for labels from instruction `n` on says about the instructions there. -/
def Verdict (r : Routine) (n : Nat) : Except Fault (List (String × Nat)) → Prop
  | .ok _ => ∀ k ≥ n, ∀ e, ¬r.Rejects k e
  | .error e => ∃ k ≥ n, r.Rejects k e ∧ ∀ j ≥ n, j < k → ∀ e', ¬r.Rejects j e'

theorem Verdict.of_succ {answer : Except Fault (List (String × Nat))}
    (fits : ∀ e, ¬r.Rejects n e) (later : r.Verdict (n + 1) answer) : r.Verdict n answer := by
  cases answer with
  | ok table =>
    intro k fromHere
    obtain rfl | above := Nat.eq_or_lt_of_le fromHere
    · exact fits
    · exact later k above
  | error e =>
    obtain ⟨k, above, rejects, first⟩ := later
    refine ⟨k, Nat.le_of_succ_le above, rejects, fun j fromHere => ?_⟩
    obtain rfl | above := Nat.eq_or_lt_of_le fromHere
    · exact fun _ => fits
    · exact first j above

theorem collectLabels_verdict {done body : List Instruction} {seen : List (String × Nat)}
    (whole : r.body = done ++ body)
    (known : ∀ label k, seen.lookup label = some k ↔ LabelAt done label k) :
    r.Verdict done.length (collectLabels r.name seen done.length body) := by
  -- a label can be rejected only for what is done, so each instruction is judged when it is met
  induction body generalizing done seen with
  | nil =>
    intro k past e rejects
    obtain ⟨i, fetched⟩ := rejects.fetched
    have inside : k < r.body.length := (List.getElem?_eq_some_iff.mp fetched).1
    rw [whole, List.append_nil] at inside
    exact absurd inside (Nat.not_lt.mpr past)
  | cons i rest ih =>
    have fetched : r.body[done.length]? = some i := by simp [whole]
    have onward : r.body = (done ++ [i]) ++ rest := by simp [whole]
    have earlier {label : String} {j : Nat} (inside : j < done.length) :
        LabelAt r.body label j ↔ LabelAt done label j := by
      rw [LabelAt, LabelAt, whole, List.getElem?_append_left inside]
    have first (e : Fault) (rejects : r.Rejects done.length e) :
        r.Verdict done.length (.error e) :=
      ⟨done.length, le_rfl, rejects, fun j above below => absurd below (Nat.not_lt.mpr above)⟩
    have after := @ih (done ++ [i])
    rw [List.length_append, List.length_singleton] at after
    unfold collectLabels
    split
    · next isLabel =>
      split
      · next e nameless =>
        exact first e ((rejects_iff fetched).mpr ⟨isLabel, by rw [nameless]⟩)
      · next label named =>
        split
        · next met =>
          obtain ⟨j, met⟩ := Option.isSome_iff_exists.mp met
          have there := (known label j).mp met
          refine first _ ((rejects_iff fetched).mpr ⟨isLabel, ?_⟩)
          rw [named]
          exact ⟨rfl, j, there.index_lt, (earlier there.index_lt).mpr there⟩
        · next fresh =>
          rw [Bool.not_eq_true, Option.isSome_eq_false_iff, Option.isNone_iff_eq_none] at fresh
          refine .of_succ (fun e rejects => ?_) (after onward fun l k => ?_)
          · obtain ⟨-, reason⟩ := (rejects_iff fetched).mp rejects
            rw [named] at reason
            obtain ⟨-, j, inside, there⟩ := reason
            have met := (known label j).mpr ((earlier inside).mp there)
            rw [fresh] at met
            cases met
          · rw [lookup_append_label fresh, known, labelAt_append, named]
            simp [isLabel]
    · next other =>
      refine .of_succ (fun e rejects => other ((rejects_iff fetched).mp rejects).1)
        (after onward fun l k => ?_)
      rw [known, labelAt_append]
      simp [other]

theorem labelTable_verdict (r : Routine) : r.Verdict 0 (labelTable r) := by
  have whole : r.body = [] ++ r.body := rfl
  exact collectLabels_verdict whole fun label k => by simp [LabelAt]

theorem firstRejects_of_error (failed : labelTable r = .error e) : ∃ k, r.FirstRejects k e := by
  have verdict := labelTable_verdict r
  rw [failed] at verdict
  obtain ⟨k, -, rejects, first⟩ := verdict
  exact ⟨k, rejects, fun j => first j (Nat.zero_le j)⟩

theorem exists_labelTable_iff : (∃ table, labelTable r = .ok table) ↔ r.Indexable := by
  rw [indexable_iff]
  constructor
  · rintro ⟨table, collected⟩
    have verdict := labelTable_verdict r
    rw [collected] at verdict
    exact fun k => verdict k (Nat.zero_le k)
  · intro fits
    cases failed : labelTable r with
    | ok table => exact ⟨table, rfl⟩
    | error e =>
      obtain ⟨k, rejects, -⟩ := firstRejects_of_error failed
      exact absurd rejects (fits k e)

end Routine

namespace Preparation

variable {s t : Preparation} {id : RoutineId} {e : Fault}

theorem consultAt_error (failed : consultAt indexLabels id s = .error e t)
    (unnoted : ∀ r, s.program.routines[id]? = some r → r.notes.get? labelKey = none) :
    ∃ r, s.program.routines[id]? = some r ∧ labelTable r = .error e := by
  rw [consultAt_run] at failed
  cases found : s.program.routines[id]? with
  | none =>
    rw [found] at failed
    exact nomatch failed
  | some r =>
    refine ⟨r, rfl, ?_⟩
    simp only [found, settle_run, attach, indexLabels] at failed
    cases collected : labelTable r with
    | error e' =>
      simp only [collected, Except.map, EStateM.Result.error.injEq] at failed
      rw [failed.1]
    | ok table =>
      simp [collected, Except.map, Notes.add, Notes.contains, unnoted r found] at failed

theorem consultAt_indexable {r : Routine} (ran : consultAt indexLabels id s = .ok () t)
    (found : s.program.routines[id]? = some r) : r.Indexable := by
  rw [consultAt_run] at ran
  simp only [found, settle_run, attach, indexLabels] at ran
  cases collected : labelTable r with
  | error e => simp [collected, Except.map] at ran
  | ok table => exact Routine.exists_labelTable_iff.mp ⟨table, collected⟩

theorem forM_consultAt_error {ids : List RoutineId} (increase : ids.Pairwise (· < ·))
    (unnoted : ∀ id ∈ ids, ∀ r, s.program.routines[id]? = some r → r.notes.get? labelKey = none)
    (failed : ids.forM (consultAt indexLabels) s = .error e t) :
    ∃ id ∈ ids, ∃ r, s.program.routines[id]? = some r ∧ labelTable r = .error e ∧
      ∀ j ∈ ids, j < id → ∀ r', s.program.routines[j]? = some r' → r'.Indexable := by
  induction ids generalizing s with
  | nil => exact nomatch failed
  | cons first rest ih =>
    obtain ⟨least, increase⟩ := List.pairwise_cons.mp increase
    simp only [List.forM_eq_forM, List.forM_cons, bind_run] at ih failed
    cases began : consultAt indexLabels first s with
    | error e' u =>
      simp only [began, EStateM.Result.error.injEq] at failed
      obtain ⟨rfl, -⟩ := failed
      obtain ⟨r, found, rejected⟩ := consultAt_error began (unnoted first List.mem_cons_self)
      refine ⟨first, List.mem_cons_self, r, found, rejected, fun j member below => ?_⟩
      obtain rfl | later := List.mem_cons.mp member
      · exact absurd below (lt_irrefl _)
      · exact absurd below (Nat.lt_asymm (least j later))
    | ok _ u =>
      simp only [began] at failed
      have kept (j : RoutineId) (later : j ∈ rest) :
          u.program.routines[j]? = s.program.routines[j]? :=
        (consultAt_indexLabels began).1 j (Nat.ne_of_gt (least j later))
      obtain ⟨id, later, r, found, rejected, before⟩ := ih increase (fun j later r found =>
        unnoted j (List.mem_cons_of_mem first later) r (kept j later ▸ found)) failed
      refine ⟨id, List.mem_cons_of_mem first later, r, kept id later ▸ found, rejected, ?_⟩
      intro j member below r' found'
      obtain rfl | among := List.mem_cons.mp member
      · exact consultAt_indexable began found'
      · exact before j among below r' (kept j among ▸ found')

end Preparation

section Program

variable {p : Program} {s t : Preparation} {depth : Nat} {e : Fault}

theorem Machine.indexable_of_prepare (done : (Machine.standard depth).prepare s = .ok () t) :
    ∀ r ∈ s.program.routines, r.Indexable := by
  intro r member
  obtain ⟨id, found⟩ := List.mem_iff_getElem?.mp member
  have code := (prepare_keeps (e := .emptyStack) (.inl done)).routine id
  obtain ⟨r', found', same⟩ : ∃ r', t.program.routines[id]? = some r' ∧ r'.bare = r.bare := by
    simpa [found] using code
  have prepared : t.program.Prepared := ⟨depth, s, t, done, rfl⟩
  obtain ⟨table, -, collected⟩ := prepared.labelled (Program.routine_eq_ok_iff.mpr found')
  exact (Routine.exists_labelTable_iff.mp ⟨table, collected⟩).congr same.symm

theorem Machine.prepare_indexable (unnoted : ∀ r ∈ s.program.routines, r.notes.get? labelKey = none)
    (indexable : ∀ r ∈ s.program.routines, r.Indexable) (depth : Nat) :
    ∃ t, (Machine.standard depth).prepare s = .ok () t := by
  rw [prepare_standard]
  obtain ⟨t, done, -⟩ := Preparation.forM_consultAt_ok List.nodup_range fun id _ r found =>
    have member := List.mem_of_getElem? found
    ⟨unnoted r member, Routine.exists_labelTable_iff.mpr (indexable r member)⟩
  exact ⟨t, done⟩

theorem Machine.prepare_rejects (unnoted : ∀ r ∈ s.program.routines, r.notes.get? labelKey = none)
    (failed : (Machine.standard depth).prepare s = .error e t) : s.program.FirstRejects e := by
  rw [prepare_standard] at failed
  obtain ⟨id, among, r, found, rejected, before⟩ :=
    Preparation.forM_consultAt_error List.pairwise_lt_range
      (fun id _ r found => unnoted r (List.mem_of_getElem? found)) failed
  obtain ⟨k, first⟩ := Routine.firstRejects_of_error rejected
  have inside := List.mem_range.mp among
  exact ⟨id, r, k, found, first, fun j below =>
    before j (List.mem_range.mpr (below.trans inside)) below⟩

theorem Program.FirstRejects.unique {e' : Fault} (one : p.FirstRejects e)
    (other : p.FirstRejects e') : e' = e := by
  obtain ⟨id, r, k, found, first, before⟩ := one
  obtain ⟨id', r', k', found', first', before'⟩ := other
  obtain below | rfl | above := Nat.lt_trichotomy id id'
  · exact absurd first.1 (Routine.indexable_iff.mp (before' id below r found) k e)
  · obtain rfl := Option.some.inj (found'.symm.trans found)
    exact first.unique first'
  · exact absurd first'.1 (Routine.indexable_iff.mp (before id' above r' found') k' e')

theorem Opcodes.target_eq_error {r : Routine} (labelled : r.Labelled) {label : String}
    (absent : ∀ k, ¬LabelAt r.body label k) :
    target r label = .error (.unknownLabel r.name label) := by
  obtain ⟨table, noted, collected⟩ := labelled
  have missing : table.lookup label = none :=
    Option.eq_none_iff_forall_ne_some.mpr fun k there =>
      absent k ((labelTable_lookup collected label k).mp there)
  rw [target, noted, Option.bind_some, missing]

theorem Routine.shownAs_listing {r : Routine} {table : List (String × Nat)}
    (holds : ∀ label k, table.lookup label = some k ↔ LabelAt r.body label k) :
    r.ShownAs table r.listing := by
  refine ⟨r.body.mapIdx line, rfl, List.length_mapIdx, fun k i fetched => ?_⟩
  rw [List.getElem?_mapIdx, fetched, Option.map_some, Option.some.injEq]
  refine ⟨fun label there => ?_, fun absent => ?_⟩
  · obtain ⟨x, fetched', isLabel, named⟩ := (holds label k).mp there
    obtain rfl := Option.some.inj (fetched'.symm.trans fetched)
    have shown : x.label? = some label := by
      simp [Instruction.label?, isLabel, named, Except.toOption]
    simp only [line, shown, labelLine]
  · have shown : i.label? = none := by
      unfold Instruction.label?
      split
      · next isLabel =>
        cases named : i.name with
        | error e => rfl
        | ok label => exact absurd ((holds label k).mpr ⟨i, fetched, isLabel, named⟩) (absent label)
      · rfl
    simp only [line, shown, plainLine]

theorem Program.listing_blocks {shows : Routine → String → Prop}
    (each : ∀ r ∈ p.routines, shows r r.listing) :
    ∃ blocks, p.listing = "\n".intercalate blocks ∧ List.Forall₂ shows p.routines blocks :=
  ⟨p.routines.map Routine.listing, rfl, List.forall₂_map_right_iff.mpr (List.forall₂_same.mpr each)⟩

theorem Executes.attempt_landing {f : Frame} {below : List Frame} {r : Routine} {i : Instruction}
    {s : State} {label : String} {k : Nat} (executes : Executes p s f below r i)
    (there : LabelAt r.body label k) (depth n : Nat) :
    (Machine.standard depth).attempt p { s with
        calls := s.calls.replaceTop { f with pointer := k }, dispatched := n } =
      (.ok true, { s with
        calls := s.calls.replaceTop { f with pointer := k + 1 }, dispatched := n + 1 }) := by
  obtain ⟨x, fetched, isLabel, -⟩ := there
  have lands : Executes p { s with
      calls := s.calls.replaceTop { f with pointer := k }, dispatched := n }
      { f with pointer := k } below r x :=
    ⟨Stack.items_replaceTop executes.top _, executes.found, fetched⟩
  rw [lands.attempt_passing (.inl isLabel), State.advance]
  simp only [Stack.replaceTop_replaceTop, Frame.advance]

end Program

/-- The standard machine prepares a program without label tables if and only if the labels of each
function have names of their own. The listing of the program shows the tables that this leaves, and
a jump goes to the label of its own function or fails for want of it. -/
theorem Program.labels_resolve {p : Program}
    (unnoted : ∀ r ∈ p.routines, r.notes.get? labelKey = none) (depth : Nat)
    (remarks : List String) :
    ((∃ t, (Machine.standard depth).prepare ⟨p, remarks⟩ = .ok () t) ↔
        ∀ r ∈ p.routines, r.Indexable) ∧
      (∀ e, (∃ t, (Machine.standard depth).prepare ⟨p, remarks⟩ = .error e t) ↔
        p.FirstRejects e) ∧
      ∀ t, (Machine.standard depth).prepare ⟨p, remarks⟩ = .ok () t →
        t.program.bare = p.bare ∧
        (∃ blocks, t.program.listing = "\n".intercalate blocks ∧
          List.Forall₂ (fun r block => ∃ table, r.notes.labels? labelKey = some table ∧
            (∀ label k, table.lookup label = some k ↔ LabelAt r.body label k) ∧
            r.ShownAs table block) t.program.routines blocks) ∧
        ∀ limit s f below r i, Executes t.program s f below r i →
          (∀ label, i.Jumps f → i.name = .ok label →
            ((∀ k, ¬LabelAt r.body label k) →
              (Machine.standard limit).attempt t.program s = (.error ⟨.unknownLabel r.name label,
                some ⟨r.name, f.pointer, i.opcode⟩⟩, s.advance f)) ∧
            ∀ k, LabelAt r.body label k → ∃ u,
              (Machine.standard limit).attempt t.program s = (.ok true, u) ∧
              u = { s with calls := s.calls.replaceTop { f with pointer := k }
                           dispatched := s.dispatched + 1 } ∧
              (Machine.standard limit).attempt t.program u = (.ok true, { s with
                calls := s.calls.replaceTop { f with pointer := k + 1 }
                dispatched := s.dispatched + 2 })) ∧
          (i.opcode = "jump-if" → f.operand i 0 = .ok (.bool false) →
            (Machine.standard limit).attempt t.program s =
              (.ok true, { s.advance f with dispatched := s.dispatched + 1 })) := by
  refine ⟨⟨?_, fun indexable => ?_⟩, fun e => ⟨?_, fun first => ?_⟩, fun t done => ⟨?_, ?_, ?_⟩⟩
  · rintro ⟨t, done⟩
    exact Machine.indexable_of_prepare done
  · exact Machine.prepare_indexable unnoted indexable depth
  · rintro ⟨t, failed⟩
    exact Machine.prepare_rejects unnoted failed
  · cases prepared : (Machine.standard depth).prepare ⟨p, remarks⟩ with
    | ok u t =>
      obtain ⟨id, r, k, found, first, -⟩ := first
      have indexable := Machine.indexable_of_prepare prepared r (List.mem_of_getElem? found)
      exact absurd first.1 (Routine.indexable_iff.mp indexable k e)
    | error e' t =>
      obtain rfl := first.unique (Machine.prepare_rejects unnoted prepared)
      exact ⟨t, rfl⟩
  · exact (Machine.prepare_keeps (e := .emptyStack) (.inl done)).code
  · refine listing_blocks fun r member => ?_
    have prepared : t.program.Prepared := ⟨depth, _, t, done, rfl⟩
    obtain ⟨id, found⟩ := List.mem_iff_getElem?.mp member
    obtain ⟨table, noted, collected⟩ := prepared.labelled (routine_eq_ok_iff.mpr found)
    have holds := labelTable_lookup collected
    exact ⟨table, noted, holds, Routine.shownAs_listing holds⟩
  · intro limit s f below r i executes
    have prepared : t.program.Prepared := ⟨depth, _, t, done, rfl⟩
    refine ⟨fun label jumps named => ⟨fun absent => ?_, fun k there => ?_⟩,
      fun opcode untaken => ?_⟩
    · rw [executes.attempt_jump jumps, named, ok_bind,
        target_eq_error (prepared.labelled executes.found) absent]
    · refine ⟨_, ?_, rfl, executes.attempt_landing there limit (s.dispatched + 1)⟩
      rw [executes.attempt_jump jumps, named, ok_bind,
        (prepared.target_eq_ok_iff executes.found).mpr there]
    · exact executes.attempt_passing (.inr ⟨opcode, untaken⟩) limit

theorem Program.labels_resolve_factorial :
    let fork : Routine := ⟨"fork", [
      { opcode := labelOpcode, payload := .name "base" },
      { opcode := "jump-to", payload := .name "end" },
      { opcode := labelOpcode, payload := .name "base" },
      { opcode := labelOpcode, payload := .int 1 }], {}⟩
    (∀ r ∈ Demo.factorial.routines ++ [fork], r.notes.get? labelKey = none) ∧
      (∃ t, (Machine.standard 8).prepare ⟨⟨Demo.factorial.routines ++ [fork], {}⟩, []⟩ =
        .error (.duplicateLabel "fork" "base") t) ∧
      ∃ t, (Machine.standard 8).prepare ⟨⟨Demo.factorial.routines, {}⟩, []⟩ = .ok () t ∧
        t.program.bare = ⟨Demo.factorial.routines, {}⟩ := by
  intro fork
  have unnoted : ∀ r ∈ Demo.factorial.routines ++ [fork], r.notes.get? labelKey = none := by decide
  have indexable : ∀ r ∈ Demo.factorial.routines, r.Indexable := by
    intro r member
    obtain ⟨table, collected⟩ : ∃ table, labelTable r = .ok table := by
      obtain rfl | rfl : r = _ ∨ r = _ := by simpa [Demo.factorial] using member
      · exact ⟨_, rfl⟩
      · exact ⟨_, rfl⟩
    exact Routine.exists_labelTable_iff.mp ⟨table, collected⟩
  obtain ⟨-, fails, -⟩ := labels_resolve (p := ⟨Demo.factorial.routines ++ [fork], {}⟩) unnoted 8 []
  obtain ⟨succeeds, -, leaves⟩ := labels_resolve (p := ⟨Demo.factorial.routines, {}⟩)
    (fun r member => unnoted r (List.mem_append_left _ member)) 8 []
  obtain ⟨t, done⟩ := succeeds.mpr indexable
  refine ⟨unnoted, (fails _).mpr ?_, t, done, (leaves t done).1⟩
  obtain ⟨k, first⟩ : ∃ k, fork.FirstRejects k (.duplicateLabel "fork" "base") :=
    Routine.firstRejects_of_error rfl
  refine ⟨2, fork, k, rfl, first, fun j below r found => ?_⟩
  have inside : j < Demo.factorial.routines.length := below
  exact indexable r (List.mem_of_getElem? ((List.getElem?_append_left inside).symm.trans found))

end RegisterMachine
