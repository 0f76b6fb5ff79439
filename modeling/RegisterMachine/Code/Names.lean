/-!
Lists of names that have to be distinct.
-/

namespace RegisterMachine

/-- The first name that was met before, in a list read from the left. -/
def firstRepeat? (seen : List String) : List String → Option String
  | [] => none
  | n :: rest => if n ∈ seen then some n else firstRepeat? (n :: seen) rest

theorem firstRepeat?_eq_none_iff (seen names : List String) :
    firstRepeat? seen names = none ↔ names.Nodup ∧ ∀ n ∈ names, n ∉ seen := by
  induction names generalizing seen with
  | nil => simp [firstRepeat?]
  | cons n rest ih =>
    by_cases h : n ∈ seen
    · simp [firstRepeat?, h]
    · simp only [firstRepeat?, h, if_false, ih, List.nodup_cons, List.mem_cons, not_or]
      constructor
      · rintro ⟨hd, hs⟩
        exact ⟨⟨fun hm => (hs n hm).1 rfl, hd⟩, by
          rintro m (rfl | hm)
          · exact h
          · exact (hs m hm).2⟩
      · rintro ⟨⟨hn, hd⟩, hs⟩
        exact ⟨hd, fun m hm => ⟨fun e => hn (e ▸ hm), hs m (.inr hm)⟩⟩

theorem firstRepeat?_eq_some_iff (seen names : List String) (n : String) :
    firstRepeat? seen names = some n ↔ ∃ before after, names = before ++ n :: after ∧
      before.Nodup ∧ (∀ m ∈ before, m ∉ seen) ∧ (n ∈ before ∨ n ∈ seen) := by
  induction names generalizing seen with
  | nil => simp [firstRepeat?]
  | cons first rest ih =>
    simp only [List.cons_eq_append_iff]
    by_cases h : first ∈ seen
    · simp only [firstRepeat?, h, if_true, Option.some.injEq]
      constructor
      · rintro rfl
        exact ⟨[], rest, .inl ⟨rfl, rfl⟩, .nil, by simp, .inr h⟩
      · rintro ⟨before, after, ⟨rfl, same⟩ | ⟨tail, rfl, -⟩, -, unseen, -⟩
        · exact (List.cons.inj same).1.symm
        · exact absurd h (unseen first List.mem_cons_self)
    · simp only [firstRepeat?, h, if_false, ih]
      constructor
      · rintro ⟨before, after, rfl, distinct, unseen, again⟩
        have apart : ∀ m ∈ before, m ≠ first ∧ m ∉ seen := by simpa using unseen
        refine ⟨first :: before, after, .inr ⟨before, rfl, rfl⟩, ?_, ?_, ?_⟩
        · exact List.nodup_cons.mpr ⟨fun member => (apart first member).1 rfl, distinct⟩
        · exact List.forall_mem_cons.mpr ⟨h, fun m member => (apart m member).2⟩
        · simpa [or_assoc, or_left_comm] using again
      · rintro ⟨before, after, ⟨rfl, same⟩ | ⟨tail, rfl, rfl⟩, distinct, unseen, again⟩
        · obtain ⟨rfl, -⟩ := List.cons.inj same
          exact absurd (again.resolve_left List.not_mem_nil) h
        · obtain ⟨new, distinct⟩ := List.nodup_cons.mp distinct
          obtain ⟨-, unseen⟩ := List.forall_mem_cons.mp unseen
          refine ⟨tail, after, rfl, distinct, fun m member => ?_, ?_⟩
          · rw [List.mem_cons, not_or]
            exact ⟨fun same => new (same ▸ member), unseen m member⟩
          · simpa [or_assoc, or_left_comm] using again

def repeated? (names : List String) : Option String := firstRepeat? [] names

theorem repeated?_eq_none_iff (names : List String) : repeated? names = none ↔ names.Nodup := by
  simp [repeated?, firstRepeat?_eq_none_iff]

theorem repeated?_eq_some_iff (names : List String) (n : String) :
    repeated? names = some n ↔
      ∃ before after, names = before ++ n :: after ∧ before.Nodup ∧ n ∈ before := by
  simp [repeated?, firstRepeat?_eq_some_iff]

end RegisterMachine
