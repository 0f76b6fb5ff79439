import RegisterMachine.Proofs.Encoding
import RegisterMachine.Proofs.Recognition

/-!
Decoding. What decodes is a phrase of the grammar with anything behind it, provided that names are
distinct; what is cut off a phrase at its end is missed before anything else is. So encodings can be
read back, from the front of any bytes, and none of them is the beginning of another.
-/

namespace RegisterMachine

/-- The function without its notes. -/
def Routine.bare (r : Routine) : Routine := { name := r.name, body := r.body }

def Program.bare (p : Program) : Program := { routines := p.routines.map Routine.bare }

section Bare

variable {p : Program}

theorem Routine.bare_eq_iff {r : Routine} : r.bare = r ↔ r.notes = {} := by
  cases r
  simp [Routine.bare, eq_comm]

theorem Program.bare_eq_iff : p.bare = p ↔ p.notes = {} ∧ ∀ r ∈ p.routines, r.notes = {} := by
  have each (rs : List Routine) : rs.map Routine.bare = rs ↔ ∀ r ∈ rs, r.bare = r := by
    simpa using List.map_eq_map_iff (l := rs) (f := Routine.bare) (g := id)
  cases p
  simp only [Program.bare, Program.mk.injEq, each, Routine.bare_eq_iff]
  rw [and_comm, eq_comm]

theorem Program.ofRoutines_eq_ok_iff {rs : List Routine} :
    Program.ofRoutines rs = .ok p ↔ (rs.map Routine.name).Nodup ∧ p = { routines := rs } := by
  rw [← repeated?_eq_none_iff, ofRoutines]
  cases repeated? (rs.map Routine.name) <;> simp [eq_comm]

theorem Program.ofRoutines_eq_error_iff {rs : List Routine} {e : Fault} :
    Program.ofRoutines rs = .error e ↔ ∃ before name after,
      rs.map Routine.name = before ++ name :: after ∧ before.Nodup ∧ name ∈ before ∧
        e = .duplicateRoutine name := by
  constructor
  · intro refused
    unfold ofRoutines at refused
    split at refused
    · next name again =>
      obtain ⟨before, after, names, distinct, member⟩ := (repeated?_eq_some_iff _ _).mp again
      exact ⟨before, name, after, names, distinct, member, (Except.error.inj refused).symm⟩
    · cases refused
  · rintro ⟨before, name, after, names, distinct, member, rfl⟩
    have again := (repeated?_eq_some_iff _ name).mpr ⟨before, after, names, distinct, member⟩
    simp only [ofRoutines, again]

theorem Program.names_bare (p : Program) :
    p.bare.routines.map Routine.name = p.routines.map Routine.name := by
  simp [Program.bare, Routine.bare]

theorem Program.notes_bare (p : Program) : ∀ r ∈ p.bare.routines, r.notes = {} := by
  simp [Program.bare, Routine.bare]

end Bare

namespace Wire

namespace Grammar

variable {α β : Type} {P : α → Phrases} {e : List UInt8}

theorem items_and {c : α → Prop} {xs : List α} :
    items (fun x e => c x ∧ P x e) xs e ↔ (∀ x ∈ xs, c x) ∧ items P xs e := by
  induction xs generalizing e with
  | nil => simp [items]
  | cons x xs ih =>
    have tail : items (fun x e => c x ∧ P x e) xs = fun e => (∀ x ∈ xs, c x) ∧ items P xs e :=
      funext fun e => propext ih
    simp only [items, tail, and_chain, chain_and, List.forall_mem_cons, and_assoc, and_left_comm]

theorem items_map {f : β → α} {xs : List β} : items P (xs.map f) = items (fun x => P (f x)) xs := by
  induction xs with
  | nil => rfl
  | cons x xs ih => rw [List.map_cons, items, items, ih]

theorem program_bare (p : Program) : program p.bare = program p := by
  simp only [program, Program.bare, list, items_map, List.length_map]
  rfl

theorem recognizes_routines :
    Recognizes Read.routines fun rs e => (∀ r ∈ rs, r.notes = {}) ∧ list routine rs e :=
  (recognizes_list recognizes_routine).congr fun rs e => by
    have each : items (fun r e => r.notes = {} ∧ routine r e) rs =
        fun e => (∀ r ∈ rs, r.notes = {}) ∧ items routine rs e :=
      funext fun e => propext items_and
    simp only [list, each, chain_and]

end Grammar

section Decoding

variable {p : Program} {input e rest : List UInt8}

theorem program_bare (p : Program) : program p.bare = program p := by
  simp only [program, list, Program.bare, List.length_map, List.flatMap_map]
  rfl

theorem decode_eq_ok :
    decode input = .ok p ↔ ∃ rs rest, Read.routines input = .ok (rs, rest) ∧
      (rs.map Routine.name).Nodup ∧ p = { routines := rs } := by
  unfold decode
  cases Read.routines input with
  | error d => simp
  | ok read =>
    obtain ⟨rs, rest⟩ := read
    simp only [Except.ok.injEq, Prod.mk.injEq, ← Program.ofRoutines_eq_ok_iff, exists_eq_left',
      and_assoc, exists_and_left]
    cases Program.ofRoutines rs <;> simp

theorem phrase_of_decode (decoded : decode input = .ok p) :
    p.bare = p ∧ (p.routines.map Routine.name).Nodup ∧ ∃ e, e <+: input ∧ Grammar.program p e := by
  obtain ⟨rs, rest, read, distinct, rfl⟩ := decode_eq_ok.mp decoded
  obtain ⟨e, rfl, bare, phrase⟩ := Grammar.recognizes_routines.sound read
  exact ⟨Program.bare_eq_iff.mpr ⟨rfl, bare⟩, distinct, e, List.prefix_append e rest, phrase⟩

theorem read_phrase (rest : List UInt8) (phrase : Grammar.program p e) :
    Read.routines (e ++ rest) = .ok (p.bare.routines, rest) := by
  rw [← Grammar.program_bare] at phrase
  exact Grammar.recognizes_routines.whole rest ⟨p.notes_bare, phrase⟩

theorem decode_phrase (rest : List UInt8) (distinct : (p.routines.map Routine.name).Nodup)
    (phrase : Grammar.program p e) : decode (e ++ rest) = .ok p.bare :=
  decode_eq_ok.mpr ⟨_, rest, read_phrase rest phrase, p.names_bare ▸ distinct, rfl⟩

theorem decode_repeated (rest : List UInt8) (repeated : ¬(p.routines.map Routine.name).Nodup)
    (phrase : Grammar.program p e) : decode (e ++ rest) = .error .rejected := by
  rw [← Program.names_bare] at repeated
  cases built : Program.ofRoutines p.bare.routines with
  | ok q => exact absurd (Program.ofRoutines_eq_ok_iff.mp built).1 repeated
  | error fault => simp only [decode, read_phrase rest phrase, built]

theorem decode_cut (phrase : Grammar.program p (e ++ rest)) (more : rest ≠ []) :
    decode e = .error .endOfInput := by
  rw [← Grammar.program_bare] at phrase
  rw [decode, Grammar.recognizes_routines.cut ⟨p.notes_bare, phrase⟩ more]

theorem decode_program (buildable : p.Buildable) (rest : List UInt8) :
    decode (program p ++ rest) = .ok p.bare :=
  decode_phrase rest buildable.distinct (program_phrase buildable)

theorem decode_strict_prefix (buildable : p.Buildable) (before : e <+: program p)
    (cut : e ≠ program p) : decode e = .error .endOfInput := by
  obtain ⟨rest, whole⟩ := before
  refine decode_cut (whole ▸ program_phrase buildable) ?_
  rintro rfl
  exact cut (List.append_nil e ▸ whole)

theorem bare_eq_of_program_eq {other : Program} (buildable : p.Buildable) (also : other.Buildable)
    (same : program other = program p) : other.bare = p.bare := by
  have here := decode_program buildable []
  have there := decode_program also []
  rw [same, here] at there
  exact (Except.ok.inj there).symm

/-- Decoding accepts the phrases of programs with distinct names, gives programs without notes, and
does not look at what follows. No phrase of what it gives is shorter than the encoding, or than the
program has parts. -/
theorem decode_eq_ok_iff (input : List UInt8) (p : Program) :
    (decode input = .ok p ↔ p.bare = p ∧ (p.routines.map Routine.name).Nodup ∧
      ∃ e, e <+: input ∧ Grammar.program p e) ∧
    (decode input = .ok p → ∀ e, Grammar.program p e →
      (program p).length ≤ e.length ∧ decode (program p) = .ok p ∧ p.parts ≤ e.length) := by
  refine ⟨⟨phrase_of_decode, ?_⟩, fun decoded e phrase => ?_⟩
  · rintro ⟨bare, distinct, e, ⟨rest, rfl⟩, phrase⟩
    rw [decode_phrase rest distinct phrase, bare]
  · obtain ⟨bare, distinct, -⟩ := phrase_of_decode decoded
    have encodes := encodes_program p
    have again := decode_phrase [] distinct (encodes.phrase (encodes.necessary phrase))
    rw [List.append_nil, bare] at again
    exact ⟨encodes.least phrase, again, parts_le_length phrase⟩

theorem decode_padded :
    let p : Program := { routines := [{
      name := "é"
      body := [{ opcode := "f", inputs := [300], output := some 0, payload := .bool true }] }] }
    let padded : List UInt8 :=
      [129, 0, 2, 195, 169, 1, 129, 0, 102, 1, 172, 130, 0, 1, 128, 0, 132, 0, 1]
    decode (padded ++ [255]) = .ok p ∧ ∃ e, e <+: padded ++ [255] ∧ Grammar.program p e ∧
      (program p).length ≤ e.length ∧ decode (program p) = .ok p ∧ p.parts ≤ e.length := by
  intro p padded
  have decoded : decode (padded ++ [255]) = .ok p := rfl
  obtain ⟨accepts, lean⟩ := decode_eq_ok_iff (padded ++ [255]) p
  obtain ⟨-, -, e, front, phrase⟩ := accepts.mp decoded
  exact ⟨decoded, e, front, phrase, lean decoded e phrase⟩

end Decoding

end Wire

end RegisterMachine
