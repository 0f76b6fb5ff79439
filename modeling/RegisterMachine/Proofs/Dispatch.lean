import RegisterMachine.Opcodes.Probe
import RegisterMachine.Proofs.Step
import Mathlib.Data.List.Nodup
import Mathlib.Data.String.Basic

/-!
The handlers of a machine are those of its extensions, each under its full opcode. Since no opcode
is there twice, a handler that is listed is the one that answers, in whatever order the extensions
come; and the first opcode that is there twice is what keeps a machine from being assembled.
-/

namespace RegisterMachine

namespace Text

theorem lead_lt {a b : Nat} (less : a < b) (fits : b < 256) (xs ys : List UInt8) :
    UInt8.ofNat a :: xs < UInt8.ofNat b :: ys := by
  refine List.cons_lt_cons_iff.mpr (.inl ?_)
  rw [UInt8.lt_iff_toNat_lt, UInt8.toNat_ofNat', UInt8.toNat_ofNat']
  omega

theorem digit_lt {v w : Nat} {p q : List UInt8} (less : v < w)
    (higher : v / 64 < w / 64 → ∀ xs ys, p ++ xs < q ++ ys) (same : v / 64 = w / 64 → p = q)
    (xs ys : List UInt8) :
    p ++ UInt8.ofNat (v % 64 + 128) :: xs < q ++ UInt8.ofNat (w % 64 + 128) :: ys := by
  by_cases apart : v / 64 < w / 64
  · exact higher apart _ _
  · rw [same (by omega)]
    exact List.append_left_lt (lead_lt (by omega) (by omega) xs ys)

theorem utf8EncodeChar_cases (c : Char) :
    c.toNat < 128 ∧ String.utf8EncodeChar c = [UInt8.ofNat c.toNat] ∨
      128 ≤ c.toNat ∧ c.toNat < 2048 ∧ String.utf8EncodeChar c =
        [UInt8.ofNat (c.toNat / 64 % 32 + 192), UInt8.ofNat (c.toNat % 64 + 128)] ∨
      2048 ≤ c.toNat ∧ c.toNat < 65536 ∧ String.utf8EncodeChar c =
        [UInt8.ofNat (c.toNat / 64 / 64 % 16 + 224), UInt8.ofNat (c.toNat / 64 % 64 + 128),
          UInt8.ofNat (c.toNat % 64 + 128)] ∨
      65536 ≤ c.toNat ∧ c.toNat < 1114112 ∧ String.utf8EncodeChar c =
        [UInt8.ofNat (c.toNat / 64 / 64 / 64 % 8 + 240), UInt8.ofNat (c.toNat / 64 / 64 % 64 + 128),
          UInt8.ofNat (c.toNat / 64 % 64 + 128), UInt8.ofNat (c.toNat % 64 + 128)] := by
  have valid := c.valid
  simp only [UInt32.isValidChar, Nat.isValidChar] at valid
  simp only [String.utf8EncodeChar, Char.toNat, Nat.div_div_eq_div_mul]
  by_cases one : c.val.toNat ≤ 127
  · exact .inl ⟨by omega, if_pos one⟩
  by_cases two : c.val.toNat ≤ 2047
  · exact .inr (.inl ⟨by omega, by omega, by simp only [one, two, if_true, if_false]⟩)
  by_cases three : c.val.toNat ≤ 65535
  · exact .inr (.inr (.inl ⟨by omega, by omega, by simp only [one, two, three, if_true, if_false]⟩))
  · exact .inr (.inr (.inr ⟨by omega, by omega, by simp only [one, two, three, if_false]⟩))

theorem utf8EncodeChar_append_lt {c d : Char} (smaller : c < d) (xs ys : List UInt8) :
    String.utf8EncodeChar c ++ xs < String.utf8EncodeChar d ++ ys := by
  have less : c.toNat < d.toNat := smaller
  -- the first byte tells how many there are, so only characters of one length go by their digits
  obtain ⟨above, first⟩ | ⟨below, above, first⟩ | ⟨below, above, first⟩ | ⟨below, above, first⟩ :=
      utf8EncodeChar_cases c <;>
    obtain ⟨under, second⟩ | ⟨past, under, second⟩ | ⟨past, under, second⟩ | ⟨past, under, second⟩ :=
      utf8EncodeChar_cases d <;>
    rw [first, second]
  · exact lead_lt less (by omega) _ _
  · exact lead_lt (by omega) (by omega) _ _
  · exact lead_lt (by omega) (by omega) _ _
  · exact lead_lt (by omega) (by omega) _ _
  · omega
  · exact digit_lt (p := [_]) (q := [_]) less (fun higher => lead_lt (by omega) (by omega))
      (fun same => by rw [same]) xs ys
  · exact lead_lt (by omega) (by omega) _ _
  · exact lead_lt (by omega) (by omega) _ _
  · omega
  · omega
  · exact digit_lt (p := [_, _]) (q := [_, _]) less
      (fun higher => digit_lt (p := [_]) (q := [_]) higher
        (fun higher => lead_lt (by omega) (by omega)) fun same => by rw [same])
      (fun same => by rw [same]) xs ys
  · exact lead_lt (by omega) (by omega) _ _
  · omega
  · omega
  · omega
  · exact digit_lt (p := [_, _, _]) (q := [_, _, _]) less
      (fun higher => digit_lt (p := [_, _]) (q := [_, _]) higher
        (fun higher => digit_lt (p := [_]) (q := [_]) higher
          (fun higher => lead_lt (by omega) (by omega)) fun same => by rw [same])
        fun same => by rw [same])
      (fun same => by rw [same]) xs ys

theorem bytes_eq (s : String) : s.toUTF8.data.toList = s.toList.flatMap String.utf8EncodeChar := by
  rw [String.toUTF8_eq_toByteArray, ← String.utf8Encode_toList, List.utf8Encode,
    List.data_toByteArray]

theorem bytes_lt {s t : String} (smaller : s < t) :
    s.toUTF8.data.toList < t.toUTF8.data.toList := by
  rw [bytes_eq, bytes_eq]
  replace smaller : List.Lex (· < ·) s.toList t.toList := smaller
  generalize s.toList = xs at smaller
  generalize t.toList = ys at smaller
  induction smaller with
  | @nil c rest =>
    obtain ⟨b, bs, bytes⟩ := List.exists_cons_of_ne_nil (String.utf8EncodeChar_ne_nil (c := c))
    rw [List.flatMap_cons, bytes]
    exact List.nil_lt_cons b _
  | rel less => exact utf8EncodeChar_append_lt less _ _
  | cons _ ih => exact List.append_left_lt ih

end Text

section Tables

variable {β : Type} {table other : List (String × β)} {key : String} {b : β}

theorem lookup_eq_some_iff_mem (distinct : (table.map Prod.fst).Nodup) :
    table.lookup key = some b ↔ (key, b) ∈ table := by
  rw [List.lookup_eq_some_iff]
  constructor
  · rintro ⟨before, after, rfl, -⟩
    simp
  · intro member
    obtain ⟨before, after, rfl⟩ := List.append_of_mem member
    refine ⟨before, after, rfl, fun entry earlier => ?_⟩
    rw [List.map_append, List.map_cons, List.nodup_middle, List.nodup_cons] at distinct
    rw [bne_iff_ne]
    intro same
    exact distinct.1 (List.mem_append_left _ (List.mem_map.mpr ⟨entry, earlier, same.symm⟩))

theorem lookup_eq_of_perm (distinct : (table.map Prod.fst).Nodup) (same : other.Perm table)
    (key : String) : other.lookup key = table.lookup key := by
  have also : (other.map Prod.fst).Nodup := (same.map Prod.fst).nodup_iff.mpr distinct
  refine Option.ext fun b => ?_
  rw [lookup_eq_some_iff_mem distinct, lookup_eq_some_iff_mem also, same.mem_iff]

end Tables

namespace Machine

variable {extensions : List Extension} {depth : Nat} {m : Machine} {e : Fault}

theorem map_fst_tables (extensions : List Extension) :
    (extensions.flatMap Extension.table).map Prod.fst = extensions.flatMap Extension.opcodes := by
  rw [List.map_flatMap]
  exact List.flatMap_congr fun x _ => x.map_fst_table

theorem assemble_eq_ok_iff : assemble extensions depth = .ok m ↔
    (extensions.flatMap Extension.opcodes).Nodup ∧ m = {
      handlers := extensions.flatMap Extension.table
      routineHooks := extensions.flatMap Extension.routineHooks
      programHooks := extensions.flatMap Extension.programHooks
      maxDepth := depth } := by
  simp only [assemble, map_fst_tables, ← repeated?_eq_none_iff]
  cases repeated? (extensions.flatMap Extension.opcodes) <;> simp [eq_comm]

theorem assemble_eq_error_iff : assemble extensions depth = .error e ↔
    ∃ opcode, repeated? (extensions.flatMap Extension.opcodes) = some opcode ∧
      e = .duplicateOpcode opcode := by
  simp only [assemble, map_fst_tables]
  cases repeated? (extensions.flatMap Extension.opcodes) <;> simp [eq_comm]

theorem mem_opcodes {opcode : String} : opcode ∈ m.opcodes ↔ opcode ∈ m.handlers.map Prod.fst :=
  List.mem_mergeSort

theorem has_iff {opcode : String} : m.has opcode = true ↔ opcode ∈ m.handlers.map Prod.fst := by
  rw [has, handler?, List.lookup_isSome_iff, List.mem_map]
  exact exists_congr fun entry => and_congr_right fun _ => beq_iff_eq.trans eq_comm

theorem opcodes_increase (distinct : (m.handlers.map Prod.fst).Nodup) :
    m.opcodes.Pairwise fun a b => a.toUTF8.data.toList < b.toUTF8.data.toList := by
  have sorted : m.opcodes.Pairwise fun a b => decide (a ≤ b) = true :=
    List.pairwise_mergeSort (fun a b c => by simpa using le_trans) (fun a b => by
      simpa using le_total a b) _
  have apart : m.opcodes.Nodup := (List.mergeSort_perm _ _).nodup_iff.mpr distinct
  refine (sorted.and apart).imp fun both => ?_
  exact Text.bytes_lt (lt_of_le_of_ne (of_decide_eq_true both.1) both.2)

end Machine

/-- `shuffled` are the same extensions in another order, each with its handlers in another order. -/
def Extension.Reordered (extensions shuffled : List Extension) : Prop :=
  ∃ arranged, extensions.Perm arranged ∧ List.Forall₂ (fun x y : Extension =>
    y.family = x.family ∧ y.handlers.Perm x.handlers) arranged shuffled

theorem Extension.Reordered.tables {extensions shuffled : List Extension}
    (reordered : Reordered extensions shuffled) :
    (shuffled.flatMap table).Perm (extensions.flatMap table) := by
  obtain ⟨arranged, same, within⟩ := reordered
  refine List.Perm.trans ?_ (same.flatMap_right table).symm
  clear same
  induction within with
  | nil => exact .nil
  | @cons x y _ _ alike _ ih =>
    have tables : y.table.Perm x.table := by
      have opcodes : y.opcode = x.opcode := funext fun name => by rw [opcode, opcode, alike.1]
      rw [table, table, opcodes]
      exact alike.2.map _
    rw [List.flatMap_cons, List.flatMap_cons]
    exact tables.append ih

namespace Machine

variable {extensions : List Extension} {depth : Nat} {m : Machine}

theorem exists_assemble_iff : (∃ m, assemble extensions depth = .ok m) ↔
    ((extensions.flatMap Extension.table).map Prod.fst).Nodup := by
  simp only [assemble_eq_ok_iff, map_fst_tables]
  exact ⟨fun ⟨m, distinct, _⟩ => distinct, fun distinct => ⟨_, distinct, rfl⟩⟩

theorem handlers_of_assemble (assembled : assemble extensions depth = .ok m) :
    m.handlers = extensions.flatMap Extension.table := by
  obtain ⟨-, rfl⟩ := assemble_eq_ok_iff.mp assembled
  rfl

/-- Extensions make a machine if no opcode is in them twice, or else the first repeated one is
named. The machine hands every opcode of theirs to the handler given for it, in whatever order the
extensions and handlers come. -/
theorem assembly (extensions : List Extension) (depth : Nat) :
    let opcodes := extensions.flatMap Extension.opcodes
    ((∃ m, assemble extensions depth = .ok m) ↔ opcodes.Nodup) ∧
      (∀ e, assemble extensions depth = .error e ↔ ∃ before opcode after,
        opcodes = before ++ opcode :: after ∧ before.Nodup ∧ opcode ∈ before ∧
          e = .duplicateOpcode opcode) ∧
      (∀ m, assemble extensions depth = .ok m →
        (∀ opcode, m.has opcode = true ↔ ∃ x ∈ extensions, opcode ∈ x.opcodes) ∧
        (∀ x ∈ extensions, ∀ name handler, (name, handler) ∈ x.handlers →
          ∀ p s f below r i, Executes p s f below r i → i.opcode = x.family ++ "-" ++ name →
            m.attempt p s = match handler p i (s.advance f) with
              | .ok () t => (.ok true, { t with dispatched := t.dispatched + 1 })
              | .error e t => (.error ⟨e, some ⟨r.name, f.pointer, i.opcode⟩⟩, t)) ∧
        (m.opcodes.Pairwise fun a b => a.toUTF8.data.toList < b.toUTF8.data.toList) ∧
        ∀ opcode, opcode ∈ m.opcodes ↔ ∃ x ∈ extensions, opcode ∈ x.opcodes) ∧
      ∀ shuffled limit, Extension.Reordered extensions shuffled →
        ((∃ m, assemble shuffled limit = .ok m) ↔ ∃ m, assemble extensions depth = .ok m) ∧
        ∀ m m', assemble extensions depth = .ok m → assemble shuffled limit = .ok m' →
          ∀ opcode, m'.handler? opcode = m.handler? opcode := by
  intro opcodes
  refine ⟨?_, fun e => ?_, fun m assembled => ?_, fun shuffled limit reordered => ⟨?_, ?_⟩⟩
  · rw [exists_assemble_iff, map_fst_tables]
  · rw [assemble_eq_error_iff]
    simp only [repeated?_eq_some_iff]
    constructor
    · rintro ⟨opcode, ⟨before, after, split, distinct, again⟩, rfl⟩
      exact ⟨before, opcode, after, split, distinct, again, rfl⟩
    · rintro ⟨before, opcode, after, split, distinct, again, rfl⟩
      exact ⟨opcode, ⟨before, after, split, distinct, again⟩, rfl⟩
  · have distinct := exists_assemble_iff.mp ⟨m, assembled⟩
    have handlers := handlers_of_assemble assembled
    have listed (opcode : String) : opcode ∈ m.handlers.map Prod.fst ↔
        ∃ x ∈ extensions, opcode ∈ x.opcodes := by
      rw [handlers, map_fst_tables, List.mem_flatMap]
    refine ⟨fun opcode => has_iff.trans (listed opcode), ?_, ?_,
      fun opcode => mem_opcodes.trans (listed opcode)⟩
    · intro x member name handler given p s f below r i executes fetched
      refine executes.attempt_handler ?_
      rw [handler?, handlers, fetched, lookup_eq_some_iff_mem distinct, List.mem_flatMap]
      exact ⟨x, member, List.mem_map_of_mem given⟩
    · exact opcodes_increase (handlers ▸ distinct)
  · rw [exists_assemble_iff, exists_assemble_iff]
    exact (reordered.tables.map Prod.fst).nodup_iff
  · intro m m' assembled also opcode
    rw [handler?, handler?, handlers_of_assemble assembled, handlers_of_assemble also]
    exact lookup_eq_of_perm (exists_assemble_iff.mp ⟨m, assembled⟩) reordered.tables opcode

theorem assembly_of_overlapping_families :
    let long : Extension := ⟨"long", [("scale-2", Probe.scale 2), ("", Probe.noop)], [], []⟩
    let turned : Extension := ⟨"long", [("", Probe.noop), ("scale-2", Probe.scale 2)], [], []⟩
    let scale : Extension := ⟨"long-scale", [("3", Probe.scale 3)], [], []⟩
    ∃ m m', assemble [long, scale] 8 = .ok m ∧ assemble [scale, turned] 9 = .ok m' ∧
      m.has "long-scale-2" = true ∧ m.has "long-scale" = false ∧
      m'.handler? "long-scale-2" = m.handler? "long-scale-2" ∧
      assemble [long, scale, ⟨"long-scale", [("2", Probe.noop)], [], []⟩] 8 =
        .error (.duplicateOpcode "long-scale-2") := by
  intro long turned scale
  obtain ⟨succeeds, -, table, order⟩ := assembly [long, scale] 8
  obtain ⟨m, assembled⟩ := succeeds.mpr (by decide)
  have reordered : Extension.Reordered [long, scale] [scale, turned] :=
    ⟨[scale, long], .swap _ _ _, .cons ⟨rfl, .refl _⟩ (.cons ⟨rfl, .swap _ _ _⟩ .nil)⟩
  obtain ⟨again, alike⟩ := order [scale, turned] 9 reordered
  obtain ⟨m', also⟩ := again.mpr ⟨m, assembled⟩
  obtain ⟨has, -⟩ := table m assembled
  refine ⟨m, m', assembled, also, (has _).mpr ⟨long, by simp, by decide⟩, ?_,
    alike m m' assembled also _, ?_⟩
  · rw [← Bool.not_eq_true, has]
    decide
  · exact ((assembly [long, scale, ⟨"long-scale", [("2", Probe.noop)], [], []⟩] 8).2.1 _).mpr
      ⟨["long-scale-2", "long-", "long-scale-3"], "long-scale-2", [], by decide, by decide,
        by decide, rfl⟩

end Machine

end RegisterMachine
