import RegisterMachine.Proofs.Grammar

/-!
Readers and the grammar. A reader recognizes phrases when it accepts each of them and nothing else,
stops right behind it, and on the beginning of a phrase finds the end of the input before anything
that it could object to. Readers in sequence recognize phrases in sequence, so it is enough to look
at the readers of single bytes and of numbers.
-/

namespace RegisterMachine.Wire

/-- The reader accepts the phrases of a value and leaves what follows them. -/
structure Recognizes {α : Type} (reader : Reader α) (phrases : α → Phrases) : Prop where
  sound : ∀ {input x rest}, reader input = .ok (x, rest) → ∃ e, input = e ++ rest ∧ phrases x e
  whole : ∀ {x e} rest, phrases x e → reader (e ++ rest) = .ok (x, rest)
  cut : ∀ {x e rest}, phrases x (e ++ rest) → rest ≠ [] → reader e = .error .endOfInput

namespace Reader

variable {α β : Type}

theorem bind_run (first : Reader α) (next : α → Reader β) (input : List UInt8) :
    (first >>= next) input = match first input with
      | .ok (x, rest) => next x rest
      | .error d => .error d := by
  change (first input >>= fun a => next a.1 a.2) = _
  cases first input <;> rfl

theorem map_eq_bind (f : α → β) (reader : Reader α) :
    f <$> reader = reader >>= fun x => pure (f x) := rfl

end Reader

namespace Recognizes

variable {α β : Type} {reader : Reader α} {P R : α → Phrases}

theorem congr (recognizes : Recognizes reader P) (same : ∀ x e, P x e ↔ R x e) :
    Recognizes reader R where
  sound ran := by
    obtain ⟨e, split, phrase⟩ := recognizes.sound ran
    exact ⟨e, split, (same _ e).mp phrase⟩
  whole rest phrase := recognizes.whole rest ((same _ _).mpr phrase)
  cut phrase more := recognizes.cut ((same _ _).mpr phrase) more

theorem pure (x : α) : Recognizes (Pure.pure x) fun y e => y = x ∧ e = [] where
  sound ran := by
    obtain ⟨rfl, rfl⟩ := Prod.mk.inj (Except.ok.inj ran)
    exact ⟨[], rfl, rfl, rfl⟩
  whole := by
    rintro y e rest ⟨rfl, rfl⟩
    rfl
  cut := by
    rintro y e rest ⟨-, empty⟩ more
    exact absurd (List.append_eq_nil_iff.mp empty).2 more

theorem throw (d : Defect) : Recognizes (throw d : Reader α) fun _ _ => False where
  sound ran := nomatch ran
  whole _ phrase := phrase.elim
  cut phrase := phrase.elim

theorem bind {next : α → Reader β} {Q : α → β → Phrases} (first : Recognizes reader P)
    (second : ∀ x, Recognizes (next x) (Q x)) :
    Recognizes (reader >>= next) fun y e => ∃ x, Grammar.Chain (P x) (Q x y) e where
  sound {input y rest} ran := by
    rw [Reader.bind_run] at ran
    cases began : reader input with
    | error d => simp [began] at ran
    | ok result =>
      obtain ⟨x, left⟩ := result
      simp only [began] at ran
      obtain ⟨a, rfl, head⟩ := first.sound began
      obtain ⟨b, rfl, tail⟩ := (second x).sound ran
      exact ⟨a ++ b, (List.append_assoc a b rest).symm, x, a, b, rfl, head, tail⟩
  whole := by
    rintro y e rest ⟨x, a, b, rfl, head, tail⟩
    rw [Reader.bind_run, List.append_assoc, first.whole _ head]
    exact (second x).whole rest tail
  cut := by
    rintro y e rest ⟨x, a, b, split, head, tail⟩ more
    rw [Reader.bind_run]
    -- the input ends inside the first phrase or behind it
    obtain ⟨left, inside, rfl⟩ | ⟨begun, rfl, rfl⟩ := List.append_eq_append_iff.mp split
    · by_cases all : left = []
      · subst all
        rw [List.append_nil] at inside
        subst inside
        rw [← List.append_nil a, first.whole [] head]
        exact (second x).cut tail more
      · rw [first.cut (inside ▸ head) all]
    · rw [first.whole begun head]
      exact (second x).cut tail more

theorem map (recognizes : Recognizes reader P) (f : α → β) :
    Recognizes (f <$> reader) fun y e => ∃ x, y = f x ∧ P x e := by
  rw [Reader.map_eq_bind]
  refine (recognizes.bind fun x => .pure (f x)).congr fun y e => exists_congr fun x => ?_
  constructor
  · rintro ⟨a, b, rfl, phrase, rfl, rfl⟩
    exact ⟨rfl, (List.append_nil a).symm ▸ phrase⟩
  · rintro ⟨rfl, phrase⟩
    exact ⟨e, [], (List.append_nil e).symm, phrase, rfl, rfl⟩

end Recognizes

namespace Grammar

theorem recognizes_byte : Recognizes Reader.byte fun b e => e = [b] where
  sound {input b rest} ran := by
    cases input with
    | nil => cases ran
    | cons c input =>
      cases ran
      exact ⟨[b], rfl, rfl⟩
  whole := by
    rintro b _ rest rfl
    rfl
  cut {b e rest} phrase more := by
    cases e with
    | nil => rfl
    | cons c e => simp_all

theorem recognizes_readDigits (last most : Nat) :
    Recognizes (readDigits last most) (Numeral most last) := by
  induction most with
  | zero => exact (Recognizes.throw _).congr fun n e => by simp [not_numeral_zero]
  | succ most ih =>
    have digit (b : UInt8) : Recognizes
        (if b.toNat < 128 then
          if most = 0 ∧ last < b.toNat then throw .badVarint else pure b.toNat
        else do
          let high ← readDigits last most
          pure (b.toNat - 128 + 128 * high))
        fun n e =>
          if b.toNat < 128 then n = b.toNat ∧ e = [] ∧ ¬(most = 0 ∧ last < b.toNat)
          else ∃ high, n = b.toNat - 128 + 128 * high ∧ Numeral most last high e := by
      by_cases low : b.toNat < 128
      · by_cases beyond : most = 0 ∧ last < b.toNat
        · simp only [low, beyond, if_true]
          exact (Recognizes.throw _).congr fun n e => by simp
        · simp only [low, beyond, if_true, if_false]
          exact (Recognizes.pure _).congr fun n e => by simp
      · simp only [low, if_false]
        exact (ih.bind fun high => .pure _).congr fun n e => by simp
    exact (recognizes_byte.bind digit).congr fun n e => by
      simp only [exact_chain, numeral_succ_iff, List.singleton_append]

theorem recognizes_number64 : Recognizes Width.word64.read number64 := recognizes_readDigits 1 10

theorem recognizes_number32 : Recognizes Width.word32.read number32 := recognizes_readDigits 15 5

section Lists

variable {α : Type} {item : Reader α} {P : α → Phrases}

theorem recognizes_times (each : Recognizes item P) (n : Nat) :
    Recognizes (Reader.times item n) fun xs e => xs.length = n ∧ items P xs e := by
  induction n with
  | zero =>
    refine (Recognizes.pure []).congr fun xs e => ?_
    cases xs <;> simp [items]
  | succ n ih =>
    refine (each.bind fun x => ih.bind fun xs => .pure (x :: xs)).congr fun xs e => ?_
    simp only [chain_and, chain_exists, chain_nil]
    cases xs <;> simp [items, and_assoc]

theorem recognizes_list (each : Recognizes item P) : Recognizes (Read.list item) (list P) := by
  refine (recognizes_number64.bind fun n => recognizes_times each n).congr fun xs e => ?_
  simp [list]

theorem toNat_eq_zero_iff {b : UInt8} : b.toNat = 0 ↔ b = 0 := UInt8.toNat_inj (b := 0)

theorem toNat_eq_one_iff {b : UInt8} : b.toNat = 1 ↔ b = 1 := UInt8.toNat_inj (b := 1)

theorem recognizes_tagged (each : Recognizes item P) (tag : Nat) : Recognizes
    (match tag with
      | 0 => pure none
      | 1 => some <$> item
      | _ => throw .badOption : Reader (Option α))
    fun x e => match x with
      | none => tag = 0 ∧ e = []
      | some x => tag = 1 ∧ P x e := by
  match tag with
  | 0 => exact (Recognizes.pure none).congr fun x e => by cases x <;> simp
  | 1 => exact (each.map some).congr fun x e => by cases x <;> simp
  | tag + 2 => exact (Recognizes.throw _).congr fun x e => by cases x <;> simp

theorem recognizes_option (each : Recognizes item P) :
    Recognizes (Read.option item) (option P) := by
  refine (recognizes_byte.bind fun b => recognizes_tagged each b.toNat).congr fun x e => ?_
  cases x <;> simp [option, toNat_eq_zero_iff, toNat_eq_one_iff]

end Lists

theorem recognizes_truth (tag : Nat) : Recognizes
    (match tag with
      | 0 => pure false
      | 1 => pure true
      | _ => throw .badBool : Reader Bool)
    fun v e => tag = (if v then 1 else 0) ∧ e = [] := by
  match tag with
  | 0 => exact (Recognizes.pure false).congr fun v e => by cases v <;> simp
  | 1 => exact (Recognizes.pure true).congr fun v e => by cases v <;> simp
  | tag + 2 => exact (Recognizes.throw _).congr fun v e => by cases v <;> simp

theorem recognizes_bool : Recognizes Read.bool fun v e => e = [if v then 1 else 0] := by
  refine (recognizes_byte.bind fun b => recognizes_truth b.toNat).congr fun v e => ?_
  cases v <;> simp [toNat_eq_zero_iff, toNat_eq_one_iff]

theorem items_bytes {bytes e : List UInt8} : items (fun b e => e = [b]) bytes e ↔ e = bytes := by
  induction bytes generalizing e with
  | nil => rfl
  | cons b rest ih => simp [items, ih]

theorem recognizes_block (n : Nat) :
    Recognizes (Reader.block n) fun bytes e => bytes.length = n ∧ e = bytes :=
  (recognizes_times recognizes_byte n).congr fun _ _ => by rw [items_bytes]

theorem fromUTF8?_eq_some_iff {bytes : ByteArray} {s : String} :
    String.fromUTF8? bytes = some s ↔ bytes = s.toUTF8 := by
  unfold String.fromUTF8?
  constructor
  · intro read
    split at read
    · obtain rfl := Option.some.inj read
      rfl
    · cases read
  · rintro rfl
    exact dif_pos s.isValidUTF8

theorem recognizes_valid (bytes : List UInt8) : Recognizes
    (match String.fromUTF8? ⟨bytes.toArray⟩ with
      | some s => pure s
      | none => throw .badText : Reader String)
    fun s e => bytes = s.toUTF8.data.toList ∧ e = [] := by
  have same (s : String) :
      String.fromUTF8? ⟨bytes.toArray⟩ = some s ↔ bytes = s.toUTF8.data.toList := by
    rw [fromUTF8?_eq_some_iff, ByteArray.ext_iff, ← Array.toList_inj]
  simp only [← same]
  cases String.fromUTF8? ⟨bytes.toArray⟩ with
  | none => exact (Recognizes.throw _).congr fun s e => by simp
  | some s => exact (Recognizes.pure s).congr fun s e => by simp [eq_comm]

theorem recognizes_text : Recognizes Read.text text := by
  refine (recognizes_number64.bind fun n =>
    (recognizes_block n).bind recognizes_valid).congr fun s e => ?_
  simp only [chain_and, chain_exists, chain_nil]
  simp [text]

section Doubles

theorem littleEndian_ofLittleEndian (bytes : List UInt8) :
    littleEndian bytes.length (Read.ofLittleEndian bytes) = bytes := by
  induction bytes with
  | nil => rfl
  | cons b rest ih =>
    have small : b.toNat < 256 := b.toNat_lt
    have low : (b.toNat + 256 * Read.ofLittleEndian rest) % 256 = b.toNat := by omega
    have high : (b.toNat + 256 * Read.ofLittleEndian rest) / 256 = Read.ofLittleEndian rest := by
      omega
    rw [List.length_cons, Read.ofLittleEndian, littleEndian, low, high, ih, UInt8.ofNat_toNat]

theorem ofLittleEndian_littleEndian {v : Nat} (fits : v < UInt64.size) :
    Read.ofLittleEndian (littleEndian 8 v) = v := by
  have small : v < 18446744073709551616 := fits
  simp only [littleEndian, Read.ofLittleEndian, UInt8.toNat_ofNat']
  omega

theorem ofLittleEndian_lt (bytes : List UInt8) :
    Read.ofLittleEndian bytes < Nat.pow 256 bytes.length := by
  induction bytes with
  | nil => exact Nat.one_pos
  | cons b rest ih =>
    have small : b.toNat < 256 := b.toNat_lt
    change b.toNat + 256 * Read.ofLittleEndian rest < Nat.pow 256 rest.length * 256
    omega

theorem length_littleEndian (n v : Nat) : (littleEndian n v).length = n := by
  induction n generalizing v with
  | zero => rfl
  | succ n ih => rw [littleEndian, List.length_cons, ih]

theorem recognizes_double :
    Recognizes Read.double fun x e => e = littleEndian 8 x.bits.toNat := by
  refine ((recognizes_block 8).bind fun bytes => .pure _).congr fun x e => ?_
  simp only [chain_and, chain_nil]
  constructor
  · rintro ⟨bytes, rfl, eight, rfl⟩
    have fits : Read.ofLittleEndian e < UInt64.size := by
      have bound := ofLittleEndian_lt e
      rw [eight] at bound
      exact bound
    rw [UInt64.toNat_ofNat_of_lt' fits, ← eight, littleEndian_ofLittleEndian]
  · rintro rfl
    refine ⟨_, ?_, length_littleEndian 8 _, rfl⟩
    rw [ofLittleEndian_littleEndian x.bits.toNat_lt, UInt64.ofNat_toNat]

end Doubles

section Integers

theorem recognizes_signed {α β : Type} {reader : Reader Nat} {P : Nat → Phrases} (make : α → β)
    (ofInt : Int → α) (toInt : α → Int) (numbers : Recognizes reader P)
    (back : ∀ v, ofInt (toInt v) = v)
    (fits : ∀ {n e}, P n e → toInt (ofInt (unzigzag n)) = unzigzag n) :
    Recognizes ((fun n => make (ofInt (unzigzag n))) <$> reader)
      fun x e => ∃ v, x = make v ∧ P (zigzag (toInt v)) e := by
  refine (numbers.map _).congr fun x e => ?_
  constructor
  · rintro ⟨n, rfl, numeral⟩
    refine ⟨_, rfl, ?_⟩
    rwa [fits numeral, zigzag_unzigzag]
  · rintro ⟨v, rfl, numeral⟩
    refine ⟨_, ?_, numeral⟩
    rw [unzigzag_zigzag, back]

theorem toInt_ofInt_int {n : Nat} {e : List UInt8} (number : number32 n e) :
    (Int32.ofInt (unzigzag n)).toInt = unzigzag n := by
  have bounds := zigzag_lt_iff (unzigzag n) 2147483648
  rw [zigzag_unzigzag] at bounds
  obtain ⟨low, high⟩ := bounds.mp (number32_lt number)
  exact Int32.toInt_ofInt_of_le low high

theorem toInt_ofInt_long {n : Nat} {e : List UInt8} (number : number64 n e) :
    (Int64.ofInt (unzigzag n)).toInt = unzigzag n := by
  have bounds := zigzag_lt_iff (unzigzag n) 9223372036854775808
  rw [zigzag_unzigzag] at bounds
  obtain ⟨low, high⟩ := bounds.mp (number64_lt number)
  exact Int64.toInt_ofInt_of_le low high

end Integers

section Programs

theorem recognizes_descriptor : Recognizes Read.descriptor descriptor := by
  refine (recognizes_text.bind fun name => (recognizes_list recognizes_text).bind
    fun fields => .pure (Descriptor.mk name fields)).congr fun d e => ?_
  simp only [chain_and, chain_exists, chain_nil]
  constructor
  · rintro ⟨name, fields, rfl, phrase⟩
    exact phrase
  · intro phrase
    exact ⟨d.name, d.fields, rfl, phrase⟩

theorem recognizes_content (n : Nat) : Recognizes
    (match n with
      | 0 => pure .none
      | 1 => (fun n => .int (Int32.ofInt (unzigzag n))) <$> Width.word32.read
      | 2 => (fun n => .long (Int64.ofInt (unzigzag n))) <$> Width.word64.read
      | 3 => .double <$> Read.double
      | 4 => .bool <$> Read.bool
      | 5 => .name <$> Read.text
      | 6 => .descriptor <$> Read.descriptor
      | _ => throw .rejected : Reader Payload)
    fun v e => n = kind v ∧ content v e := by
  match n with
  | 0 => exact (Recognizes.pure Payload.none).congr fun v e => by cases v <;> simp [kind, content]
  | 1 => exact (recognizes_signed Payload.int Int32.ofInt Int32.toInt recognizes_number32
      Int32.ofInt_toInt toInt_ofInt_int).congr fun v e => by cases v <;> simp [kind, content]
  | 2 => exact (recognizes_signed Payload.long Int64.ofInt Int64.toInt recognizes_number64
      Int64.ofInt_toInt toInt_ofInt_long).congr fun v e => by cases v <;> simp [kind, content]
  | 3 => exact (recognizes_double.map _).congr fun v e => by cases v <;> simp [kind, content]
  | 4 => exact (recognizes_bool.map _).congr fun v e => by cases v <;> simp [kind, content]
  | 5 => exact (recognizes_text.map _).congr fun v e => by cases v <;> simp [kind, content]
  | 6 => exact (recognizes_descriptor.map _).congr fun v e => by cases v <;> simp [kind, content]
  | n + 7 => exact (Recognizes.throw _).congr fun v e => by cases v <;> simp [kind]

theorem recognizes_payload : Recognizes Read.payload payload :=
  (recognizes_number32.bind recognizes_content).congr fun v e => by simp [payload]

theorem recognizes_instruction : Recognizes Read.instruction instruction := by
  refine (recognizes_text.bind fun opcode => (recognizes_list recognizes_number64).bind
    fun inputs => (recognizes_option recognizes_number64).bind fun output =>
      recognizes_payload.bind fun payload =>
        .pure (Instruction.mk opcode inputs output payload)).congr fun i e => ?_
  simp only [chain_and, chain_exists, chain_nil]
  constructor
  · rintro ⟨opcode, inputs, output, payload, rfl, phrase⟩
    exact phrase
  · intro phrase
    exact ⟨i.opcode, i.inputs, i.output, i.payload, rfl, phrase⟩

theorem recognizes_routine :
    Recognizes Read.routine fun r e => r.notes = {} ∧ routine r e := by
  refine (recognizes_text.bind fun name => (recognizes_list recognizes_instruction).bind
    fun body => .pure (Routine.mk name body {})).congr fun r e => ?_
  simp only [chain_and, chain_exists, chain_nil]
  constructor
  · rintro ⟨name, body, rfl, phrase⟩
    exact ⟨rfl, phrase⟩
  · rintro ⟨bare, phrase⟩
    refine ⟨r.name, r.body, ?_, phrase⟩
    rw [← bare]

end Programs

end Grammar

end RegisterMachine.Wire
