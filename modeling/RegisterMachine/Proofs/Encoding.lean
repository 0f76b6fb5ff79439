import RegisterMachine.Proofs.Grammar

/-!
Encodings and the grammar. What a machine of 64 bits can hold is encoded as one of its phrases, and
no phrase of it is shorter, because numbers are written with the fewest bytes. A phrase has at least
a byte for each part of what it stands for, so a few bytes cannot claim to be a large program.
-/

namespace RegisterMachine

/-- The lengths that are written for a payload: of texts, in bytes, and of lists. -/
def Payload.lengths : Payload → List Nat
  | .name s => [s.utf8ByteSize]
  | .descriptor d => d.name.utf8ByteSize :: d.fields.length :: d.fields.map String.utf8ByteSize
  | _ => []

def Instruction.lengths (i : Instruction) : List Nat :=
  i.opcode.utf8ByteSize :: i.inputs.length :: i.payload.lengths

def Routine.lengths (r : Routine) : List Nat :=
  r.name.utf8ByteSize :: r.body.length :: r.body.flatMap Instruction.lengths

def Program.lengths (p : Program) : List Nat :=
  p.routines.length :: p.routines.flatMap Routine.lengths

/-- A program that can be built on a machine with words of 64 bits: names are distinct, lengths are
words, and registers leave a word for their number. -/
structure Program.Buildable (p : Program) : Prop where
  distinct : (p.routines.map Routine.name).Nodup
  lengths : ∀ n ∈ p.lengths, n < UInt64.size
  registers : ∀ r ∈ p.registers, r < UInt64.size - 1

def Payload.names : Payload → Nat
  | .name _ => 1
  | .descriptor d => 1 + d.fields.length
  | _ => 0

/-- An instruction, its opcode, its registers and its names. -/
def Instruction.parts (i : Instruction) : Nat := 2 + i.registers.length + i.payload.names

def total {α : Type} (size : α → Nat) : List α → Nat
  | [] => 0
  | x :: xs => size x + total size xs

def Routine.parts (r : Routine) : Nat := 2 + total Instruction.parts r.body

def Program.parts (p : Program) : Nat := total Routine.parts p.routines

namespace Wire

/-- Bytes that are a phrase if what they stand for fits, as it does if it has any phrase, and that
are then no longer than any other phrase. -/
structure Encodes (fits : Prop) (phrases : Phrases) (bytes : List UInt8) : Prop where
  phrase : fits → phrases bytes
  necessary : ∀ {e}, phrases e → fits
  least : ∀ {e}, phrases e → bytes.length ≤ e.length

section Combinators

variable {φ ψ : Prop} {P Q : Phrases} {a b : List UInt8}

theorem Encodes.congr (encodes : Encodes φ P a) (same : φ ↔ ψ) : Encodes ψ P a where
  phrase fits := encodes.phrase (same.mpr fits)
  necessary written := same.mp (encodes.necessary written)
  least := encodes.least

theorem Encodes.exact (a : List UInt8) : Encodes True (· = a) a where
  phrase _ := rfl
  necessary _ := trivial
  least same := Nat.le_of_eq (congrArg List.length same.symm)

theorem Encodes.chain (head : Encodes φ P a) (tail : Encodes ψ Q b) :
    Encodes (φ ∧ ψ) (Grammar.Chain P Q) (a ++ b) where
  phrase fits := .append (head.phrase fits.1) (tail.phrase fits.2)
  necessary := by
    rintro _ ⟨c, d, rfl, first, second⟩
    exact ⟨head.necessary first, tail.necessary second⟩
  least := by
    rintro _ ⟨c, d, rfl, first, second⟩
    rw [List.length_append, List.length_append]
    exact Nat.add_le_add (head.least first) (tail.least second)

end Combinators

section Numbers

variable {most last n : Nat} {e : List UInt8}

theorem varint_numeral (narrow : last < 128) (fits : n < Grammar.capacity last most) :
    Grammar.Numeral most last n (varint n) := by
  induction most generalizing n with
  | zero => exact absurd fits (Nat.not_lt_zero n)
  | succ most ih =>
    rw [Grammar.numeral_succ_iff]
    unfold varint
    by_cases low : n < 128
    · have byte := UInt8.toNat_ofNat_of_lt' (show n < 256 by omega)
      refine ⟨UInt8.ofNat n, [], by rw [if_pos low], ?_⟩
      rw [byte, if_pos low]
      refine ⟨rfl, rfl, ?_⟩
      rintro ⟨rfl, beyond⟩
      simp only [Grammar.capacity] at fits
      omega
    · have byte := UInt8.toNat_ofNat_of_lt' (show n % 128 + 128 < 256 by omega)
      refine ⟨UInt8.ofNat (n % 128 + 128), varint (n / 128), by rw [if_neg low], ?_⟩
      rw [byte, if_neg (by omega)]
      refine ⟨n / 128, by omega, ih ?_⟩
      cases most with
      | zero =>
        simp only [Grammar.capacity] at fits
        omega
      | succ most =>
        simp only [Grammar.capacity] at fits
        omega

theorem varint_length_le (digits : Grammar.Digits n e) : (varint n).length ≤ e.length := by
  induction digits with
  | last low byte =>
    rw [varint, if_pos low]
    exact Nat.le_refl 1
  | @more n high b e flagged rest value ih =>
    have byte : b.toNat < 256 := b.toNat_lt
    rw [varint]
    split
    · simp
    · have higher : n / 128 = high := by omega
      rw [higher, List.length_cons, List.length_cons]
      omega

theorem encodes_numeral (most last n : Nat) (narrow : last < 128) :
    Encodes (n < Grammar.capacity last most) (Grammar.Numeral most last n) (varint n) where
  phrase := varint_numeral narrow
  necessary numeral := numeral.lt_capacity
  least numeral := varint_length_le numeral.digits

theorem encodes_number64 (n : Nat) : Encodes (n < UInt64.size) (Grammar.number64 n) (varint n) :=
  encodes_numeral 10 1 n (by decide)

theorem encodes_number32 (n : Nat) : Encodes (n < UInt32.size) (Grammar.number32 n) (varint n) :=
  encodes_numeral 5 15 n (by decide)

theorem zigzag_int_lt (v : Int32) : zigzag v.toInt < UInt32.size :=
  (zigzag_lt_iff v.toInt 2147483648).mpr ⟨v.le_toInt, v.toInt_lt⟩

theorem zigzag_long_lt (v : Int64) : zigzag v.toInt < UInt64.size :=
  (zigzag_lt_iff v.toInt 9223372036854775808).mpr ⟨v.le_toInt, v.toInt_lt⟩

end Numbers

section Lists

variable {α : Type} {P : α → Phrases} {item : α → List UInt8} {fits : α → Prop}

theorem encodes_items (each : ∀ x, Encodes (fits x) (P x) (item x)) (xs : List α) :
    Encodes (∀ x ∈ xs, fits x) (Grammar.items P xs) (xs.flatMap item) := by
  induction xs with
  | nil => exact (Encodes.exact []).congr (by simp)
  | cons x xs ih =>
    rw [List.flatMap_cons, List.forall_mem_cons]
    exact (each x).chain ih

theorem encodes_list (each : ∀ x, Encodes (fits x) (P x) (item x)) (xs : List α) :
    Encodes (xs.length < UInt64.size ∧ ∀ x ∈ xs, fits x) (Grammar.list P xs) (list item xs) :=
  (encodes_number64 xs.length).chain (encodes_items each xs)

theorem encodes_option (each : ∀ x, Encodes (fits x) (P x) (item x)) (o : Option α) :
    Encodes (∀ x ∈ o, fits x) (Grammar.option P o) (option item o) := by
  cases o with
  | none => exact (Encodes.exact [0]).congr (by simp)
  | some x => exact ((Encodes.exact [1]).chain (each x)).congr (by simp)

theorem encodes_text (s : String) :
    Encodes (s.utf8ByteSize < UInt64.size) (Grammar.text s) (text s) :=
  ((encodes_number64 s.utf8ByteSize).chain (.exact _)).congr (by simp)

end Lists

section Programs

theorem encodes_descriptor (d : Descriptor) :
    Encodes (∀ n ∈ (Payload.descriptor d).lengths, n < UInt64.size) (Grammar.descriptor d)
      (descriptor d) :=
  ((encodes_text d.name).chain (encodes_list encodes_text d.fields)).congr
    (by simp [Payload.lengths])

/-- The bytes of a payload behind the number of its kind. -/
def content : Payload → List UInt8
  | .none => []
  | .int v => varint (zigzag v.toInt)
  | .long v => varint (zigzag v.toInt)
  | .double v => littleEndian 8 v.bits.toNat
  | .bool v => [if v then 1 else 0]
  | .name s => text s
  | .descriptor d => descriptor d

theorem payload_eq (v : Payload) : payload v = varint (Grammar.kind v) ++ content v := by
  cases v <;> simp [payload, Grammar.kind, content]

theorem encodes_content (v : Payload) :
    Encodes (∀ n ∈ v.lengths, n < UInt64.size) (Grammar.content v) (content v) := by
  cases v with
  | none | double v | bool v => exact (Encodes.exact _).congr (by simp [Payload.lengths])
  | int v => exact (encodes_number32 _).congr (by simp [Payload.lengths, zigzag_int_lt])
  | long v => exact (encodes_number64 _).congr (by simp [Payload.lengths, zigzag_long_lt])
  | name s => exact (encodes_text s).congr (by simp [Payload.lengths])
  | descriptor d => exact encodes_descriptor d

theorem kind_lt (v : Payload) : Grammar.kind v < UInt32.size := by
  cases v <;> exact of_decide_eq_true rfl

theorem encodes_payload (v : Payload) :
    Encodes (∀ n ∈ v.lengths, n < UInt64.size) (Grammar.payload v) (payload v) :=
  payload_eq v ▸ ((encodes_number32 _).chain (encodes_content v)).congr (by simp [kind_lt])

theorem encodes_instruction (i : Instruction) :
    Encodes ((∀ n ∈ i.lengths, n < UInt64.size) ∧ ∀ r ∈ i.registers, r < UInt64.size)
      (Grammar.instruction i) (instruction i) := by
  simp only [instruction, List.append_assoc]
  refine ((encodes_text i.opcode).chain ((encodes_list encodes_number64 i.inputs).chain
    ((encodes_option encodes_number64 i.output).chain (encodes_payload i.payload)))).congr ?_
  simp only [Instruction.lengths, Instruction.registers, List.forall_mem_cons,
    List.forall_mem_append, Option.mem_toList, Option.mem_def]
  grind

theorem encodes_routine (r : Routine) :
    Encodes ((∀ n ∈ r.lengths, n < UInt64.size) ∧
        ∀ q ∈ r.body.flatMap Instruction.registers, q < UInt64.size)
      (Grammar.routine r) (routine r) := by
  refine ((encodes_text r.name).chain (encodes_list encodes_instruction r.body)).congr ?_
  simp only [Routine.lengths, List.forall_mem_cons, List.forall_mem_flatMap, forall_and, and_assoc]

theorem encodes_program (p : Program) :
    Encodes ((∀ n ∈ p.lengths, n < UInt64.size) ∧ ∀ r ∈ p.registers, r < UInt64.size)
      (Grammar.program p) (program p) := by
  refine (encodes_list encodes_routine p.routines).congr ?_
  simp only [Program.lengths, Program.registers, List.forall_mem_cons, List.forall_mem_flatMap,
    forall_and, and_assoc]

theorem program_phrase {p : Program} (buildable : p.Buildable) : Grammar.program p (program p) :=
  (encodes_program p).phrase ⟨buildable.lengths, fun r named =>
    Nat.lt_of_lt_of_le (buildable.registers r named) (Nat.sub_le _ 1)⟩

end Programs

section Parts

variable {α : Type} {item : α → List UInt8} {size : α → Nat}

theorem length_varint_pos (n : Nat) : 0 < (varint n).length := by
  rw [varint]
  split <;> simp

theorem total_le_length_flatMap (each : ∀ x, size x ≤ (item x).length) (xs : List α) :
    total size xs ≤ (xs.flatMap item).length := by
  induction xs with
  | nil => exact Nat.le_refl 0
  | cons x xs ih =>
    rw [total, List.flatMap_cons, List.length_append]
    exact Nat.add_le_add (each x) ih

theorem total_lt_length_list (each : ∀ x, size x ≤ (item x).length) (xs : List α) :
    total size xs < (list item xs).length := by
  have count := length_varint_pos xs.length
  have items := total_le_length_flatMap each xs
  rw [list, List.length_append]
  omega

theorem total_one (xs : List α) : total (fun _ => 1) xs = xs.length := by
  induction xs with
  | nil => rfl
  | cons x xs ih => rw [total, ih, List.length_cons, Nat.add_comm]

theorem length_lt_length_list (each : ∀ x, 0 < (item x).length) (xs : List α) :
    xs.length < (list item xs).length := by
  have counted := total_lt_length_list each xs
  rwa [total_one] at counted

theorem length_text_pos (s : String) : 0 < (text s).length := by
  have count := length_varint_pos s.utf8ByteSize
  rw [text, List.length_append]
  omega

theorem length_option_varint (o : Option Register) :
    o.toList.length < (option varint o).length := by
  cases o with
  | none => exact Nat.one_pos
  | some r => exact Nat.succ_lt_succ (length_varint_pos r)

theorem names_lt_length_payload (v : Payload) : v.names < (payload v).length := by
  have counted := length_varint_pos (Grammar.kind v)
  have contained : v.names ≤ (content v).length := by
    cases v with
    | none | int v | long v | double v | bool v => exact Nat.zero_le _
    | name s => exact length_text_pos s
    | descriptor d =>
      have name := length_text_pos d.name
      have fields := length_lt_length_list length_text_pos d.fields
      simp only [Payload.names, content, descriptor, List.length_append]
      omega
  rw [payload_eq, List.length_append]
  omega

theorem parts_le_length_instruction (i : Instruction) : i.parts ≤ (instruction i).length := by
  have opcode := length_text_pos i.opcode
  have inputs := length_lt_length_list length_varint_pos i.inputs
  have output := length_option_varint i.output
  have payload := names_lt_length_payload i.payload
  simp only [Instruction.parts, Instruction.registers, instruction, List.length_append]
  omega

theorem parts_le_length_routine (r : Routine) : r.parts ≤ (routine r).length := by
  have name := length_text_pos r.name
  have body := total_lt_length_list parts_le_length_instruction r.body
  simp only [Routine.parts, routine, List.length_append]
  omega

theorem parts_le_length {p : Program} {e : List UInt8} (phrase : Grammar.program p e) :
    p.parts ≤ e.length :=
  calc
    p.parts ≤ (program p).length :=
      Nat.le_of_lt (total_lt_length_list parts_le_length_routine p.routines)
    _ ≤ e.length := (encodes_program p).least phrase

end Parts

end Wire

end RegisterMachine
