import RegisterMachine.Wire.Format

/-!
The grammar of encoded programs. Each value has its phrases, the byte strings that stand for it: as
many as there are ways to write its numbers, which need not be written with the fewest bytes.
No reader has a part in this, and of the encoder only the order of the signed numbers and of the
bytes of a double.
-/

namespace RegisterMachine.Wire

/-- The byte strings that stand for something. -/
abbrev Phrases := List UInt8 → Prop

namespace Grammar

/-- Seven bits to a byte, the lowest first, with the high bit set in every byte but the last. -/
inductive Digits : Nat → Phrases
  | last {n : Nat} {b : UInt8} (low : n < 128) (byte : b.toNat = n) : Digits n [b]
  | more {n high : Nat} {b : UInt8} {e : List UInt8} (flagged : 128 ≤ b.toNat)
      (rest : Digits high e) (value : n = b.toNat - 128 + 128 * high) : Digits n (b :: e)

/-- A number written with at most so many bytes, and when it has that many with a last byte of at
most `last`. -/
structure Numeral (most last n : Nat) (e : List UInt8) : Prop where
  digits : Digits n e
  short : e.length ≤ most
  bounded : e.length = most → ∀ b ∈ e.getLast?, b.toNat ≤ last

theorem Digits.ne_nil {n : Nat} {e : List UInt8} (digits : Digits n e) : e ≠ [] := by
  cases digits <;> simp

theorem not_numeral_zero (last n : Nat) (e : List UInt8) : ¬Numeral 0 last n e := by
  intro numeral
  exact numeral.digits.ne_nil (List.eq_nil_of_length_eq_zero (Nat.le_zero.mp numeral.short))

/-- A numeral is a last byte, which the bound concerns if there is no room for another, or a flagged
byte before a numeral with one byte less. -/
theorem numeral_succ_iff {most last n : Nat} {e : List UInt8} :
    Numeral (most + 1) last n e ↔ ∃ b rest, e = b :: rest ∧
      if b.toNat < 128 then n = b.toNat ∧ rest = [] ∧ ¬(most = 0 ∧ last < b.toNat)
      else ∃ high, n = b.toNat - 128 + 128 * high ∧ Numeral most last high rest := by
  -- the bound is about the last byte at full length, so it is handed on to the bytes that follow
  constructor
  · rintro ⟨digits, short, bounded⟩
    cases digits with
    | @last _ b low byte =>
      subst byte
      refine ⟨b, [], rfl, ?_⟩
      rw [if_pos low]
      refine ⟨rfl, rfl, fun ⟨only, beyond⟩ => ?_⟩
      have most := bounded (by simp [only]) b rfl
      omega
    | @more _ high b rest flagged digits value =>
      refine ⟨b, rest, rfl, ?_⟩
      rw [if_neg (Nat.not_lt.mpr flagged)]
      refine ⟨high, value, digits, Nat.le_of_succ_le_succ short, fun full c final => ?_⟩
      refine bounded (congrArg Nat.succ full) c ?_
      rwa [List.getLast?_cons_of_ne_nil digits.ne_nil]
  · rintro ⟨b, rest, rfl, form⟩
    split at form
    · next low =>
      obtain ⟨rfl, rfl, inside⟩ := form
      refine ⟨.last low rfl, by simp, fun full c final => ?_⟩
      obtain rfl : b = c := Option.some.inj final
      simp only [List.length_singleton] at full
      omega
    · next flagged =>
      obtain ⟨high, value, digits, short, bounded⟩ := form
      refine ⟨.more (Nat.not_lt.mp flagged) digits value, Nat.succ_le_succ short,
        fun full c final => bounded (Nat.succ.inj full) c ?_⟩
      rwa [List.getLast?_cons_of_ne_nil digits.ne_nil] at final

def capacity (last : Nat) : Nat → Nat
  | 0 => 0
  | 1 => last + 1
  | most + 2 => 128 * capacity last (most + 1)

theorem capacity_pos (last most : Nat) : 0 < capacity last (most + 1) := by
  induction most with
  | zero => exact Nat.succ_pos last
  | succ most ih => exact Nat.mul_pos (by decide) ih

theorem Numeral.lt_capacity {most last n : Nat} {e : List UInt8} (numeral : Numeral most last n e) :
    n < capacity last most := by
  induction most generalizing n e with
  | zero => exact absurd numeral (not_numeral_zero last n e)
  | succ most ih =>
    obtain ⟨b, rest, rfl, form⟩ := numeral_succ_iff.mp numeral
    have byte : b.toNat < 256 := b.toNat_lt
    cases most with
    | zero =>
      split at form
      · simp only [capacity]
        omega
      · obtain ⟨high, -, numeral⟩ := form
        exact absurd numeral (not_numeral_zero last high rest)
    | succ most =>
      have room := capacity_pos last most
      simp only [capacity]
      split at form
      · omega
      · obtain ⟨high, value, shorter⟩ := form
        have small := ih shorter
        omega

/-- A number of 64 bits has at most ten bytes, the tenth of which has one bit left to hold. -/
def number64 : Nat → Phrases := Numeral 10 1

/-- A number of 32 bits has at most five bytes, the fifth of which has four bits left to hold. -/
def number32 : Nat → Phrases := Numeral 5 15

theorem number64_lt {n : Nat} {e : List UInt8} (number : number64 n e) : n < UInt64.size :=
  number.lt_capacity

theorem number32_lt {n : Nat} {e : List UInt8} (number : number32 n e) : n < UInt32.size :=
  number.lt_capacity

def Chain (P Q : Phrases) : Phrases := fun e => ∃ a b, e = a ++ b ∧ P a ∧ Q b

section Chains

variable {α : Type} {P Q : Phrases} {a b e : List UInt8}

theorem Chain.append (head : P a) (tail : Q b) : Chain P Q (a ++ b) := ⟨a, b, rfl, head, tail⟩

@[simp] theorem chain_nil : Chain P (· = []) e ↔ P e := by
  simp [Chain]

@[simp] theorem exact_chain : Chain (· = a) Q e ↔ ∃ b, e = a ++ b ∧ Q b := by
  constructor
  · rintro ⟨_, b, split, rfl, tail⟩
    exact ⟨b, split, tail⟩
  · rintro ⟨b, split, tail⟩
    exact ⟨a, b, split, rfl, tail⟩

@[simp] theorem chain_and {c : Prop} : Chain P (fun e => c ∧ Q e) e ↔ c ∧ Chain P Q e := by
  simp only [Chain, ← exists_and_left]
  exact exists_congr fun a => exists_congr fun b => by simp only [and_left_comm]

@[simp] theorem and_chain {c : Prop} : Chain (fun e => c ∧ P e) Q e ↔ c ∧ Chain P Q e := by
  simp only [Chain, ← exists_and_left]
  exact exists_congr fun a => exists_congr fun b => by simp only [and_assoc, and_left_comm]

@[simp] theorem chain_exists {Q : α → Phrases} :
    Chain P (fun e => ∃ x, Q x e) e ↔ ∃ x, Chain P (Q x) e := by
  simp only [Chain, ← exists_and_left]
  constructor
  · rintro ⟨a, b, x, found⟩
    exact ⟨x, a, b, found⟩
  · rintro ⟨x, a, b, found⟩
    exact ⟨a, b, x, found⟩

end Chains

variable {α : Type}

def items (item : α → Phrases) : List α → Phrases
  | [] => (· = [])
  | x :: xs => Chain (item x) (items item xs)

def list (item : α → Phrases) (xs : List α) : Phrases :=
  Chain (number64 xs.length) (items item xs)

def text (s : String) : Phrases := Chain (number64 s.utf8ByteSize) (· = s.toUTF8.data.toList)

def option (item : α → Phrases) : Option α → Phrases
  | none => (· = [0])
  | some x => Chain (· = [1]) (item x)

def descriptor (d : Descriptor) : Phrases := Chain (text d.name) (list text d.fields)

def kind : Payload → Nat
  | .none => 0
  | .int _ => 1
  | .long _ => 2
  | .double _ => 3
  | .bool _ => 4
  | .name _ => 5
  | .descriptor _ => 6

def content : Payload → Phrases
  | .none => (· = [])
  | .int v => number32 (zigzag v.toInt)
  | .long v => number64 (zigzag v.toInt)
  | .double v => (· = littleEndian 8 v.bits.toNat)
  | .bool v => (· = [if v then 1 else 0])
  | .name s => text s
  | .descriptor d => descriptor d

def payload (v : Payload) : Phrases := Chain (number32 (kind v)) (content v)

def instruction (i : Instruction) : Phrases :=
  Chain (text i.opcode) (Chain (list number64 i.inputs)
    (Chain (option number64 i.output) (payload i.payload)))

def routine (r : Routine) : Phrases := Chain (text r.name) (list instruction r.body)

def program (p : Program) : Phrases := list routine p.routines

end Grammar

end RegisterMachine.Wire
