import RegisterMachine.Demo
import RegisterMachine.Proofs.Aftermath
import RegisterMachine.Proofs.Memory
import Mathlib.Data.Int.ModEq

/-!
Integer arithmetic. The two families of integer opcodes are one family with the width as a
parameter: an instruction reads two words of its width, computes on the integers that they stand
for, and writes the word that the result is reduced to. A division by zero, and an operand that is
no such word, are the only ways to fail.
-/

namespace RegisterMachine

namespace Opcodes

inductive Width where
  | int
  | long
deriving DecidableEq

inductive Operation where
  | add
  | sub
  | mul
  | div
  | mod
deriving DecidableEq

namespace Operation

def name : Operation → String
  | add => "add"
  | sub => "sub"
  | mul => "mul"
  | div => "div"
  | mod => "mod"

/-- The operation has no result for a second operand of zero. -/
def Divides (o : Operation) : Prop := o = div ∨ o = mod

instance (o : Operation) : Decidable o.Divides := inferInstanceAs (Decidable (_ ∨ _))

end Operation

def Calculator.apply {α : Type} (c : Calculator α) : Operation → α → α → Option α
  | .add => fun a b => some (c.add a b)
  | .sub => fun a b => some (c.sub a b)
  | .mul => fun a b => some (c.mul a b)
  | .div => c.div?
  | .mod => c.mod?

namespace Width

def bits : Width → Nat
  | int => 32
  | long => 64

abbrev Word : Width → Type
  | int => Int32
  | long => Int64

def family : Width → Extension
  | int => .int
  | long => .long

def calculator : (w : Width) → Calculator w.Word
  | int => .int
  | long => .long

def rep (w : Width) : Representation w.Word := w.calculator.rep

def toInt : (w : Width) → w.Word → Int
  | int => Int32.toInt
  | long => Int64.toInt

def value (w : Width) : w.Word → Value := w.rep.toValue

def opcode (w : Width) (o : Operation) : String := w.family.opcode o.name

/-- The number in the range of the width that is equal to `n` up to a multiple of its size. -/
def reduce (w : Width) (n : Int) : Int := n.bmod (2 ^ w.bits)

def least (w : Width) : Int := -2 ^ (w.bits - 1)

end Width

/-- The operation makes `z` of the numbers `x` and `y`. A quotient is rounded toward zero, and only
that of the least number and -1 is out of range. -/
def Operation.Gives (w : Width) (x y z : Int) : Operation → Prop
  | add => z = w.reduce (x + y)
  | sub => z = w.reduce (x - y)
  | mul => z = w.reduce (x * y)
  | div => z = w.reduce (x.tdiv y) ∧ (z = x.tdiv y ∨ x = w.least ∧ y = -1 ∧ z = w.least)
  | mod => x.tdiv y * y + z = x ∧ z.natAbs < y.natAbs ∧ (z = 0 ∨ z.sign = x.sign)

end Opcodes

section Integers

variable {x y : Int} {k : Nat}

theorem bmod_two_pow (low : -2 ^ k ≤ x) (high : x < 2 ^ k) : x.bmod (2 ^ (k + 1)) = x := by
  refine Int.bmod_eq_of_le ?_ ?_ <;> rw [Nat.pow_succ] <;> push_cast <;> omega

theorem tdiv_in_range (low : -2 ^ k ≤ x) (high : x < 2 ^ k) (corner : ¬(x = -2 ^ k ∧ y = -1)) :
    -2 ^ k ≤ x.tdiv y ∧ x.tdiv y < 2 ^ k := by
  have size : (x.tdiv y).natAbs = x.natAbs / y.natAbs := Int.natAbs_tdiv x y
  obtain rfl | rfl | rfl | large : y = 0 ∨ y = 1 ∨ y = -1 ∨ 2 ≤ y.natAbs := by omega
  · rw [Int.tdiv_zero]
    omega
  · rw [Int.tdiv_one]
    exact ⟨low, high⟩
  · rw [Int.tdiv_neg, Int.tdiv_one]
    omega
  · have half : x.natAbs / y.natAbs ≤ x.natAbs / 2 := Nat.div_le_div_left large Nat.two_pos
    omega

theorem tmod_remains (nonzero : y ≠ 0) : x.tdiv y * y + x.tmod y = x ∧ (x.tmod y).natAbs < y.natAbs ∧
    (x.tmod y = 0 ∨ (x.tmod y).sign = x.sign) := by
  have size : (x.tmod y).natAbs = x.natAbs % y.natAbs := Int.natAbs_tmod x y
  have less : x.natAbs % y.natAbs < y.natAbs := Nat.mod_lt _ (Int.natAbs_pos.mpr nonzero)
  have sign := Int.sign_tmod x y
  refine ⟨Int.tdiv_mul_add_tmod x y, by omega, ?_⟩
  split at sign
  · exact .inl (Int.sign_eq_zero_iff_zero.mp sign)
  · exact .inr sign

end Integers

namespace Opcodes

namespace Width

variable (w : Width) {a b c : w.Word} {n : Int}

theorem toInt_mem (a : w.Word) : w.least ≤ w.toInt a ∧ w.toInt a < 2 ^ (w.bits - 1) := by
  cases w with
  | int => exact ⟨Int32.le_toInt a, Int32.toInt_lt a⟩
  | long => exact ⟨Int64.le_toInt a, Int64.toInt_lt a⟩

theorem reduce_of_mem (low : w.least ≤ n) (high : n < 2 ^ (w.bits - 1)) : w.reduce n = n := by
  cases w with
  | int => exact bmod_two_pow (k := 31) low high
  | long => exact bmod_two_pow (k := 63) low high

theorem reduce_neg_least : w.reduce (-w.least) = w.least := by
  cases w <;> rfl

theorem reduce_modEq (n : Int) : w.reduce n ≡ n [ZMOD 2 ^ w.bits] := by
  have same : (w.reduce n) % ((2 ^ w.bits : Nat) : Int) = n % ((2 ^ w.bits : Nat) : Int) :=
    Int.bmod_emod
  push_cast at same
  exact same

theorem toInt_add (a b : w.Word) :
    w.toInt (w.calculator.add a b) = w.reduce (w.toInt a + w.toInt b) := by
  cases w with
  | int => exact Int32.toInt_add a b
  | long => exact Int64.toInt_add a b

theorem toInt_sub (a b : w.Word) :
    w.toInt (w.calculator.sub a b) = w.reduce (w.toInt a - w.toInt b) := by
  cases w with
  | int => exact Int32.toInt_sub a b
  | long => exact Int64.toInt_sub a b

theorem toInt_mul (a b : w.Word) :
    w.toInt (w.calculator.mul a b) = w.reduce (w.toInt a * w.toInt b) := by
  cases w with
  | int => exact Int32.toInt_mul a b
  | long => exact Int64.toInt_mul a b

theorem toInt_div (some : w.calculator.div? a b = some c) :
    w.toInt c = w.reduce ((w.toInt a).tdiv (w.toInt b)) := by
  cases w with
  | int =>
    obtain ⟨-, result⟩ := Option.ite_none_left_eq_some.mp some
    exact Option.some.inj result ▸ Int32.toInt_div a b
  | long =>
    obtain ⟨-, result⟩ := Option.ite_none_left_eq_some.mp some
    exact Option.some.inj result ▸ Int64.toInt_div a b

theorem toInt_mod (some : w.calculator.mod? a b = some c) :
    w.toInt c = (w.toInt a).tmod (w.toInt b) := by
  cases w with
  | int =>
    obtain ⟨-, result⟩ := Option.ite_none_left_eq_some.mp some
    exact Option.some.inj result ▸ Int32.toInt_mod a b
  | long =>
    obtain ⟨-, result⟩ := Option.ite_none_left_eq_some.mp some
    exact Option.some.inj result ▸ Int64.toInt_mod a b

theorem apply_eq_none_iff {o : Operation} :
    w.calculator.apply o a b = none ↔ o.Divides ∧ w.toInt b = 0 := by
  cases w with
  | int =>
    have zero : int.toInt b = 0 ↔ b = (0 : Int32) := Int32.toInt_inj (y := 0)
    rw [zero]
    cases o <;> simp [Calculator.apply, calculator, Calculator.int, Operation.Divides]
  | long =>
    have zero : long.toInt b = 0 ↔ b = (0 : Int64) := Int64.toInt_inj (y := 0)
    rw [zero]
    cases o <;> simp [Calculator.apply, calculator, Calculator.long, Operation.Divides]

theorem apply_gives {o : Operation} (some : w.calculator.apply o a b = some c) :
    o.Gives w (w.toInt a) (w.toInt b) (w.toInt c) := by
  obtain ⟨low, high⟩ := w.toInt_mem a
  cases o with
  | add => exact Option.some.inj some ▸ w.toInt_add a b
  | sub => exact Option.some.inj some ▸ w.toInt_sub a b
  | mul => exact Option.some.inj some ▸ w.toInt_mul a b
  | div =>
    have quotient := w.toInt_div some
    refine ⟨quotient, ?_⟩
    by_cases corner : w.toInt a = w.least ∧ w.toInt b = -1
    · right
      rw [quotient, corner.1, corner.2, Int.tdiv_neg, Int.tdiv_one, w.reduce_neg_least]
      exact ⟨rfl, rfl, rfl⟩
    · left
      obtain ⟨low, high⟩ := tdiv_in_range low high corner
      rw [quotient, w.reduce_of_mem low high]
  | mod =>
    have nonzero : w.toInt b ≠ 0 := by
      intro zero
      exact nomatch some.symm.trans (w.apply_eq_none_iff.mpr ⟨.inr rfl, zero⟩)
    rw [w.toInt_mod some]
    exact tmod_remains nonzero

theorem ofValue?_value (a : w.Word) : w.rep.ofValue? (w.value a) = some a := by
  cases w <;> rfl

theorem kind_eq_iff {v : Value} : v.kind = w.rep.kind ↔ ∃ a, v = w.value a := by
  cases w <;> cases v <;>
    simp [value, rep, calculator, Calculator.int, Calculator.long, Representation.int,
      Representation.long, Value.kind]

theorem ofValue?_eq_none_iff {v : Value} : w.rep.ofValue? v = none ↔ v.kind ≠ w.rep.kind := by
  cases w <;> cases v <;>
    simp [rep, calculator, Calculator.int, Calculator.long, Representation.int,
      Representation.long, Value.kind]

theorem planned (o : Operation) (depth : Nat) : ∃ handler,
    (Machine.standard depth).handler? (w.opcode o) = some handler ∧
      Follows handler (.computing (Plan.division w.rep (w.calculator.apply o))) := by
  cases w <;> cases o
  all_goals first
    | exact ⟨_, rfl, follows_division _ _⟩
    | exact ⟨_, rfl, follows_binary _ _ _⟩

end Width

end Opcodes

/-- The first two operands of the instruction are in those registers, which hold those values. -/
structure Frame.Operands (f : Frame) (i : Instruction) (q q' : Register) (v v' : Value) : Prop where
  first : i.inputs[0]? = some q
  second : i.inputs[1]? = some q'
  held : f.registers[q]? = some v
  held' : f.registers[q']? = some v'

section Steps

variable {α : Type} {p : Program} {s : State} {f : Frame} {below : List Frame} {r : Routine}
  {i : Instruction} {q q' out : Register} {v v' : Value} {k depth : Nat} {w : Opcodes.Width}
  {o : Opcodes.Operation}

theorem Frame.operandAs_advance (named : i.inputs[k]? = some q) (held : f.registers[q]? = some v)
    (rep : Representation α) : f.advance.operandAs rep i k = match rep.ofValue? v with
      | some a => .ok a
      | none => .error (.kindMismatch i.opcode q rep.kind v.kind) := by
  have held : f.advance.registers[q]? = some v := held
  simp only [operandAs, Instruction.input, named, get, held, ok_bind]
  cases rep.ofValue? v <;> rfl

theorem Executes.operand_or_uncounted (executes : Executes p s f below r i)
    (reached : (Machine.standard depth).Reachable p s) (named : i.inputs[k]? = some q) :
    (∃ v, f.registers[q]? = some v) ∨ f.Uncounted p := by
  refine (executes.lt_or_uncounted reached (q := q) ?_).imp_left fun inside => ?_
  · exact List.mem_append_left _ (List.mem_of_getElem? named)
  · exact ⟨f.registers[q], Array.getElem?_eq_getElem inside⟩

theorem Executes.operands_or_uncounted (executes : Executes p s f below r i)
    (reached : (Machine.standard depth).Reachable p s) (first : i.inputs[0]? = some q)
    (second : i.inputs[1]? = some q') : (∃ v v', f.Operands i q q' v v') ∨ f.Uncounted p := by
  obtain ⟨v, held⟩ | uncounted := executes.operand_or_uncounted reached first
  · refine (executes.operand_or_uncounted reached second).imp_left fun ⟨v', held'⟩ => ?_
    exact ⟨v, v', first, second, held, held'⟩
  · exact .inr uncounted

theorem Executes.registers_or_uncounted (executes : Executes p s f below r i)
    (reached : (Machine.standard depth).Reachable p s) (first : i.inputs[0]? = some q)
    (output : i.output = some out) :
    (q < f.registers.size ∧ out < f.registers.size) ∨ f.Uncounted p := by
  have mentioned : q ∈ i.registers := List.mem_append_left _ (List.mem_of_getElem? first)
  refine (executes.lt_or_uncounted reached mentioned).imp_left fun inside => ⟨inside, ?_⟩
  exact executes.register_lt reached (Nat.zero_lt_of_lt inside)
    (List.mem_append_right _ (output ▸ List.mem_singleton_self out))

theorem Executes.output_lt (executes : Executes p s f below r i)
    (reached : (Machine.standard depth).Reachable p s) (counted : 0 < f.registers.size)
    (output : i.output = some out) : out < f.registers.size :=
  executes.register_lt reached counted
    (List.mem_append_right _ (output ▸ List.mem_singleton_self out))

theorem Executes.attempt_arithmetic (executes : Executes p s f below r i)
    (opcode : i.opcode = w.opcode o) (operands : f.Operands i q q' v v')
    (output : i.output = some out) (inside : out < f.registers.size) (depth : Nat) :
    (Machine.standard depth).attempt p s = match w.rep.ofValue? v, w.rep.ofValue? v' with
      | none, _ => (.error ⟨.kindMismatch i.opcode q w.rep.kind v.kind,
          some ⟨r.name, f.pointer, i.opcode⟩⟩, s.advance f)
      | some _, none => (.error ⟨.kindMismatch i.opcode q' w.rep.kind v'.kind,
          some ⟨r.name, f.pointer, i.opcode⟩⟩, s.advance f)
      | some a, some b => match w.calculator.apply o a b with
        | none => (.error ⟨.divisionByZero i.opcode, some ⟨r.name, f.pointer, i.opcode⟩⟩,
            s.advance f)
        | some c => (.ok true, s.given f out (w.value c)) := by
  obtain ⟨handler, known, follows⟩ := w.planned o depth
  rw [executes.attempt_value (opcode ▸ known) follows output inside, Plan.division,
    Frame.operandAs_advance operands.first operands.held,
    Frame.operandAs_advance operands.second operands.held']
  cases w.rep.ofValue? v with
  | none => rfl
  | some a =>
    cases w.rep.ofValue? v' with
    | none => rfl
    | some b =>
      simp only [ok_bind]
      cases w.calculator.apply o a b <;> rfl

/-- An integer instruction of a reachable state computes with two words of its width and fails of a
division by zero only; of other operands the first that is no such word is named. A quotient and a
remainder together make up what was divided. -/
theorem Machine.Reachable.arithmetic (reached : (standard depth).Reachable p s)
    (executes : Executes p s f below r i) (opcode : i.opcode = w.opcode o)
    (first : i.inputs[0]? = some q) (second : i.inputs[1]? = some q') (output : i.output = some out) :
    let refused (e : Fault) : Except Failure Bool × State :=
      (.error ⟨e, some ⟨r.name, f.pointer, i.opcode⟩⟩, s.advance f)
    ((∃ v v', f.Operands i q q' v v') ∨ f.Uncounted p) ∧
      (∀ v v', f.Operands i q q' v v' → out < f.registers.size ∧
        (∀ a b, v = w.value a → v' = w.value b →
          (o.Divides ∧ w.toInt b = 0 →
            (standard depth).attempt p s = refused (.divisionByZero i.opcode)) ∧
          (¬(o.Divides ∧ w.toInt b = 0) → ∃ c, o.Gives w (w.toInt a) (w.toInt b) (w.toInt c) ∧
            (standard depth).attempt p s = (.ok true, s.given f out (w.value c)))) ∧
        (v.kind ≠ w.rep.kind → (standard depth).attempt p s =
          refused (.kindMismatch i.opcode q w.rep.kind v.kind)) ∧
        (v.kind = w.rep.kind → v'.kind ≠ w.rep.kind → (standard depth).attempt p s =
          refused (.kindMismatch i.opcode q' w.rep.kind v'.kind))) ∧
      ∀ x y z z', Opcodes.Operation.div.Gives w x y z → Opcodes.Operation.mod.Gives w x y z' →
        z * y + z' ≡ x [ZMOD 2 ^ w.bits] := by
  intro refused
  refine ⟨executes.operands_or_uncounted reached first second, fun v v' operands => ?_,
    fun x y z z' quotient remainder => ?_⟩
  · have inside := executes.output_lt reached (Frame.size_pos operands.held) output
    have attempted := executes.attempt_arithmetic opcode operands output inside depth
    refine ⟨inside, fun a b word word' => ?_, fun other => ?_, fun same other => ?_⟩
    · rw [word, word', w.ofValue?_value, w.ofValue?_value] at attempted
      refine ⟨fun zero => ?_, fun nonzero => ?_⟩
      · rw [attempted]
        simp only [w.apply_eq_none_iff.mpr zero]
        rfl
      · cases result : w.calculator.apply o a b with
        | none => exact absurd (w.apply_eq_none_iff.mp result) nonzero
        | some c =>
          simp only [result] at attempted
          exact ⟨c, w.apply_gives result, attempted⟩
    · rw [attempted, w.ofValue?_eq_none_iff.mpr other]
    · obtain ⟨a, word⟩ := w.kind_eq_iff.mp same
      rw [attempted, w.ofValue?_eq_none_iff.mpr other, word, w.ofValue?_value]
  · obtain ⟨total, -⟩ := remainder
    calc z * y + z'
      _ ≡ x.tdiv y * y + z' [ZMOD 2 ^ w.bits] :=
        ((quotient.1 ▸ w.reduce_modEq _ : z ≡ x.tdiv y [ZMOD 2 ^ w.bits]).mul_right y).add_right z'
      _ = x := total

end Steps

theorem State.least_divided :
    let main : Routine := ⟨"main", [
      Demo.longVal 0 Int64.minValue,
      Demo.longVal 1 (-1),
      { opcode := "long-div", inputs := [0, 1], output := some 0 },
      Demo.ret], ⟨[(Opcodes.labelKey, .labels [])]⟩⟩
    let p : Program := ⟨[main], {}⟩
    let f : Frame := ⟨0, "main", #[.long Int64.minValue, .long (-1)], 2, none, none⟩
    let s : State := { calls := ⟨[f], 0⟩, dispatched := 2 }
    (Machine.standard 1).Reachable p s ∧
      (Machine.standard 1).attempt p s = (.ok true, s.given f 0 (.long Int64.minValue)) := by
  intro main p f s
  have reached : (Machine.standard 1).Reachable p s := by
    have started : (Machine.standard 1).start p {} =
        .ok { calls := ⟨[⟨0, "main", #[.unset, .unset], 0, none, none⟩], 0⟩ } := rfl
    exact (Machine.Reachable.start started).step.step
  have executes : Executes p s f [] main main.body[2] := ⟨rfl, rfl, rfl⟩
  have operands : f.Operands main.body[2] 0 1 (.long Int64.minValue) (.long (-1)) :=
    ⟨rfl, rfl, rfl, rfl⟩
  obtain ⟨-, computes, -⟩ := reached.arithmetic executes (w := .long) (o := .div) rfl rfl rfl rfl
  obtain ⟨-, words, -⟩ := computes _ _ operands
  obtain ⟨-, divided⟩ := words Int64.minValue (-1) rfl rfl
  obtain ⟨c, ⟨quotient, -⟩, attempted⟩ := divided (by decide)
  obtain rfl : c = Int64.minValue := Int64.toInt_inj.mp quotient
  exact ⟨reached, attempted⟩

end RegisterMachine
