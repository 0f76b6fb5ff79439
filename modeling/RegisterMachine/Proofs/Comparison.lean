import RegisterMachine.Proofs.Arithmetic
import Mathlib.Algebra.Order.Field.Rat
import Mathlib.Data.Rat.Cast.Order
import Mathlib.Order.WithBot

/-!
Comparisons. Integers and doubles are compared by a rank, which is a number of its own for every bit
pattern: so less, equal and greater come from one order, whatever is compared. The rank of a double
is its magnitude, mirrored for the negative ones; as more bits of magnitude never denote a smaller
number, the order of the numbers is kept, and the NaNs are beyond both its ends.
-/

namespace RegisterMachine

namespace Double

variable {x y : Double}

theorem eq_of_rank_eq (same : x.rank = y.rank) : x = y := by
  obtain ⟨bits⟩ := x
  obtain ⟨bits'⟩ := y
  have below : bits.toNat < 2 * 2 ^ 63 := bits.toNat_lt
  have below' : bits'.toNat < 2 * 2 ^ 63 := bits'.toNat_lt
  have size : pow2 63 = 2 ^ 63 := rfl
  simp only [rank, isNegative, magnitude, size, decide_eq_true_eq] at same
  have same : bits.toNat = bits'.toNat := by split at same <;> split at same <;> omega
  exact congrArg Double.mk (UInt64.toNat_inj.mp same)

theorem units_lt_units {p m n : Nat} (positive : 0 < p) (less : m < n) :
    (if m / p = 0 then m % p else p + m % p) * 2 ^ (m / p - 1) <
      (if n / p = 0 then n % p else p + n % p) * 2 ^ (n / p - 1) := by
  have fraction : m % p < p := Nat.mod_lt m positive
  have whole := Nat.div_add_mod m p
  have whole' := Nat.div_add_mod n p
  obtain same | before := Nat.eq_or_lt_of_le (Nat.div_le_div_right (c := p) (Nat.le_of_lt less))
  · rw [same] at whole ⊢
    have fractions : m % p < n % p := by omega
    have significands : (if n / p = 0 then m % p else p + m % p) <
        if n / p = 0 then n % p else p + n % p := by split <;> omega
    exact Nat.mul_lt_mul_of_pos_right significands (Nat.two_pow_pos _)
  · calc (if m / p = 0 then m % p else p + m % p) * 2 ^ (m / p - 1)
      _ < p * 2 ^ (m / p) := by
        split
        · next zero => simpa [zero] using fraction
        · next more =>
          obtain ⟨e, exponent⟩ := Nat.exists_eq_succ_of_ne_zero more
          rw [exponent, Nat.pow_succ, Nat.succ_sub_one, ← Nat.mul_assoc, Nat.mul_right_comm]
          exact Nat.mul_lt_mul_of_pos_right (by omega) (Nat.two_pow_pos _)
      _ ≤ p * 2 ^ (n / p - 1) :=
        Nat.mul_le_mul_left p (Nat.pow_le_pow_right Nat.two_pos (Nat.le_sub_one_of_lt before))
      _ ≤ (if n / p = 0 then n % p else p + n % p) * 2 ^ (n / p - 1) := by
        rw [if_neg (Nat.ne_zero_of_lt before)]
        exact Nat.mul_le_mul_right _ (Nat.le_add_right ..)

theorem units_le (less : x.magnitude ≤ y.magnitude) : x.units ≤ y.units := by
  unfold units significand scale exponentField fractionField
  obtain same | less := Nat.eq_or_lt_of_le less
  · rw [same]
  · exact Nat.le_of_lt (units_lt_units (Nat.two_pow_pos 52) less)

def number (x : Double) : WithBot (WithTop ℚ) :=
  if x.isInfinite then
    if x.isNegative then ⊥ else ⊤
  else
    let size : ℚ := x.units / unitsPerOne
    ((if x.isNegative then -size else size : ℚ) : WithTop ℚ)

theorem number_le (real : x.isNaN = false) (real' : y.isNaN = false) (ordered : x.rank ≤ y.rank) :
    x.number ≤ y.number := by
  have one : (0 : ℚ) ≤ unitsPerOne := Nat.cast_nonneg _
  have sizes {x y : Double} (less : x.magnitude ≤ y.magnitude) :
      (x.units / unitsPerOne : ℚ) ≤ y.units / unitsPerOne :=
    div_le_div_of_nonneg_right (Nat.cast_le.mpr (units_le less)) one
  have positive (x : Double) : (0 : ℚ) ≤ x.units / unitsPerOne := div_nonneg (Nat.cast_nonneg _) one
  simp only [isNaN, decide_eq_false_iff_not, Nat.not_lt] at real real'
  simp only [rank] at ordered
  simp only [number, isInfinite, decide_eq_true_eq]
  have order {a b : ℚ} (less : a ≤ b) : ((a : WithTop ℚ) : WithBot (WithTop ℚ)) ≤ (b : WithTop ℚ) :=
    WithBot.coe_le_coe.mpr (WithTop.coe_le_coe.mpr less)
  -- among the negatives the order of the magnitudes is turned around
  cases sign : x.isNegative with
  | true =>
    by_cases least : x.magnitude = infiniteMagnitude
    · simp only [least, if_true, bot_le]
    cases sign' : y.isNegative with
    | true =>
      simp only [sign, sign', if_true] at ordered
      have finite : y.magnitude ≠ infiniteMagnitude := by omega
      simp only [least, finite, if_true, if_false]
      exact order (neg_le_neg (sizes (by omega)))
    | false =>
      by_cases greatest : y.magnitude = infiniteMagnitude
      · simp only [greatest, if_true, Bool.false_eq_true, if_false, le_top]
      simp only [least, greatest, if_true, if_false, Bool.false_eq_true]
      exact order ((neg_nonpos.mpr (positive x)).trans (positive y))
  | false =>
    cases sign' : y.isNegative with
    | true =>
      simp only [sign, sign', if_true, Bool.false_eq_true, if_false] at ordered
      omega
    | false =>
      simp only [sign, sign', Bool.false_eq_true, if_false] at ordered
      by_cases greatest : y.magnitude = infiniteMagnitude
      · simp only [greatest, if_true, Bool.false_eq_true, if_false, le_top]
      have finite : x.magnitude ≠ infiniteMagnitude := by omega
      simp only [finite, greatest, if_false, Bool.false_eq_true]
      exact order (sizes (by omega))

theorem rank_lt_of_negative_nan (nan : x.isNaN = true) (negative : x.isNegative = true)
    (other : ¬(y.isNaN = true ∧ y.isNegative = true)) : x.rank < y.rank := by
  simp only [isNaN, decide_eq_true_eq, not_and] at nan other
  simp only [rank, negative, if_true]
  split
  · next both =>
    have smaller := mt other (not_not_intro both)
    omega
  · omega

theorem rank_lt_of_positive_nan (nan : y.isNaN = true) (positive : y.isNegative = false)
    (other : ¬(x.isNaN = true ∧ x.isNegative = false)) : x.rank < y.rank := by
  simp only [isNaN, decide_eq_true_eq, not_and, Bool.not_eq_false] at nan other
  simp only [rank, positive, Bool.false_eq_true, if_false]
  split
  · omega
  · next both =>
    have smaller := mt other both
    omega

end Double

namespace Opcodes

inductive Scale where
  | integer (w : Width)
  | double

inductive Comparison where
  | less
  | equal
  | greater
deriving DecidableEq

namespace Comparison

def name : Comparison → String
  | less => "less"
  | equal => "equal"
  | greater => "greater"

def expected : Comparison → Ordering
  | less => .lt
  | equal => .eq
  | greater => .gt

theorem expected_inj {c d : Comparison} : c.expected = d.expected ↔ c = d := by
  cases c <;> cases d <;> decide

theorem exists_expected (order : Ordering) : ∃ c : Comparison, c.expected = order := by
  cases order with
  | lt => exact ⟨less, rfl⟩
  | eq => exact ⟨equal, rfl⟩
  | gt => exact ⟨greater, rfl⟩

end Comparison

namespace Scale

abbrev Carrier : Scale → Type
  | integer w => w.Word
  | double => Double

def calculator : (k : Scale) → Calculator k.Carrier
  | integer w => w.calculator
  | double => .double

def family : Scale → Extension
  | integer w => w.family
  | double => .double

def rank : (k : Scale) → k.Carrier → Int
  | integer w => w.toInt
  | double => Double.rank

def rep (k : Scale) : Representation k.Carrier := k.calculator.rep

def value (k : Scale) : k.Carrier → Value := k.rep.toValue

def opcode (k : Scale) (c : Comparison) : String := k.family.opcode c.name

def holds (k : Scale) (c : Comparison) (a b : k.Carrier) : Bool :=
  k.calculator.compare a b == c.expected

/-- The comparisons are those of a total order, in which only a value itself is equal to it. -/
structure Linear (k : Scale) : Prop where
  single : ∀ a b, ∃! c, k.holds c a b = true
  mirrored : ∀ a b, k.holds .greater a b = k.holds .less b a
  transitive : ∀ a b c, k.holds .less a b = true → k.holds .less b c = true →
    k.holds .less a c = true
  identical : ∀ a b, k.holds .equal a b = true ↔ a = b

/-- The order is that of the numbers. The NaNs are on the side of their sign. -/
def Numeric : Scale → Prop
  | integer w => ∀ a b, (integer w).holds .less a b = true ↔ w.toInt a < w.toInt b
  | double =>
    (∀ x y : Double, x.isNaN = false → y.isNaN = false → x.number < y.number →
      double.holds .less x y = true) ∧
    (∀ x y : Double, x.isNaN = true → x.isNegative = true →
      ¬(y.isNaN = true ∧ y.isNegative = true) → double.holds .less x y = true) ∧
    ∀ x y : Double, y.isNaN = true → y.isNegative = false →
      ¬(x.isNaN = true ∧ x.isNegative = false) → double.holds .less x y = true

variable (k : Scale) {a b : k.Carrier}

theorem compare_eq (a b : k.Carrier) : k.calculator.compare a b = compare (k.rank a) (k.rank b) := by
  cases k with
  | integer w => cases w <;> rfl
  | double => rfl

theorem rank_inj : k.rank a = k.rank b ↔ a = b := by
  refine ⟨fun same => ?_, congrArg k.rank⟩
  cases k with
  | integer w =>
    cases w with
    | int => exact Int32.toInt_inj.mp same
    | long => exact Int64.toInt_inj.mp same
  | double => exact Double.eq_of_rank_eq same

theorem less_iff : k.holds .less a b = true ↔ k.rank a < k.rank b := by
  rw [holds, compare_eq, beq_iff_eq]
  exact compare_lt_iff_lt

theorem equal_iff : k.holds .equal a b = true ↔ k.rank a = k.rank b := by
  rw [holds, compare_eq, beq_iff_eq]
  exact compare_eq_iff_eq

theorem greater_iff : k.holds .greater a b = true ↔ k.rank b < k.rank a := by
  rw [holds, compare_eq, beq_iff_eq]
  exact compare_gt_iff_gt

theorem linear : k.Linear where
  single a b := by
    obtain ⟨c, found⟩ := Comparison.exists_expected (k.calculator.compare a b)
    refine ⟨c, beq_iff_eq.mpr found.symm, fun d other => ?_⟩
    exact Comparison.expected_inj.mp ((beq_iff_eq.mp other).symm.trans found.symm)
  mirrored a b := by rw [Bool.eq_iff_iff, greater_iff, less_iff]
  transitive a b c := by
    simp only [less_iff]
    exact Int.lt_trans
  identical a b := k.equal_iff.trans k.rank_inj

theorem numeric : k.Numeric := by
  cases k with
  | integer w => exact fun a b => (integer w).less_iff
  | double =>
    refine ⟨fun x y real real' less => ?_, fun x y nan negative other => ?_,
      fun x y nan positive other => ?_⟩
    · refine double.less_iff.mpr (Int.not_le.mp fun ordered => ?_)
      exact absurd (Double.number_le real' real ordered) (not_le_of_gt less)
    · exact double.less_iff.mpr (Double.rank_lt_of_negative_nan nan negative other)
    · exact double.less_iff.mpr (Double.rank_lt_of_positive_nan nan positive other)

theorem ofValue?_value (a : k.Carrier) : k.rep.ofValue? (k.value a) = some a := by
  cases k with
  | integer w => exact w.ofValue?_value a
  | double => rfl

theorem planned (c : Comparison) (depth : Nat) : ∃ handler,
    (Machine.standard depth).handler? (k.opcode c) = some handler ∧
      Follows handler (.computing (Plan.binary k.rep .bool (k.holds c))) := by
  cases k with
  | integer w => cases w <;> cases c <;> exact ⟨_, rfl, follows_binary _ _ _⟩
  | double => cases c <;> exact ⟨_, rfl, follows_binary _ _ _⟩

end Scale

end Opcodes

section Steps

variable {p : Program} {s : State} {f : Frame} {below : List Frame} {r : Routine}
  {i : Instruction} {q q' out : Register} {depth : Nat} {k : Opcodes.Scale}
  {c : Opcodes.Comparison} {a b : k.Carrier}

theorem Executes.attempt_comparison (executes : Executes p s f below r i)
    (opcode : i.opcode = k.opcode c) (operands : f.Operands i q q' (k.value a) (k.value b))
    (output : i.output = some out) (inside : out < f.registers.size) (depth : Nat) :
    (Machine.standard depth).attempt p s =
      (.ok true, s.given f out (.bool (k.holds c a b))) := by
  obtain ⟨handler, known, follows⟩ := k.planned c depth
  rw [executes.attempt_value (opcode ▸ known) follows output inside, Plan.binary,
    Frame.operandAs_advance operands.first operands.held,
    Frame.operandAs_advance operands.second operands.held', k.ofValue?_value, k.ofValue?_value]
  rfl

/-- A comparison of two values of one kind writes whether it holds, in one total order in which
every bit pattern of a double has a place of its own. That is the order of the numbers, with a
negative zero before a positive one. -/
theorem Machine.comparisons_ordered (k : Opcodes.Scale) :
    (∀ (depth : Nat) (p : Program) (s : State) (f : Frame) (below : List Frame) (r : Routine)
      (i : Instruction) (q q' out : Register) (c : Opcodes.Comparison) (a b : k.Carrier),
      (standard depth).Reachable p s → Executes p s f below r i → i.opcode = k.opcode c →
      f.Operands i q q' (k.value a) (k.value b) → i.output = some out →
      out < f.registers.size ∧
        (standard depth).attempt p s = (.ok true, s.given f out (.bool (k.holds c a b)))) ∧
      k.Linear ∧ k.Numeric := by
  refine ⟨?_, k.linear, k.numeric⟩
  intro depth p s f below r i q q' out c a b reached executes opcode operands output
  have inside := executes.output_lt reached (Frame.size_pos operands.held) output
  exact ⟨inside, executes.attempt_comparison opcode operands output inside depth⟩

end Steps

theorem State.zeros_compared :
    let main : Routine := ⟨"main", [
      Demo.doubleVal 0 0x8000000000000000,
      Demo.doubleVal 1 0,
      { opcode := "double-less", inputs := [0, 1], output := some 1 },
      Demo.ret], ⟨[(Opcodes.labelKey, .labels [])]⟩⟩
    let p : Program := ⟨[main], {}⟩
    let zero : Double := ⟨0⟩
    let negative : Double := ⟨0x8000000000000000⟩
    let f : Frame := ⟨0, "main", #[.double negative, .double zero], 2, none, none⟩
    let s : State := { calls := ⟨[f], 0⟩, dispatched := 2 }
    (Machine.standard 1).Reachable p s ∧
      (Machine.standard 1).attempt p s = (.ok true, s.given f 1 (.bool true)) ∧
      ∀ c, Opcodes.Scale.double.holds c negative zero = true → c = .less := by
  intro main p zero negative f s
  have reached : (Machine.standard 1).Reachable p s := by
    have started : (Machine.standard 1).start p {} =
        .ok { calls := ⟨[⟨0, "main", #[.unset, .unset], 0, none, none⟩], 0⟩ } := rfl
    exact (Machine.Reachable.start started).step.step
  have executes : Executes p s f [] main main.body[2] := ⟨rfl, rfl, rfl⟩
  have less : Opcodes.Scale.double.holds .less negative zero = true := by decide
  obtain ⟨writes, linear, -⟩ := Machine.comparisons_ordered .double
  obtain ⟨-, attempted⟩ := writes 1 p s f [] main main.body[2] 0 1 1 .less negative zero reached
    executes rfl ⟨rfl, rfl, rfl, rfl⟩ rfl
  rw [less] at attempted
  exact ⟨reached, attempted, fun c holds => (linear.single negative zero).unique holds less⟩

end RegisterMachine
