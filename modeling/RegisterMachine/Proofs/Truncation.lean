import RegisterMachine.Proofs.Narrowing
import Mathlib.Data.Rat.Floor

/-!
Between integers and doubles. A double becomes an integer by losing its fraction, and is held within
the range of the integers; so the casts keep the order of the numbers, and the cast to ints is the
cast to longs held within the range of the ints. An integer of at most 53 bits is a double itself,
and comes back as it was.
-/

namespace RegisterMachine

/-- The integer next to a rational on the side of zero. -/
def towardZero (q : ℚ) : Int := if 0 ≤ q then ⌊q⌋ else ⌈q⌉

section Rounding

variable {q q' : ℚ} {n : Int}

theorem towardZero_le (below : q ≤ n) : towardZero q ≤ n := by
  unfold towardZero
  split
  · exact Int.cast_le.mp ((Int.floor_le q).trans below)
  · exact Int.ceil_le.mpr below

theorem le_towardZero (above : (n : ℚ) ≤ q) : n ≤ towardZero q := by
  unfold towardZero
  split
  · exact Int.le_floor.mpr above
  · exact Int.cast_le.mp (above.trans (Int.le_ceil q))

theorem towardZero_mono (ordered : q ≤ q') : towardZero q ≤ towardZero q' := by
  by_cases positive : 0 ≤ q
  · have positive' : 0 ≤ q' := positive.trans ordered
    simp only [towardZero, positive, positive', if_true]
    exact Int.floor_le_floor ordered
  · by_cases positive' : 0 ≤ q'
    · have low : towardZero q ≤ 0 := towardZero_le (n := 0) (by simpa using (not_le.mp positive).le)
      have high : 0 ≤ towardZero q' := le_towardZero (n := 0) (by simpa using positive')
      exact low.trans high
    · simp only [towardZero, positive, positive', if_false]
      exact Int.ceil_le_ceil ordered

theorem towardZero_neg (positive : 0 ≤ q) : towardZero (-q) = -⌊q⌋ := by
  unfold towardZero
  split
  · next also =>
    obtain rfl : q = 0 := le_antisymm (neg_nonneg.mp also) positive
    simp
  · exact Int.ceil_neg

end Rounding

namespace Double

variable {x : Double} {n : Int} {q q' : ℚ}

def rational (q : ℚ) : WithBot (WithTop ℚ) := (q : WithTop ℚ)

@[simp] theorem rational_le : rational q ≤ rational q' ↔ q ≤ q' :=
  WithBot.coe_le_coe.trans WithTop.coe_le_coe

@[simp] theorem rational_lt : rational q < rational q' ↔ q < q' :=
  WithBot.coe_lt_coe.trans WithTop.coe_lt_coe

theorem rational_inj (same : rational q = rational q') : q = q' :=
  le_antisymm (rational_le.mp same.le) (rational_le.mp same.ge)

theorem bot_lt_rational (q : ℚ) : ⊥ < rational q := WithBot.bot_lt_coe _

theorem rational_lt_top (q : ℚ) : rational q < ⊤ := WithBot.coe_lt_coe.mpr (WithTop.coe_lt_top q)

theorem number_cases (x : Double) : x.number = ⊥ ∨ x.number = ⊤ ∨ ∃ q, x.number = rational q := by
  unfold number
  split
  · split
    · exact .inl rfl
    · exact .inr (.inl rfl)
  · exact .inr (.inr ⟨_, rfl⟩)

theorem truncate_of_finite (finite : x.isInfinite = false) :
    ∃ q, x.number = rational q ∧ x.truncate = towardZero q := by
  have positive : (0 : ℚ) ≤ x.units / unitsPerOne := div_nonneg (Nat.cast_nonneg _)
    (Nat.cast_nonneg _)
  have whole : ⌊(x.units / unitsPerOne : ℚ)⌋ = ((x.units / unitsPerOne : Nat) : Int) :=
    Rat.floor_natCast_div_natCast ..
  refine ⟨if x.isNegative then -(x.units / unitsPerOne) else x.units / unitsPerOne, ?_, ?_⟩
  · simp only [number, finite, Bool.false_eq_true, if_false]
    rfl
  · unfold truncate
    cases x.isNegative with
    | true => simp only [if_true, towardZero_neg positive, whole]
    | false => simp only [towardZero, positive, whole, Bool.false_eq_true, if_true, if_false]

theorem truncate_of_infinite (infinite : x.isInfinite = true) :
    if x.isNegative then x.number = ⊥ ∧ x.truncate = -2 ^ 1024
    else x.number = ⊤ ∧ x.truncate = 2 ^ 1024 := by
  have magnitude : x.magnitude = infiniteMagnitude := decide_eq_true_eq.mp infinite
  have whole : x.units / unitsPerOne = 2 ^ 1024 := by
    simp only [units, significand, scale, exponentField, fractionField, magnitude]
    decide +kernel
  simp only [number, truncate, infinite, whole, if_true]
  cases x.isNegative with
  | true => exact ⟨rfl, by simp only [if_true, Nat.cast_pow, Nat.cast_ofNat]⟩
  | false => exact ⟨rfl, by simp only [Bool.false_eq_true, if_false, Nat.cast_pow, Nat.cast_ofNat]⟩

theorem truncate_le (small : -2 ^ 1024 ≤ n) (below : x.number ≤ rational n) : x.truncate ≤ n := by
  cases infinite : x.isInfinite with
  | false =>
    obtain ⟨q, number, truncated⟩ := truncate_of_finite infinite
    rw [number] at below
    rw [truncated]
    exact towardZero_le (rational_le.mp below)
  | true =>
    have ends := truncate_of_infinite infinite
    split at ends
    · rw [ends.2]
      exact small
    · rw [ends.1] at below
      exact absurd below (rational_lt_top _).not_ge

theorem le_truncate (small : n ≤ 2 ^ 1024) (above : rational n ≤ x.number) :
    n ≤ x.truncate := by
  cases infinite : x.isInfinite with
  | false =>
    obtain ⟨q, number, truncated⟩ := truncate_of_finite infinite
    rw [number] at above
    rw [truncated]
    exact le_towardZero (rational_le.mp above)
  | true =>
    have ends := truncate_of_infinite infinite
    split at ends
    · rw [ends.1] at above
      exact absurd above (bot_lt_rational _).not_ge
    · rw [ends.2]
      exact small

theorem units_of_normal {k m : Nat} (low : 2 ^ 52 ≤ m) (high : m < 2 ^ 53)
    (magnitude : x.magnitude = k * 2 ^ 52 + m) : x.units = m * 2 ^ k := by
  obtain ⟨fraction, rfl⟩ := Nat.exists_eq_add_of_le low
  have exponent : x.exponentField = k + 1 := by
    rw [exponentField, magnitude, pow2]
    change (k * 2 ^ 52 + (2 ^ 52 + fraction)) / 2 ^ 52 = k + 1
    omega
  have rest : x.fractionField = fraction := by
    rw [fractionField, magnitude]
    change (k * 2 ^ 52 + (2 ^ 52 + fraction)) % 2 ^ 52 = fraction
    omega
  simp only [units, significand, scale, exponent, rest, Nat.succ_ne_zero, if_false,
    Nat.add_sub_cancel]
  rfl

theorem ofMagnitude_fields (negative : Bool) {m : Nat} (small : m < 2 ^ 63) :
    (ofMagnitude negative m).isNegative = negative ∧ (ofMagnitude negative m).magnitude = m := by
  have size : pow2 63 = 2 ^ 63 := rfl
  have word : (if negative then pow2 63 + m else m) < 2 ^ 64 := by split <;> omega
  have bits : (ofMagnitude negative m).bits.toNat = if negative then pow2 63 + m else m :=
    UInt64.toNat_ofNat_of_lt word
  simp only [isNegative, Double.magnitude, bits, size]
  cases negative
  · simp only [Bool.false_eq_true, if_false, decide_eq_false_iff_not]
    omega
  · simp only [if_true, decide_eq_true_eq]
    omega

theorem log2_mul_pow2 {a : Nat} (positive : a ≠ 0) (k : Nat) :
    (a * pow2 k).log2 = a.log2 + k := by
  have large : a * pow2 k ≠ 0 := Nat.mul_ne_zero positive (Nat.two_pow_pos k).ne'
  obtain ⟨low, high⟩ := (Nat.log2_eq_iff positive).mp rfl
  rw [Nat.log2_eq_iff large, Nat.add_right_comm, Nat.pow_add, Nat.pow_add]
  exact ⟨Nat.mul_le_mul_right _ low, Nat.mul_lt_mul_of_pos_right high (Nat.two_pow_pos k)⟩

theorem roundShift_mul (m k : Nat) : roundShift (m * pow2 k) k = m := by
  have positive : 0 < pow2 k := Nat.two_pow_pos k
  have kept : m * pow2 k / pow2 k = m := Nat.mul_div_cancel m positive
  have dropped : m * pow2 k % pow2 k = 0 := Nat.mul_mod_left m _
  simp only [roundShift, kept, dropped]
  rw [if_neg (by omega), if_neg (by omega)]

/-- A number of at most 53 bits and zeros is not rounded: the significand is made of its bits, with
some of the zeros behind them. -/
theorem nearest_exact (negative : Bool) {a e : Nat} (positive : a ≠ 0) (small : a < 2 ^ 53)
    (zeros : 52 ≤ e) (range : e < 2046) :
    ∃ k m, 2 ^ 52 ≤ m ∧ m < 2 ^ 53 ∧ k < 2046 ∧ m * 2 ^ k = a * pow2 e ∧
      nearest negative (a * pow2 e) = ofMagnitude negative (k * 2 ^ 52 + m) := by
  obtain ⟨low, high⟩ := (Nat.log2_eq_iff positive).mp rfl
  have short : a.log2 < 53 := (Nat.log2_lt positive).mpr small
  -- the bits of `a` are shifted to the top of the significand, and the other zeros are dropped
  have filled : 2 ^ a.log2 * 2 ^ (52 - a.log2) = 2 ^ 52 := by
    rw [← Nat.pow_add, Nat.add_sub_cancel' (by omega)]
  have least : 2 ^ 52 ≤ a * 2 ^ (52 - a.log2) := filled ▸ Nat.mul_le_mul_right _ low
  have most : a * 2 ^ (52 - a.log2) < 2 ^ 53 := by
    have next : 2 ^ (a.log2 + 1) * 2 ^ (52 - a.log2) = 2 ^ 53 := by
      rw [Nat.pow_succ, Nat.mul_right_comm, filled]
      rfl
    exact next ▸ Nat.mul_lt_mul_of_pos_right high (Nat.two_pow_pos _)
  have length : (a * pow2 e).log2 - 52 = a.log2 + (e - 52) := by
    rw [log2_mul_pow2 positive]
    omega
  have scaled : a * pow2 e = a * 2 ^ (52 - a.log2) * pow2 (a.log2 + (e - 52)) := by
    have total : e = 52 - a.log2 + (a.log2 + (e - 52)) := by omega
    have joined : pow2 e = 2 ^ (52 - a.log2) * pow2 (a.log2 + (e - 52)) :=
      (congrArg pow2 total).trans (Nat.pow_add ..)
    rw [Nat.mul_assoc, ← joined]
  refine ⟨a.log2 + (e - 52), a * 2 ^ (52 - a.log2), least, most, by omega, scaled.symm, ?_⟩
  have inside : (a.log2 + (e - 52)) * pow2 52 + a * 2 ^ (52 - a.log2) ≤ infiniteMagnitude := by
    have size : pow2 52 = 2 ^ 52 := rfl
    rw [infiniteMagnitude, size]
    omega
  simp only [nearest, length]
  rw [scaled, roundShift_mul, Nat.min_eq_left inside]
  rfl

theorem unitsPerOne_eq : ∃ e, unitsPerOne = pow2 e ∧ 52 ≤ e ∧ e < 2046 := by
  unfold unitsPerOne
  exact ⟨_, Eq.refl _, by decide, by decide⟩

/-- An integer of at most 53 bits keeps its sign and its units. -/
theorem ofInt_exact (small : n.natAbs < 2 ^ 53) :
    (ofInt n).isNaN = false ∧ (ofInt n).isInfinite = false ∧ (ofInt n).isNegative = decide (n < 0) ∧
      (ofInt n).units = n.natAbs * unitsPerOne := by
  by_cases zero : n = 0
  · subst zero
    decide +kernel
  obtain ⟨e, one, zeros, range⟩ := unitsPerOne_eq
  obtain ⟨k, m, least, most, bounded, total, same⟩ :=
    nearest_exact (decide (n < 0)) (Int.natAbs_ne_zero.mpr zero) small zeros range
  have inside : k * 2 ^ 52 + m < infiniteMagnitude := by
    have size : infiniteMagnitude = 2047 * 2 ^ 52 := rfl
    rw [size]
    omega
  have word : k * 2 ^ 52 + m < 2 ^ 63 := by omega
  obtain ⟨sign, magnitude⟩ := ofMagnitude_fields (decide (n < 0)) word
  rw [ofInt, one, same]
  refine ⟨?_, ?_, sign, ?_⟩
  · simp only [isNaN, magnitude, decide_eq_false_iff_not]
    omega
  · simp only [isInfinite, magnitude, decide_eq_false_iff_not]
    omega
  · rw [units_of_normal least most magnitude, total]

theorem number_ofInt (small : n.natAbs < 2 ^ 53) :
    (ofInt n).isNaN = false ∧ (ofInt n).number = rational n := by
  obtain ⟨real, finite, sign, units⟩ := ofInt_exact small
  have one : (unitsPerOne : ℚ) ≠ 0 := by
    obtain ⟨e, power, -⟩ := unitsPerOne_eq
    exact Nat.cast_ne_zero.mpr (power ▸ (Nat.two_pow_pos e).ne')
  have size : ((ofInt n).units / unitsPerOne : ℚ) = (n.natAbs : ℚ) := by
    rw [units, Nat.cast_mul, mul_div_cancel_right₀ _ one]
  refine ⟨real, ?_⟩
  simp only [number, finite, sign, size, Bool.false_eq_true, if_false, decide_eq_true_eq]
  have signed : (if n < 0 then -(n.natAbs : ℚ) else n.natAbs) = (n : ℚ) := by
    split <;> rw [Nat.cast_natAbs]
    · next negative => rw [abs_of_neg negative, Int.cast_neg, neg_neg]
    · next positive => rw [abs_of_nonneg (not_lt.mp positive)]
  rw [signed]
  rfl

end Double

namespace Opcodes

namespace Width

def greatest (w : Width) : Int := 2 ^ (w.bits - 1) - 1

def ofDouble : (w : Width) → Double → w.Word
  | int => doubleToInt
  | long => doubleToLong

def ofInt32 : (w : Width) → Int32 → w.Word
  | int => id
  | long => Int32.toInt64

def truncation : Width → String
  | int => "cast-double-to-int"
  | long => "cast-double-to-long"

/-- A double is turned into zero if it is a NaN, into an end of the range if it is beyond it, and
otherwise into the number that is left of it without the fraction. -/
structure Truncates (w : Width) (x : Double) (n : Int) : Prop where
  nan : x.isNaN = true → n = 0
  below : x.isNaN = false → x.number < Double.rational w.least → n = w.least
  above : x.isNaN = false → Double.rational w.greatest < x.number → n = w.greatest
  within : x.isNaN = false → ∀ q, x.number = Double.rational q → w.least ≤ q → q ≤ w.greatest →
    n = towardZero q

variable (w : Width) {x : Double} {n : Int}

theorem range (w : Width) : -2 ^ 1024 ≤ w.least ∧ w.least ≤ 0 ∧ 0 ≤ w.greatest ∧
    w.greatest ≤ 2 ^ 1024 := by
  cases w <;> decide +kernel

theorem toInt_ofDouble (x : Double) : w.toInt (w.ofDouble x) = x.saturate w.least w.greatest := by
  obtain ⟨-, low, high, -⟩ := w.range
  have inside : w.least ≤ x.saturate w.least w.greatest ∧
      x.saturate w.least w.greatest ≤ w.greatest := by
    unfold Double.saturate
    split <;> omega
  have reduced := w.reduce_of_mem inside.1 (Int.lt_of_le_sub_one inside.2)
  cases w with
  | int => exact Int32.toInt_ofInt.trans reduced
  | long => exact Int64.toInt_ofInt.trans reduced

theorem toInt_injective : Function.Injective w.toInt := by
  intro a b same
  cases w with
  | int => exact Int32.toInt_inj.mp same
  | long => exact Int64.toInt_inj.mp same

theorem toInt_ofInt32 (v : Int32) : w.toInt (w.ofInt32 v) = v.toInt := by
  cases w with
  | int => rfl
  | long => exact Int32.toInt_toInt64 v

theorem truncates (x : Double) : w.Truncates x (w.toInt (w.ofDouble x)) := by
  obtain ⟨lowest, low, high, highest⟩ := w.range
  rw [toInt_ofDouble, Double.saturate]
  refine ⟨fun nan => by rw [nan, if_pos rfl], fun real small => ?_, fun real large => ?_,
    fun real q number inside inside' => ?_⟩ <;> rw [real, if_neg Bool.false_ne_true]
  · have least := Double.truncate_le lowest small.le
    omega
  · have greatest := Double.le_truncate highest large.le
    omega
  · have finite : x.isInfinite = false := by
      refine Bool.not_eq_true _ ▸ fun infinite => ?_
      have ends := Double.truncate_of_infinite infinite
      rw [number] at ends
      split at ends
      · exact absurd ends.1 (Double.bot_lt_rational q).ne'
      · exact absurd ends.1 (Double.rational_lt_top q).ne
    obtain ⟨q', number', truncated⟩ := Double.truncate_of_finite finite
    obtain rfl := Double.rational_inj (number.symm.trans number')
    have least := le_towardZero inside
    have greatest := towardZero_le inside'
    omega

theorem Truncates.cases (truncates : w.Truncates x n) (real : x.isNaN = false) :
    (x.number < Double.rational w.least ∧ n = w.least) ∨
    Double.rational w.greatest < x.number ∧ n = w.greatest ∨
    ∃ q, x.number = Double.rational q ∧ w.least ≤ q ∧ q ≤ w.greatest ∧ n = towardZero q := by
  obtain small | large := lt_or_ge x.number (Double.rational w.least)
  · exact .inl ⟨small, truncates.below real small⟩
  obtain great | small := lt_or_ge (Double.rational w.greatest) x.number
  · exact .inr (.inl ⟨great, truncates.above real great⟩)
  obtain bot | top | ⟨q, number⟩ := x.number_cases
  · exact absurd large (bot ▸ (Double.bot_lt_rational _).not_ge)
  · exact absurd small (top ▸ (Double.rational_lt_top _).not_ge)
  · rw [number, Double.rational_le] at large small
    exact .inr (.inr ⟨q, number, large, small, truncates.within real q number large small⟩)

theorem Truncates.mono {y : Double} {m : Int} (truncates : w.Truncates x n) (real : x.isNaN = false)
    (truncates' : w.Truncates y m) (real' : y.isNaN = false) (ordered : x.number ≤ y.number) :
    n ≤ m := by
  have ends : w.least ≤ w.greatest := by
    obtain ⟨-, low, high, -⟩ := w.range
    omega
  obtain ⟨-, rfl⟩ | ⟨great, rfl⟩ | ⟨q, number, least, greatest, rfl⟩ := truncates.cases w real <;>
    obtain ⟨small, rfl⟩ | ⟨-, rfl⟩ | ⟨q', number', least', greatest', rfl⟩ :=
      truncates'.cases w real'
  · exact le_rfl
  · exact ends
  · exact le_towardZero least'
  · have crossed := (great.trans_le ordered).trans small
    exact absurd (Int.cast_lt.mp (Double.rational_lt.mp crossed)) ends.not_gt
  · exact le_rfl
  · have crossed := great.trans_le ordered
    rw [number'] at crossed
    exact absurd greatest' (Double.rational_lt.mp crossed).not_ge
  · have crossed := ordered.trans_lt small
    rw [number] at crossed
    exact absurd least (Double.rational_lt.mp crossed).not_ge
  · exact towardZero_le greatest
  · rw [number, number'] at ordered
    exact towardZero_mono (Double.rational_le.mp ordered)

theorem ofDouble_ofInt (v : Int32) : w.ofDouble (Double.ofInt v.toInt) = w.ofInt32 v := by
  have low := v.le_toInt
  have high := v.toInt_lt
  obtain ⟨real, number⟩ := Double.number_ofInt (n := v.toInt) (by omega)
  obtain ⟨least, greatest⟩ : w.least ≤ v.toInt ∧ v.toInt ≤ w.greatest := by
    cases w <;> simp only [least, greatest, bits] <;> omega
  have whole : w.toInt (w.ofDouble (Double.ofInt v.toInt)) = towardZero (v.toInt : ℚ) :=
    (w.truncates _).within real _ number (Int.cast_le.mpr least) (Int.cast_le.mpr greatest)
  have same : towardZero (v.toInt : ℚ) = v.toInt :=
    le_antisymm (towardZero_le le_rfl) (le_towardZero le_rfl)
  exact w.toInt_injective (whole.trans (same.trans (w.toInt_ofInt32 v).symm))

end Width

/-- What the casts between integers and doubles do to the numbers. -/
structure TruncationLaws : Prop where
  truncated : ∀ (w : Width) (x : Double), w.Truncates x (w.toInt (w.ofDouble x))
  ordered : ∀ (w : Width) (x y : Double), x.isNaN = false → y.isNaN = false →
    x.number ≤ y.number → w.toInt (w.ofDouble x) ≤ w.toInt (w.ofDouble y)
  held : ∀ x : Double, (doubleToInt x).toInt =
    max Int32.minValue.toInt (min Int32.maxValue.toInt (doubleToLong x).toInt)
  unwrapped : ∃ x : Double, doubleToInt x ≠ (doubleToLong x).toInt32
  exact : ∀ v : Int32, (Double.ofInt v.toInt).isNaN = false ∧
    (Double.ofInt v.toInt).number = Double.rational v.toInt
  restored : ∀ (w : Width) (v : Int32), w.ofDouble (Double.ofInt v.toInt) = w.ofInt32 v

theorem truncationLaws : TruncationLaws where
  truncated w := w.truncates
  ordered w x y real real' less :=
    (w.truncates x).mono w real (w.truncates y) real' less
  held x := by
    have int := Width.int.toInt_ofDouble x
    have long := Width.long.toInt_ofDouble x
    change (doubleToInt x).toInt = x.saturate (-2 ^ 31) (2 ^ 31 - 1) at int
    change (doubleToLong x).toInt = x.saturate (-2 ^ 63) (2 ^ 63 - 1) at long
    have least : Int32.minValue.toInt = -2 ^ 31 := rfl
    have greatest : Int32.maxValue.toInt = 2 ^ 31 - 1 := rfl
    rw [int, long, least, greatest]
    unfold Double.saturate
    split <;> omega
  unwrapped := ⟨⟨0x41e0000000000000⟩, by decide +kernel⟩
  exact v := by
    have low := v.le_toInt
    have high := v.toInt_lt
    exact Double.number_ofInt (by omega)
  restored w v := w.ofDouble_ofInt v

end Opcodes

section Steps

open Opcodes

variable {p : Program} {s : State} {depth : Nat}

/-- The casts from doubles write the integer that the laws are about, and the cast from ints writes
the double. An int that is turned into a double and back is the int, or the long, that it was from
the beginning. -/
theorem Machine.casts_truncate (reached : (standard depth).Reachable p s) :
    TruncationLaws ∧
    ∀ f below r i q out, Executes p s f below r i → i.inputs[0]? = some q → i.output = some out →
      ((q < f.registers.size ∧ out < f.registers.size) ∨ f.Uncounted p) ∧
      (∀ (w : Width) (x : Double), i.opcode = w.truncation → f.registers[q]? = some (.double x) →
        (standard depth).attempt p s = (.ok true, s.given f out (w.value (w.ofDouble x)))) ∧
      ∀ v : Int32, f.registers[q]? = some (.int v) →
        (i.opcode = "cast-int-to-long" →
          (standard depth).attempt p s = (.ok true, s.given f out (.long v.toInt64))) ∧
        (i.opcode = "cast-int-to-double" →
          let x := Double.ofInt v.toInt
          let t := s.given f out (.double x)
          (standard depth).attempt p s = (.ok true, t) ∧
          ∀ (w : Width) (j : Instruction) (out' : Register), r.body[f.pointer + 1]? = some j →
            j.opcode = w.truncation → j.inputs[0]? = some out → j.output = some out' →
            (standard depth).runFor p 2 s = (.unfinished,
              t.given (f.advance.put out (.double x)) out' (w.value (w.ofInt32 v)))) := by
  refine ⟨truncationLaws, fun f below r i q out executes first output => ?_⟩
  have inside {v : Value} (held : f.registers[q]? = some v) : out < f.registers.size :=
    executes.output_lt reached (Frame.size_pos held) output
  have known (w : Width) : (standard depth).handler? w.truncation =
      some (unary .double w.rep w.ofDouble) := by cases w <;> rfl
  refine ⟨executes.registers_or_uncounted reached first output, fun w x opcode held => ?_,
    fun v held => ⟨fun opcode => ?_, fun opcode => ?_⟩⟩
  · exact executes.attempt_unary (opcode ▸ known w) first held output (inside held)
  · have widens : (standard depth).handler? i.opcode =
        some (unary .int .long Int32.toInt64) := opcode ▸ rfl
    exact executes.attempt_unary widens first held output (inside held)
  · have converts : (standard depth).handler? i.opcode =
        some (unary .int .double fun v => Double.ofInt v.toInt) := opcode ▸ rfl
    intro x t
    have converted : (standard depth).attempt p s = (.ok true, t) :=
      executes.attempt_unary converts first held output (inside held)
    refine ⟨converted, fun w j out' fetched opcode' first' output' => ?_⟩
    have after : (standard depth).Reachable p t := by
      have stepped := reached.step
      rwa [converted] at stepped
    have next : Executes p t (f.advance.put out (.double x)) below r j :=
      ⟨Stack.items_replaceTop executes.top _, executes.found, fetched⟩
    have written : (f.advance.put out (.double x)).registers[out]? = some (.double x) :=
      Array.getElem?_setIfInBounds_self_of_lt (inside held)
    have truncated := next.attempt_unary (opcode' ▸ known w) first' written output'
      (next.output_lt after (Frame.size_pos written) output')
    rw [runFor_succ_of_ok converted, runFor_succ_of_ok truncated, ← w.ofDouble_ofInt]
    rfl

theorem State.least_restored :
    let least := Int32.minValue
    let cast (opcode : String) (q out : Register) : Instruction :=
      { opcode, inputs := [q], output := some out }
    let main : Routine := ⟨"main", [Demo.intVal 0 least, cast "cast-int-to-double" 0 1,
      cast "cast-double-to-long" 1 2, Demo.ret], ⟨[(Opcodes.labelKey, .labels [])]⟩⟩
    let f : Frame := ⟨0, "main", #[.int least, .unset, .unset], 1, none, none⟩
    let s : State := { calls := ⟨[f], 0⟩, dispatched := 1 }
    let g : Frame := ⟨0, "main", #[.int least, .double ⟨0xc1e0000000000000⟩, .long (-2 ^ 31)], 3,
      none, none⟩
    (Machine.standard 1).Reachable ⟨[main], {}⟩ s ∧
      (Machine.standard 1).runFor ⟨[main], {}⟩ 2 s =
        (.unfinished, { calls := ⟨[g], 0⟩, dispatched := 3 }) := by
  intro least cast main f s g
  have started : (Machine.standard 1).start ⟨[main], {}⟩ {} =
      .ok { calls := ⟨[⟨0, "main", #[.unset, .unset, .unset], 0, none, none⟩], 0⟩ } := rfl
  have reached : (Machine.standard 1).Reachable ⟨[main], {}⟩ s :=
    (Machine.Reachable.start started).step
  have executes : Executes ⟨[main], {}⟩ s f [] main (cast "cast-int-to-double" 0 1) :=
    ⟨rfl, rfl, rfl⟩
  obtain ⟨-, -, casts⟩ := (Machine.casts_truncate reached).2 f [] main _ 0 1 executes rfl rfl
  obtain ⟨-, returned⟩ := (casts least rfl).2 rfl
  have ran := returned .long (cast "cast-double-to-long" 1 2) 2 rfl rfl rfl rfl
  have double : Double.ofInt least.toInt = ⟨0xc1e0000000000000⟩ := by decide +kernel
  rw [double] at ran
  exact ⟨reached, ran.trans rfl⟩

end Steps

end RegisterMachine
