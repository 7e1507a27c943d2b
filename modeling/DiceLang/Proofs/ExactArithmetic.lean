import DiceLang.Proofs.Magnitude
import DiceLang.Proofs.Numeral
import Mathlib.Algebra.Order.Ring.Int

/-!
# Exact arithmetic

An operation comes to just what it comes to among the integers (`Operator.Exact`), or to an error
that says why it does not. A power is refused before it is computed only if it could not fit
(`lt_pow_of_bitLength`); and one that is computed is not much too large (`pow_le_of_bitLength`), so
that no number on the way is large.

* `Operator.exists_exact`: where there is an exact result, and why there is none elsewhere;
* `Operator.Exact.apply`: the exact result, or the refusal of a power that is over the limit;
* `Operator.Computes.le`: the numbers on the way;
* `Operator.failure_of_calculate`: which errors cannot be told;
* `Operator.calculate_exact`: how a calculation with numbers within the limit ends.
-/

namespace DiceLang

/-! ## Lengths in binary digits -/

theorem lt_two_pow_bitLength (n : Nat) : n < 2 ^ bitLength n := by
  unfold bitLength
  split
  · omega
  · exact Nat.lt_log2_self

theorem two_pow_le_of_ne_zero {n : Nat} (h : n ≠ 0) : 2 ^ (bitLength n - 1) ≤ n := by
  rw [bitLength, if_neg h]
  exact Nat.log2_self_le h

theorem bitLength_le (n : Nat) : bitLength n ≤ n := by
  unfold bitLength
  split
  · omega
  · rename_i h
    have hpow := Nat.log2_self_le h
    have hlog := Nat.lt_two_pow_self (n := n.log2)
    omega

/-- A power that is refused for the lengths of its base and of the limit exceeds the limit. -/
theorem lt_pow_of_bitLength {base limit exponent : Nat} (hbase : base ≠ 0)
    (h : bitLength limit < (bitLength base - 1) * exponent) : limit < base ^ exponent := by
  calc limit
    _ < 2 ^ bitLength limit := lt_two_pow_bitLength limit
    _ ≤ 2 ^ ((bitLength base - 1) * exponent) := Nat.pow_le_pow_right (by omega) (by omega)
    _ = (2 ^ (bitLength base - 1)) ^ exponent := Nat.pow_mul ..
    _ ≤ base ^ exponent := Nat.pow_le_pow_left (two_pow_le_of_ne_zero hbase) exponent

/-- A power that is not refused for the lengths is at most the square of twice the limit: the base
has one digit more than is counted, and so the power at most twice as many. -/
theorem pow_le_of_bitLength {base limit exponent : Nat} (hbase : 1 < base) (hlimit : limit ≠ 0)
    (h : (bitLength base - 1) * exponent ≤ bitLength limit) :
    base ^ exponent ≤ 4 * limit ^ 2 := by
  have hlength : 2 ≤ bitLength base := by
    refine Nat.not_lt.mp fun hshort => ?_
    have hpow : 2 ^ bitLength base ≤ 2 ^ 1 := Nat.pow_le_pow_right (by omega) (by omega)
    have hlt := lt_two_pow_bitLength base
    omega
  have hexponent : exponent ≤ (bitLength base - 1) * exponent :=
    Nat.le_mul_of_pos_left exponent (by omega)
  have hdigits : bitLength base * exponent ≤ bitLength limit * 2 := by
    obtain ⟨k, hk⟩ : ∃ k, bitLength base = k + 1 := ⟨bitLength base - 1, by omega⟩
    rw [hk, Nat.add_sub_cancel] at h hexponent
    rw [hk, Nat.succ_mul]
    omega
  have hdouble : 2 ^ bitLength limit ≤ 2 * limit := by
    have hpow := two_pow_le_of_ne_zero hlimit
    have hpos : bitLength limit = bitLength limit - 1 + 1 := by
      rw [bitLength, if_neg hlimit]
      omega
    rw [hpos, Nat.pow_succ]
    omega
  calc base ^ exponent
    _ ≤ (2 ^ bitLength base) ^ exponent :=
      Nat.pow_le_pow_left (Nat.le_of_lt (lt_two_pow_bitLength base)) exponent
    _ = 2 ^ (bitLength base * exponent) := (Nat.pow_mul ..).symm
    _ ≤ 2 ^ (bitLength limit * 2) := Nat.pow_le_pow_right (by omega) hdigits
    _ = (2 ^ bitLength limit) ^ 2 := Nat.pow_mul ..
    _ ≤ (2 * limit) ^ 2 := Nat.pow_le_pow_left hdouble 2
    _ = 4 * limit ^ 2 := Nat.mul_pow 2 limit 2

/-! ## Numbers that can be written -/

theorem Limits.Admits.isWritable {limits : Limits} {n : Int} (hn : limits.Admits n)
    (hlimit : limits.maxDigits ≤ Text.maxNumeralLength) : Text.isWritable n = true :=
  Text.isWritable_iff.mpr
    (Nat.lt_of_le_of_lt hn ((Nat.length_repr_le_iff (by decide)).mp hlimit))

/-- The square of this number is the least that cannot be written. -/
theorem exists_half_length :
    ∃ n : Nat, n = 10 ^ 2150 ∧ 10 ^ 19 ≤ n ∧ n * n = 10 ^ Text.maxNumeralLength := by
  -- For any exponent, lest the powers be computed.
  have hpow : ∀ k, 19 ≤ k → 10 ^ 19 ≤ 10 ^ k ∧ 10 ^ k * 10 ^ k = 10 ^ (k + k) := fun k hk =>
    ⟨Nat.pow_le_pow_right (by decide) hk, (Nat.pow_add 10 k k).symm⟩
  rw [show Text.maxNumeralLength = 2150 + 2150 from rfl]
  exact ⟨_, rfl, hpow 2150 (by decide)⟩

/-! ## Exact results -/

/-- `n` is what the operation on `a` and `b` comes to among the integers. A quotient is the whole
part of the exact one: it does not exceed it in magnitude, and leaves a rest that is less than the
divisor. -/
inductive Operator.Exact (a b : Int) : Operator → Int → Prop
  | add : Exact a b .add (a + b)
  | subtract : Exact a b .subtract (a - b)
  | multiply : Exact a b .multiply (a * b)
  | divide {q} : (b * q).natAbs ≤ a.natAbs → (a - b * q).natAbs < b.natAbs → Exact a b .divide q
  | power {k : Nat} : b = k → Exact a b .power (a ^ k)

theorem tdiv_whole (a : Int) {b : Int} (hb : b ≠ 0) :
    (b * a.tdiv b).natAbs ≤ a.natAbs ∧ (a - b * a.tdiv b).natAbs < b.natAbs := by
  constructor
  · rw [Int.natAbs_mul, Int.natAbs_tdiv]
    exact Nat.mul_div_le a.natAbs b.natAbs
  · have hmod : (a.tmod b).natAbs < b.natAbs := by
      rw [Int.natAbs_tmod]
      exact Nat.mod_lt _ (by omega)
    have heq := Int.mul_tdiv_add_tmod a b
    omega

theorem tdiv_unique {a b q : Int} (hle : (b * q).natAbs ≤ a.natAbs)
    (hrest : (a - b * q).natAbs < b.natAbs) : a.tdiv b = q := by
  obtain ⟨hle', hrest'⟩ := tdiv_whole a (show b ≠ 0 by omega)
  -- Both rests have the sign of the dividend, so they differ by less than the divisor.
  have hdiff : b.natAbs * (a.tdiv b - q).natAbs < b.natAbs := by
    rw [← Int.natAbs_mul, Int.mul_sub]
    omega
  refine Decidable.byContradiction fun hne => ?_
  have hmul := Nat.le_mul_of_pos_right b.natAbs (show 0 < (a.tdiv b - q).natAbs by omega)
  omega

namespace Operator

variable {limits : Limits} {op : Operator} {a b n : Int}

/-- What the operation gives is exact. -/
theorem exact_of_apply (h : op.apply limits a b = .ok n) : op.Exact a b n := by
  cases op with
  | add =>
    obtain rfl := Except.ok.inj h
    exact .add
  | subtract =>
    obtain rfl := Except.ok.inj h
    exact .subtract
  | multiply =>
    obtain rfl := Except.ok.inj h
    exact .multiply
  | divide =>
    simp only [apply] at h
    split at h
    · cases h
    · rename_i hb
      obtain rfl := Except.ok.inj h
      obtain ⟨hle, hrest⟩ := tdiv_whole a hb
      exact .divide hle hrest
  | power =>
    simp only [apply] at h
    split at h
    · cases h
    · split at h
      · cases h
      · obtain rfl := Except.ok.inj h
        rw [powerOf_eq]
        exact .power (by omega)

/-- The operation gives what is exact, unless it is a power that it refuses because it is over the
limit. -/
theorem Exact.apply (limits : Limits) (h : op.Exact a b n) : op.apply limits a b = .ok n ∨
    op.apply limits a b = .error (.powerOverLimit a b) ∧ ¬ limits.Admits n := by
  cases h with
  | add | subtract | multiply => exact .inl rfl
  | divide hle hrest =>
    have hb : b ≠ 0 := by omega
    rw [Operator.apply, if_neg hb, tdiv_unique hle hrest]
    exact .inl rfl
  | @power k hk =>
    subst hk
    simp only [Operator.apply, Int.toNat_natCast, powerOf_eq]
    rw [if_neg (by omega)]
    split
    · rename_i h
      refine .inr ⟨rfl, ?_⟩
      rw [Limits.Admits, Int.natAbs_pow, Nat.not_le]
      exact lt_pow_of_bitLength (by omega) h.2
    · exact .inl rfl

/-! ## Calculations -/

theorem exact_of_calculate (h : op.calculate limits a b = .ok n) : op.Exact a b n := by
  unfold calculate at h
  cases happly : op.apply limits a b with
  | error err =>
    rw [happly] at h
    cases h
  | ok m =>
    rw [happly] at h
    have hm : limits.check m = .ok n := h
    unfold Limits.check at hm
    split at hm
    · cases hm
    · obtain rfl := Except.ok.inj hm
      exact exact_of_apply happly

theorem Exact.calculate_of_admits (h : op.Exact a b n) (hn : limits.Admits n) :
    op.calculate limits a b = .ok n := by
  obtain happly | ⟨_, hover⟩ := h.apply limits
  · rw [calculate, happly]
    exact if_neg (Nat.not_lt.mpr hn)
  · exact absurd hn hover

/-- The calculation fails with an error of the kind. -/
def FailsFor (limits : Limits) (op : Operator) (a b : Int) (kind : EvalError.Kind) : Prop :=
  ∃ err, op.calculate limits a b = .error err ∧ err.kind = kind

theorem Exact.overflow_of_not_admits (h : op.Exact a b n) (hn : ¬ limits.Admits n) :
    op.FailsFor limits a b .overflow := by
  obtain happly | ⟨happly, _⟩ := h.apply limits
  · refine ⟨.overLimit n limits.integerLimit, ?_, rfl⟩
    rw [calculate, happly]
    exact if_pos (Nat.not_le.mp hn)
  · refine ⟨.powerOverLimit a b, ?_, rfl⟩
    rw [calculate, happly]
    rfl

theorem divide_zero (limits : Limits) (a : Int) : divide.FailsFor limits a 0 .divideByZero :=
  ⟨.divisionByZero a, rfl, rfl⟩

theorem power_neg (limits : Limits) (a : Int) {b : Int} (hb : b < 0) :
    power.FailsFor limits a b .negativeExponent := by
  refine ⟨.negativeExponent a b, ?_, rfl⟩
  rw [calculate, apply, if_pos hb]
  rfl

/-- Where there is no exact result, there is a reason. -/
theorem exists_exact (op : Operator) (a b : Int) :
    (∃ n, op.Exact a b n) ∨ (op = .divide ∧ b = 0) ∨ (op = .power ∧ b < 0) := by
  cases op with
  | add => exact .inl ⟨_, .add⟩
  | subtract => exact .inl ⟨_, .subtract⟩
  | multiply => exact .inl ⟨_, .multiply⟩
  | divide =>
    by_cases hb : b = 0
    · exact .inr (.inl ⟨rfl, hb⟩)
    · obtain ⟨hle, hrest⟩ := tdiv_whole a hb
      exact .inl ⟨_, .divide hle hrest⟩
  | power =>
    by_cases hb : b < 0
    · exact .inr (.inr ⟨rfl, hb⟩)
    · exact .inl ⟨_, .power (show b = (b.toNat : Int) by omega)⟩

/-- A calculation fails for one reason only. -/
theorem FailsFor.unique {kind kind' : EvalError.Kind} (h : op.FailsFor limits a b kind)
    (h' : op.FailsFor limits a b kind') : kind = kind' := by
  obtain ⟨err, herr, rfl⟩ := h
  obtain ⟨err', herr', rfl⟩ := h'
  rw [Except.error.inj (herr.symm.trans herr')]

/-- Why a calculation fails. -/
theorem FailsFor.cases {kind : EvalError.Kind} (h : op.FailsFor limits a b kind) :
    (kind = .overflow ∧ ∃ n, op.Exact a b n ∧ ¬ limits.Admits n) ∨
      (kind = .divideByZero ∧ op = .divide ∧ b = 0) ∨
        (kind = .negativeExponent ∧ op = .power ∧ b < 0) := by
  obtain ⟨n, hn⟩ | ⟨rfl, rfl⟩ | ⟨rfl, hb⟩ := exists_exact op a b
  · by_cases hadmits : limits.Admits n
    · obtain ⟨err, herr, _⟩ := h
      rw [hn.calculate_of_admits hadmits] at herr
      cases herr
    · exact .inl ⟨h.unique (hn.overflow_of_not_admits hadmits), n, hn, hadmits⟩
  · exact .inr (.inl ⟨h.unique (divide_zero limits a), rfl, rfl⟩)
  · exact .inr (.inr ⟨h.unique (power_neg limits a hb), rfl, hb⟩)

theorem failsFor_overflow_iff :
    op.FailsFor limits a b .overflow ↔ ∃ n, op.Exact a b n ∧ ¬ limits.Admits n := by
  constructor
  · intro h
    obtain ⟨_, hexact⟩ | ⟨hkind, _⟩ | ⟨hkind, _⟩ := h.cases
    · exact hexact
    · cases hkind
    · cases hkind
  · rintro ⟨n, hexact, hn⟩
    exact hexact.overflow_of_not_admits hn

theorem failsFor_divideByZero_iff :
    op.FailsFor limits a b .divideByZero ↔ op = .divide ∧ b = 0 := by
  constructor
  · intro h
    obtain ⟨hkind, _⟩ | ⟨_, hzero⟩ | ⟨hkind, _⟩ := h.cases
    · cases hkind
    · exact hzero
    · cases hkind
  · rintro ⟨rfl, rfl⟩
    exact divide_zero limits a

theorem failsFor_negativeExponent_iff :
    op.FailsFor limits a b .negativeExponent ↔ op = .power ∧ b < 0 := by
  constructor
  · intro h
    obtain ⟨hkind, _⟩ | ⟨hkind, _⟩ | ⟨_, hneg⟩ := h.cases
    · cases hkind
    · cases hkind
    · exact hneg
  · rintro ⟨rfl, hneg⟩
    exact power_neg limits a hneg

/-! ## Numbers on the way -/

/-- The magnitudes of the numbers that come up in the calculation: its result before that is
checked, and for a power the lengths and the estimate of its own length. -/
inductive Computes (limits : Limits) (a b : Int) : Operator → Nat → Prop
  | result {op : Operator} {n : Int} : op.apply limits a b = .ok n →
      Computes limits a b op n.natAbs
  | baseLength : Computes limits a b .power (bitLength a.natAbs)
  | limitLength : Computes limits a b .power (bitLength limits.integerLimit)
  | estimate : Computes limits a b .power ((bitLength a.natAbs - 1) * b.natAbs)

theorem Exact.natAbs_le (hlimit : 0 < limits.integerLimit) (ha : limits.Admits a)
    (hb : limits.Admits b) (h : op.Exact a b n) (hpower : op ≠ .power) :
    n.natAbs ≤ 4 * limits.integerLimit ^ 2 := by
  have hsquare : limits.integerLimit ≤ limits.integerLimit ^ 2 := Nat.le_self_pow (by omega) _
  unfold Limits.Admits at ha hb
  cases h with
  | add | subtract => omega
  | multiply =>
    have hmul : a.natAbs * b.natAbs ≤ limits.integerLimit ^ 2 := by
      rw [Nat.pow_two]
      exact Nat.mul_le_mul ha hb
    rw [Int.natAbs_mul]
    omega
  | divide hle hrest =>
    rw [Int.natAbs_mul] at hle
    have hq := Nat.le_mul_of_pos_left n.natAbs (show 0 < b.natAbs by omega)
    omega
  | power => exact absurd rfl hpower

/-- A power that is computed is not much over the limit. -/
theorem power_natAbs_le (hlimit : 0 < limits.integerLimit)
    (h : power.apply limits a b = .ok n) : n.natAbs ≤ 4 * limits.integerLimit ^ 2 := by
  simp only [apply] at h
  split at h
  · cases h
  · split at h
    · cases h
    · rename_i hshort
      obtain rfl := Except.ok.inj h
      rw [powerOf_eq]
      have hpow : (a.pow b.toNat).natAbs = a.natAbs ^ b.toNat := Int.natAbs_pow a b.toNat
      rw [hpow]
      by_cases hbase : 1 < a.natAbs
      · have hfits := Nat.not_lt.mp fun hlong => hshort ⟨hbase, hlong⟩
        exact pow_le_of_bitLength hbase (by omega) hfits
      · have hone : a.natAbs ^ b.toNat ≤ 1 ^ b.toNat := Nat.pow_le_pow_left (by omega) _
        have hpos : 0 < limits.integerLimit ^ 2 := Nat.pow_pos hlimit
        rw [Nat.one_pow] at hone
        omega

theorem Computes.le (hlimit : 0 < limits.integerLimit) (ha : limits.Admits a)
    (hb : limits.Admits b) {m : Nat} (h : op.Computes limits a b m) :
    m ≤ 4 * limits.integerLimit ^ 2 := by
  have hsquare : limits.integerLimit ≤ limits.integerLimit ^ 2 := Nat.le_self_pow (by omega) _
  have hlength := bitLength_le a.natAbs
  unfold Limits.Admits at ha hb
  cases h with
  | result happly =>
    by_cases hpower : op = .power
    · subst hpower
      exact power_natAbs_le hlimit happly
    · exact (exact_of_apply happly).natAbs_le hlimit ha hb hpower
  | baseLength => omega
  | limitLength =>
    have := bitLength_le limits.integerLimit
    omega
  | estimate =>
    have hmul : (bitLength a.natAbs - 1) * b.natAbs ≤ limits.integerLimit ^ 2 := by
      rw [Nat.pow_two]
      exact Nat.mul_le_mul (by omega) hb
    omega

/-! ## Errors that cannot be told -/

/-- An operation that is refused is told of by what it was to be done with. -/
theorem mem_numbers_of_apply {err : EvalError} (h : op.apply limits a b = .error err)
    (hn : n ∈ err.numbers) : n = a ∨ n = b := by
  cases op with
  | add | subtract | multiply => cases h
  | divide =>
    simp only [apply] at h
    split at h
    · obtain rfl := Except.error.inj h
      exact .inl (List.mem_singleton.mp hn)
    · cases h
  | power =>
    simp only [apply] at h
    split at h
    · obtain rfl := Except.error.inj h
      simpa [EvalError.numbers] using hn
    · split at h
      · obtain rfl := Except.error.inj h
        simpa [EvalError.numbers] using hn
      · cases h

theorem eq_overLimit_of_check {err : EvalError} (h : limits.check n = .error err) :
    err = .overLimit n limits.integerLimit := by
  unfold Limits.check at h
  split at h
  · exact (Except.error.inj h).symm
  · cases h

/-- If the limit can be written, so can all numbers of an error but a result that is over it. -/
theorem failure_of_calculate (hlimit : limits.maxDigits ≤ Text.maxNumeralLength)
    (ha : limits.Admits a) (hb : limits.Admits b) {err : EvalError}
    (h : op.calculate limits a b = .error err) : err.failure = .conversion ↔
      ∃ n, op.apply limits a b = .ok n ∧ Text.isWritable n = false := by
  rw [EvalError.failure_eq_conversion]
  cases happly : op.apply limits a b with
  | ok n =>
    have hcheck : limits.check n = .error err := by rwa [calculate, happly] at h
    obtain rfl := eq_overLimit_of_check hcheck
    have hself : limits.Admits limits.integerLimit := Nat.le_refl _
    have hwritten : Text.isWritable limits.integerLimit = true := hself.isWritable hlimit
    simp [EvalError.isWritable, EvalError.numbers, hwritten]
  | error err' =>
    obtain rfl : err' = err := by
      rw [calculate, happly] at h
      exact Except.error.inj h
    have hwritten : err'.isWritable = true := List.all_eq_true.mpr fun n hn => by
      obtain rfl | rfl := mem_numbers_of_apply happly hn
      · exact ha.isWritable hlimit
      · exact hb.isWritable hlimit
    simp [hwritten]

/-- The square of the limit is over it, and this is not told if the square is too long. -/
theorem square_conversion (hlimit : 1 < limits.integerLimit)
    (hlong : 10 ^ Text.maxNumeralLength ≤ limits.integerLimit * limits.integerLimit) :
    (liftM (multiply.calculate limits limits.integerLimit limits.integerLimit) : Eval Int) =
      .failed .conversion := by
  have hover : multiply.calculate limits limits.integerLimit limits.integerLimit =
      .error (.overLimit (limits.integerLimit * limits.integerLimit) limits.integerLimit) := by
    refine if_pos ?_
    rw [Int.natAbs_mul, Int.natAbs_natCast]
    exact Nat.lt_mul_self_iff.mpr hlimit
  have hsquare : Text.isWritable (limits.integerLimit * limits.integerLimit : Int) = false := by
    rw [Bool.eq_false_iff, ne_eq, Text.isWritable_iff, Int.natAbs_mul, Int.natAbs_natCast]
    exact Nat.not_lt.mpr hlong
  rw [hover, Eval.liftM_error, Eval.fail, EvalError.failure_overLimit hsquare]

/-- A calculation with numbers within the limit gives the exact result if that is within the limit
too, and it fails for overflow just if that exceeds it, for a division by zero and for a negative
exponent just if there are these. The error is told unless the result itself has more digits than
can be written. No number on the way is more than the square of twice the limit. -/
theorem calculate_exact (limits : Limits) (hlimit : 0 < limits.integerLimit) (op : Operator)
    (a b : Int) (ha : limits.Admits a) (hb : limits.Admits b) :
    (∀ n, op.calculate limits a b = .ok n ↔ op.Exact a b n ∧ limits.Admits n) ∧
    (op.FailsFor limits a b .overflow ↔ ∃ n, op.Exact a b n ∧ ¬ limits.Admits n) ∧
    (op.FailsFor limits a b .divideByZero ↔ op = .divide ∧ b = 0) ∧
    (op.FailsFor limits a b .negativeExponent ↔ op = .power ∧ b < 0) ∧
    (limits.maxDigits ≤ Text.maxNumeralLength → ∀ err, op.calculate limits a b = .error err →
      (err.failure = .conversion ↔
        ∃ n, op.apply limits a b = .ok n ∧ Text.isWritable n = false)) ∧
    ∀ m, op.Computes limits a b m → m ≤ 4 * limits.integerLimit ^ 2 := by
  refine ⟨fun n => ⟨fun h => ⟨exact_of_calculate h, admits_of_calculate h⟩, fun h => ?_⟩,
    failsFor_overflow_iff, failsFor_divideByZero_iff, failsFor_negativeExponent_iff,
    fun hwritten err h => failure_of_calculate hwritten ha hb h, fun m hm => ?_⟩
  · exact h.1.calculate_of_admits h.2
  · exact hm.le hlimit ha hb

/-- The length of 3 ^ 39 is estimated as 39, and that of 3 ^ 64 as 64, one more than the limit has.
-/
theorem calculate_exact_powers :
    power.calculate {} 3 39 = .ok 4052555153018976267 ∧ power.FailsFor {} 3 64 .overflow := by
  have hadmits : ∀ n : Int, n.natAbs ≤ 64 → ({} : Limits).Admits n := fun n hn =>
    Nat.le_trans hn (by decide)
  have h := fun b hb => calculate_exact {} (by decide) power 3 b (hadmits 3 (by decide)) hb
  refine ⟨((h 39 (hadmits 39 (by decide))).1 _).mpr ⟨?_, ?_⟩,
    (h 64 (hadmits 64 (by decide))).2.1.mpr ⟨3433683820292512484657849089281, ?_, ?_⟩⟩
  · exact .power (k := 39) rfl
  · show (4052555153018976267 : Int).natAbs ≤ 9223372036854775807
    decide
  · exact .power (k := 64) rfl
  · show ¬ (3433683820292512484657849089281 : Int).natAbs ≤ 9223372036854775807
    decide

/-- The square of the largest number that is allowed is over the limit, but that is not what the
calculation fails for, if the square has 4301 digits. -/
theorem calculate_exact_square : ∃ (limits : Limits) (a : Int),
    limits.integerLimit = 10 ^ 2150 ∧ a = 10 ^ 2150 ∧ 0 < limits.integerLimit ∧
      limits.Admits a ∧ multiply.Exact a a (a * a) ∧ ¬ limits.Admits (a * a) ∧
        ¬ ∃ err, (liftM (multiply.calculate limits a a) : Eval Int) = .failed (.error err) ∧
          err.kind = .overflow := by
  obtain ⟨n, hn, hlarge, hsquare⟩ := exists_half_length
  have hpos : 1 < n := by omega
  have hcast : (n : Int) = 10 ^ 2150 := by rw [hn, Nat.cast_pow, Nat.cast_ofNat]
  let limits : Limits := { integerLimit := n }
  have hraised : (liftM (multiply.calculate limits n n) : Eval Int) = .failed .conversion :=
    square_conversion hpos (Nat.le_of_eq hsquare.symm)
  refine ⟨limits, n, hn, hcast, Nat.lt_of_succ_lt hpos, Nat.le_refl _, .multiply, ?_, ?_⟩
  · rw [Limits.Admits, Int.natAbs_mul, Int.natAbs_natCast, Nat.not_le]
    exact Nat.lt_mul_self_iff.mpr hpos
  · rintro ⟨err, herr, _⟩
    rw [hraised] at herr
    cases herr

end Operator

end DiceLang
