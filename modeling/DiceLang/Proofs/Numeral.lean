import DiceLang.Text.Digit
import Mathlib.Data.List.Basic
import Mathlib.Tactic.Ring

/-!
# Numerals

The number that a string of digits writes, of any script, and how it is written in turn.

* `numeral_repr`: a number is read back as it is written;
* `numeral_lt`, `le_numeral`: between which powers of ten it lies;
* `length_repr_numeral_le`: it is written with no more digits than it is read from, zeros in front
  not counted;
* `isWritable_iff`: which numbers are not too long to be written.
-/

namespace DiceLang.Text

theorem digitValue_le (c : Char) : digitValue c ≤ 9 := by
  unfold digitValue digitValue?
  cases h : digitZeros.find? fun first => first ≤ c.toNat && c.toNat < first + 10 with
  | none => simp
  | some first =>
    have := List.find?_some h
    simp only [Bool.and_eq_true, decide_eq_true_eq] at this
    simp only [Option.map_some, Option.getD_some]
    omega

theorem digitValue_ascii {c : Char} (h : c.isDigit = true) :
    digitValue c = c.toNat - '0'.toNat := by
  rw [digitValue, digitValue?_ascii h]
  rfl

theorem numeral_repr (n : Nat) : numeral n.repr = n := by
  calc numeral n.repr
      = (Nat.toDigits 10 n).foldl (fun n c => 10 * n + digitValue c) 0 := by
        rw [numeral, Nat.toList_repr]
    _ = (Nat.toDigits 10 n).foldl (fun n c => 10 * n + (c.toNat - '0'.toNat)) 0 :=
        List.foldl_ext _ _ _ fun n c hc => by
          rw [digitValue_ascii (Nat.isDigit_of_mem_toDigits (by omega) (by omega) hc)]
    _ = Nat.ofDigitChars 10 (Nat.toDigits 10 n) 0 := Nat.ofDigitChars_eq_foldl.symm
    _ = n := Nat.ofDigitChars_ten_toDigits

theorem foldl_digits_lt (cs : List Char) (n : Nat) :
    cs.foldl (fun n c => 10 * n + digitValue c) n < (n + 1) * 10 ^ cs.length := by
  induction cs generalizing n with
  | nil => simp
  | cons c cs ih =>
    have := digitValue_le c
    calc cs.foldl (fun n c => 10 * n + digitValue c) (10 * n + digitValue c)
        < (10 * n + digitValue c + 1) * 10 ^ cs.length := ih _
      _ ≤ (10 * (n + 1)) * 10 ^ cs.length := Nat.mul_le_mul_right _ (by omega)
      _ = (n + 1) * 10 ^ (c :: cs).length := by rw [List.length_cons, Nat.pow_succ]; ring

theorem foldl_digits_dropWhile (cs : List Char) :
    (cs.dropWhile (· == '0')).foldl (fun n c => 10 * n + digitValue c) 0 =
      cs.foldl (fun n c => 10 * n + digitValue c) 0 := by
  induction cs with
  | nil => rfl
  | cons c cs ih =>
    rw [List.dropWhile_cons]
    split
    · rename_i hc
      obtain rfl := beq_iff_eq.mp hc
      rw [ih, List.foldl_cons]
      rfl
    · rfl

theorem numeral_lt (digits : String) :
    numeral digits < 10 ^ (digits.toList.dropWhile (· == '0')).length := by
  rw [numeral, ← foldl_digits_dropWhile]
  simpa using foldl_digits_lt (digits.toList.dropWhile (· == '0')) 0

theorem le_foldl_digits (cs : List Char) (n : Nat) :
    n * 10 ^ cs.length ≤ cs.foldl (fun n c => 10 * n + digitValue c) n := by
  induction cs generalizing n with
  | nil => simp
  | cons c cs ih =>
    calc n * 10 ^ (c :: cs).length
        = (10 * n) * 10 ^ cs.length := by rw [List.length_cons, Nat.pow_succ]; ring
      _ ≤ (10 * n + digitValue c) * 10 ^ cs.length :=
        Nat.mul_le_mul_right _ (Nat.le_add_right _ _)
      _ ≤ cs.foldl (fun n c => 10 * n + digitValue c) (10 * n + digitValue c) := ih _

/-- What the first digit behind the zeros in front is worth at least. -/
theorem le_numeral {digits : String} {c : Char} {cs : List Char}
    (h : digits.toList.dropWhile (· == '0') = c :: cs) :
    digitValue c * 10 ^ cs.length ≤ numeral digits := by
  rw [numeral, ← foldl_digits_dropWhile, h, List.foldl_cons, Nat.mul_zero, Nat.zero_add]
  exact le_foldl_digits cs (digitValue c)

/-- A number is written with no more digits than it is read from, zeros in front not counted. -/
theorem length_repr_numeral_le (digits : String) :
    ((numeral digits).repr.toList.dropWhile (· == '0')).length ≤
      (digits.toList.dropWhile (· == '0')).length := by
  have hlt := numeral_lt digits
  cases hlength : (digits.toList.dropWhile (· == '0')).length with
  | zero =>
    rw [hlength] at hlt
    obtain h : numeral digits = 0 := by omega
    rw [h]
    decide
  | succ k =>
    rw [hlength] at hlt
    calc ((numeral digits).repr.toList.dropWhile (· == '0')).length
        ≤ (numeral digits).repr.toList.length := (List.dropWhile_sublist _).length_le
      _ = (numeral digits).repr.length := String.length_toList
      _ ≤ k + 1 := (Nat.length_repr_le_iff (Nat.succ_pos k)).mpr hlt

/-- Zero is written with one digit, if it is read from none. -/
theorem length_repr_numeral_le_max (digits : String) :
    (numeral digits).repr.length ≤ max 1 digits.length := by
  have hlength : (digits.toList.dropWhile (· == '0')).length ≤ digits.length :=
    String.length_toList (s := digits) ▸ (List.dropWhile_sublist _).length_le
  refine (Nat.length_repr_le_iff (by omega)).mpr ?_
  calc numeral digits
      < 10 ^ (digits.toList.dropWhile (· == '0')).length := numeral_lt digits
    _ ≤ 10 ^ max 1 digits.length := Nat.pow_le_pow_right (by omega) (by omega)

theorem isWritable_iff {n : Int} : isWritable n = true ↔ n.natAbs < 10 ^ maxNumeralLength := by
  rw [isWritable, decide_eq_true_iff]
  exact Nat.length_repr_le_iff (by decide)

/-- A number is written with digits, and with a minus sign. -/
theorem mem_repr {n : Int} {c : Char} (h : c ∈ n.repr.toList) :
    c = '-' ∨ c.isDigit = true := by
  have hdigit : ∀ {k : Nat}, c ∈ k.repr.toList → c.isDigit = true := fun hk => by
    rw [Nat.toList_repr] at hk
    exact Nat.isDigit_of_mem_toDigits (by omega) (by omega) hk
  cases n with
  | ofNat k => exact .inr (hdigit h)
  | negSucc k =>
    have h : c ∈ ("-" ++ (k + 1).repr).toList := h
    rw [String.toList_append, List.mem_append] at h
    exact h.imp (by simp) hdigit

theorem repr_ne_empty (n : Int) : n.repr ≠ "" := by
  cases n with
  | ofNat n => exact Nat.repr_ne_empty
  | negSucc n =>
    rw [Int.repr]
    exact fun h => absurd (String.append_eq_empty_iff.mp h).1 (by decide)

/-- What is no digit and no minus sign is in no number. -/
theorem notMem_repr {c : Char} (hminus : c ≠ '-') (hdigit : c.isDigit = false) (n : Int) :
    c ∉ n.repr.toList := fun h =>
  (mem_repr h).elim hminus fun hc => by simp [hdigit] at hc

end DiceLang.Text
