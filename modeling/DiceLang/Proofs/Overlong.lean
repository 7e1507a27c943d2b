import DiceLang.Proofs.Numeral
import DiceLang.Proofs.Splitting

/-!
# Numbers that are too long

A number is refused for its length where it stands, and only if it has more digits than the largest
number has. Then it is larger than that, unless a zero stands in front of it that was counted: the
zeros that are not are those of one script only.

* `Limits.lt_numeral`: what has too many digits and no zero in front of them is too large;
* `Roll.parse_tooLong`: the literal that an error is about.
-/

namespace DiceLang

/-! ## Numbers with too many digits -/

theorem Limits.integerLimit_lt (limits : Limits) :
    limits.integerLimit < 10 ^ limits.maxDigits := by
  have hpos : 0 < limits.maxDigits :=
    Nat.pos_of_ne_zero fun h => Nat.repr_ne_empty (String.length_eq_zero_iff.mp h)
  exact (Nat.length_repr_le_iff hpos).mp (Nat.le_refl _)

/-- A number with more digits than the largest has is larger, if the first of them counts. -/
theorem Limits.lt_numeral (limits : Limits) {digits : String} {c : Char} {cs : List Char}
    (h : digits.toList.dropWhile (· == '0') = c :: cs) (hc : Text.digitValue c ≠ 0)
    (hlength : limits.maxDigits < (c :: cs).length) :
    limits.integerLimit < Text.numeral digits := by
  calc limits.integerLimit
      < 10 ^ limits.maxDigits := limits.integerLimit_lt
    _ ≤ 10 ^ cs.length := Nat.pow_le_pow_right (by omega) (Nat.le_of_lt_succ hlength)
    _ ≤ Text.digitValue c * 10 ^ cs.length := Nat.le_mul_of_pos_left _ (Nat.pos_of_ne_zero hc)
    _ ≤ Text.numeral digits := Text.le_numeral h

/-- A number that fits with more digits than the largest has starts with a zero. -/
theorem Lexeme.Fits.head?_eq_zero {maxDigits : Nat} {digits : String}
    (h : (Lexeme.number digits).Fits maxDigits) (hlong : maxDigits < digits.length) :
    digits.toList.head? = some '0' := by
  rw [← String.length_toList] at hlong
  have h : (digits.toList.dropWhile (· == '0')).length ≤ maxDigits := h
  cases hdigits : digits.toList with
  | nil => simp [hdigits] at hlong
  | cons c cs =>
    by_cases hc : c = '0'
    · rw [hc, List.head?_cons]
    · rw [hdigits, List.dropWhile_cons_of_neg (by simpa using hc)] at h
      rw [hdigits] at hlong
      omega

/-! ## The literal of an error -/

theorem Roll.exists_overlong {limits : Limits} {text digits : String} {position limit : Nat}
    (h : parse limits text = .error (.error (.tooLong position limit digits))) :
    limit = limits.maxDigits ∧ ∃ tokens, Token.scan text = .ok tokens ∧
      ⟨some (.number digits), position⟩ ∈ tokens ∧
      limits.maxDigits < (digits.toList.dropWhile (· == '0')).length := by
  obtain ⟨_, _, hstray⟩ | ⟨tokens, hscan, h⟩ := stray_or_ofTokens h
  · cases hstray
  · have hbehind := phrase_behind limits (tokens.filterMap Token.lexeme)
    unfold ofTokens at h
    generalize phrase limits ⟨0, tokens.filterMap Token.lexeme⟩ = reply at h hbehind
    cases reply with
    | matched roll rest missed => cases h
    | unmatched stopped missed => cases h
    | refused limit' place =>
      cases limit' with
      | depth => cases h
      | digits =>
        obtain ⟨own, hown, hlong⟩ := hbehind
        obtain ⟨hmem, hlexeme⟩ := (Token.Scanned.of_scan hscan).tokenAt_of_lexeme hown
        obtain ⟨rfl, rfl, hdigits⟩ :=
          ParseError.tooLong.inj (ParseFailure.error.inj (Except.error.inj h))
        rw [textOf, hlexeme] at hdigits
        obtain rfl : own = digits := hdigits
        exact ⟨rfl, tokens, hscan, hlexeme ▸ hmem, Nat.not_le.mp hlong⟩
      | conversion => cases h

/-- A literal is refused for its length only if it has more digits than the largest number, zeros in
front not counted. It is larger than that number, unless it still starts with a zero: one that is
not written `0` counts as a digit like any other. -/
theorem Roll.parse_tooLong (limits : Limits) (text : String) (position limit : Nat)
    (digits : String) (h : parse limits text = .error (.error (.tooLong position limit digits))) :
    limit = limits.maxDigits ∧
      (∃ tokens, Token.scan text = .ok tokens ∧ ⟨some (.number digits), position⟩ ∈ tokens) ∧
      limit < (digits.toList.dropWhile (· == '0')).length ∧
      (limits.integerLimit < Text.numeral digits ∨
        ∃ c cs, digits.toList.dropWhile (· == '0') = c :: cs ∧ c ≠ '0' ∧
          Text.digitValue? c = some 0) := by
  obtain ⟨rfl, tokens, hscan, hmem, hlong⟩ := exists_overlong h
  refine ⟨rfl, ⟨tokens, hscan, hmem⟩, hlong, ?_⟩
  obtain ⟨before, slice, after, _, _, _, hslice, rfl⟩ :=
    (Token.Splits.of_scanFrom (Token.scan_eq_scanFrom text ▸ hscan)).exists_slice hmem
  cases hdigits : (String.ofList slice).toList.dropWhile (· == '0') with
  | nil =>
    rw [hdigits] at hlong
    exact absurd hlong (Nat.not_lt_zero _)
  | cons c cs =>
    rw [hdigits] at hlong
    have hmem : c ∈ slice := by
      have hsub := (List.dropWhile_sublist (l := (String.ofList slice).toList) (· == '0')).subset
      rw [hdigits, String.toList_ofList] at hsub
      exact hsub List.mem_cons_self
    have hne : c ≠ '0' := by
      have hhead := List.head?_dropWhile_not (· == '0') (String.ofList slice).toList
      rw [hdigits] at hhead
      simpa using hhead
    obtain ⟨value, hvalue⟩ := Option.isSome_iff_exists.mp (hslice c hmem)
    by_cases hzero : value = 0
    · exact .inr ⟨c, cs, rfl, hne, hzero ▸ hvalue⟩
    · have hworth : Text.digitValue c ≠ 0 := by rwa [Text.digitValue, hvalue]
      exact .inl (limits.lt_numeral hdigits hworth hlong)

/-- Three digits where two are allowed; the zero in front is not one of them. -/
theorem Roll.parse_tooLong_three : ∃ limits : Limits, limits.integerLimit = 99 ∧
    parse limits "1+0123" = .error (.error (.tooLong 2 limits.maxDigits "0123")) ∧
    (limits.integerLimit < Text.numeral "0123" ∨
      ∃ c cs, "0123".toList.dropWhile (· == '0') = c :: cs ∧ c ≠ '0' ∧
        Text.digitValue? c = some 0) := by
  have hscan : Token.scan "1+0123" = .ok [⟨some (.number "1"), 0⟩, ⟨some (.symbol .plus), 1⟩,
    ⟨some (.number "0123"), 2⟩, ⟨none, 6⟩] := rfl
  have hparse : parse { integerLimit := 99 } "1+0123" =
      .error (.error (.tooLong 2 (Limits.maxDigits { integerLimit := 99 }) "0123")) := by
    rw [parse, hscan]
    rfl
  have htooLong := parse_tooLong _ _ _ _ _ hparse
  exact ⟨{ integerLimit := 99 }, rfl, hparse, htooLong.2.2.2⟩

theorem Limits.maxDigits_default : ({} : Limits).maxDigits = 19 := by decide +kernel

/-- The zeros of another script count: a one behind nineteen of them is refused, though it is no
larger than the largest number. -/
theorem Roll.parse_tooLong_one :
    parse {} "०००००००००००००००००००1" = .error (.error (.tooLong 0 19 "०००००००००००००००००००1")) ∧
      Text.numeral "०००००००००००००००००००1" = 1 ∧
      ¬ ∀ (limits : Limits) (text : String) (position limit : Nat) (digits : String),
        parse limits text = .error (.error (.tooLong position limit digits)) →
          limits.integerLimit < Text.numeral digits := by
  have hscan : Token.scan "०००००००००००००००००००1" =
      .ok [⟨some (.number "०००००००००००००००००००1"), 0⟩, ⟨none, 20⟩] := rfl
  have hparse : parse {} "०००००००००००००००००००1" =
      .error (.error (.tooLong 0 ({} : Limits).maxDigits "०००००००००००००००००००1")) := by
    rw [parse, hscan]
    rfl
  have hnumeral : Text.numeral "०००००००००००००००००००1" = 1 := rfl
  rw [Limits.maxDigits_default] at hparse
  refine ⟨hparse, hnumeral, fun h => ?_⟩
  have hlt := h _ _ _ _ _ hparse
  rw [hnumeral] at hlt
  exact absurd hlt (by decide)

end DiceLang
