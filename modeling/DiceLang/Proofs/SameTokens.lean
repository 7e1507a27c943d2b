import DiceLang.Proofs.Places
import DiceLang.Proofs.Rendering
import Mathlib.Data.List.GetD

/-!
# Texts with the same tokens

What is read depends on the tokens of a text alone, not on the blanks between them nor on the case
of its letters: texts with the same lexemes are read as the same roll, or refused for the same
reason at the same token.

* `Token.Scanned`: the tokens of a text, which are in the order of their offsets;
* `ParseError.Agree`: errors that tell the same, each at a place in its own text;
* `Roll.parse_of_lexemes_eq`: two texts with the same lexemes.
-/

namespace DiceLang

/-! ## The tokens of a text -/

namespace Token

variable {i j : Nat} {tokens : List Token}

/-- Tokens at offsets that increase from `i` on, all but the last with a lexeme. -/
inductive Scanned : Nat → List Token → Prop
  | close {i stop : Nat} : i ≤ stop → Scanned i [⟨none, stop⟩]
  | cons {i position : Nat} (l : Lexeme) {tokens : List Token} :
      i ≤ position → Scanned (position + 1) tokens → Scanned i (⟨some l, position⟩ :: tokens)

namespace Scanned

theorem mono (h : Scanned j tokens) (hij : i ≤ j) : Scanned i tokens := by
  cases h with
  | close hstop => exact .close (Nat.le_trans hij hstop)
  | cons l hposition htokens => exact .cons l (Nat.le_trans hij hposition) htokens

/-- A lexeme that takes the place of the one that starts right after it. -/
theorem joined (h : Scanned (i + 1) tokens) {l' : Lexeme} (hat : lexemeAt (i + 1) tokens = some l')
    (l : Lexeme) : Scanned i (⟨some l, i⟩ :: tokens.tail) := by
  cases h with
  | close hstop => simp [lexemeAt] at hat
  | cons l' hposition htokens => exact .cons l (Nat.le_refl i) (htokens.mono (by omega))

theorem consDigit (h : Scanned (i + 1) tokens) (c : Char) : Scanned i (consDigit i c tokens) := by
  unfold Token.consDigit
  split
  · exact h.joined ‹_› _
  · exact .cons _ (Nat.le_refl i) h

theorem consLetter (h : Scanned (i + 1) tokens) (c : Char) :
    Scanned i (consLetter i c tokens) := by
  unfold Token.consLetter
  dsimp only
  split
  · exact h.joined ‹_› _
  · exact .cons _ (Nat.le_refl i) h

theorem consSymbol (h : Scanned (i + 1) tokens) (s : Symbol) :
    Scanned i (consSymbol i s tokens) := by
  unfold Token.consSymbol
  split
  · exact h.joined ‹_› _
  · exact .cons _ (Nat.le_refl i) h

theorem of_scanFrom {cs : List Char} (h : scanFrom i cs = .ok tokens) : Scanned i tokens := by
  induction cs generalizing i tokens with
  | nil =>
    obtain rfl := Except.ok.inj h
    exact .close (Nat.le_refl i)
  | cons c cs ih =>
    rw [scanFrom_cons, Token.cons] at h
    cases hafter : scanFrom (i + 1) cs with
    | error e =>
      rw [hafter] at h
      split at h <;> cases h
    | ok after =>
      rw [hafter] at h
      have hscanned := ih hafter
      split at h
      · obtain rfl := Except.ok.inj h
        exact hscanned.mono (Nat.le_succ i)
      · obtain rfl := Except.ok.inj h
        exact hscanned.consDigit c
      · obtain rfl := Except.ok.inj h
        exact hscanned.consLetter c
      · obtain rfl := Except.ok.inj h
        exact hscanned.consSymbol _
      · cases h

theorem of_scan {text : String} (h : scan text = .ok tokens) : Scanned 0 tokens :=
  of_scanFrom (scan_eq_scanFrom text ▸ h)

/-- There is one token more than there are lexemes, for the end. -/
theorem length_eq (h : Scanned i tokens) :
    tokens.length = (tokens.filterMap lexeme).length + 1 := by
  induction h with
  | close hstop => rfl
  | cons l _ _ ih => simp [ih]

/-- A lexeme is that of a token. -/
theorem tokenAt_of_lexeme {k : Nat} {l : Lexeme} (h : Scanned i tokens)
    (hl : (tokens.filterMap lexeme)[k]? = some l) :
    Roll.tokenAt tokens k ∈ tokens ∧ (Roll.tokenAt tokens k).lexeme = some l := by
  induction h generalizing k with
  | close => simp at hl
  | cons l' _ _ ih =>
    cases k with
    | zero => exact ⟨List.mem_cons_self, by simpa [Roll.tokenAt] using hl⟩
    | succ k =>
      obtain ⟨hmem, hlexeme⟩ := ih (by simpa using hl)
      exact ⟨List.mem_cons_of_mem _ hmem, hlexeme⟩

theorem le_position (h : Scanned i tokens) : ∀ t ∈ tokens, i ≤ t.position := by
  induction h with
  | close hstop => simpa using hstop
  | cons l hposition _ ih =>
    exact List.forall_mem_cons.mpr
      ⟨hposition, fun t ht => Nat.le_trans hposition (Nat.le_of_succ_le (ih t ht))⟩

theorem pairwise (h : Scanned i tokens) :
    tokens.Pairwise fun t t' => t.position < t'.position := by
  induction h with
  | close hstop => exact List.pairwise_singleton _ _
  | cons l _ htokens ih => exact List.pairwise_cons.mpr ⟨htokens.le_position, ih⟩

end Scanned

end Token

/-! ## Errors -/

namespace Roll

variable {tokens tokens₁ tokens₂ : List Token} {k i₁ i₂ : Nat}

theorem ofTokens_of_scan {limits : Limits} {text : String} (h : Token.scan text = .ok tokens) :
    parse limits text = ofTokens limits tokens := by
  rw [parse, h]
  rfl

/-- Reading breaks off only at a number that fits and is too long to be converted. -/
theorem exists_unconverted {limits : Limits} {length : Nat} (h : Token.Scanned i₁ tokens)
    (hparse : ofTokens limits tokens = .error (.conversion length)) :
    ∃ digits, .number digits ∈ tokens.filterMap Token.lexeme ∧ digits.length = length ∧
      (Lexeme.number digits).Fits limits.maxDigits ∧ Text.maxNumeralLength < length := by
  have hbehind := phrase_behind limits (tokens.filterMap Token.lexeme)
  unfold ofTokens at hparse
  generalize phrase limits ⟨0, tokens.filterMap Token.lexeme⟩ = reply at hparse hbehind
  cases reply with
  | matched roll rest missed => cases hparse
  | unmatched stopped missed => cases hparse
  | refused limit place =>
    cases limit with
    | depth => cases hparse
    | digits => cases hparse
    | conversion =>
      obtain ⟨digits, hdigits, hfits, hlong⟩ := hbehind
      obtain rfl := ParseFailure.conversion.inj (Except.error.inj hparse)
      rw [textOf, (h.tokenAt_of_lexeme hdigits).2]
      exact ⟨digits, List.mem_of_getElem? hdigits, rfl, hfits, Nat.not_le.mp hlong⟩

/-- A number written with `n` zeros. -/
def zeros (n : Nat) : String := String.ofList (List.replicate n '0')

theorem exists_scan_zeros {n : Nat} (hn : n ≠ 0) : ∃ tokens, Token.scan (zeros n) = .ok tokens ∧
    tokens.filterMap Token.lexeme = [.number (zeros n)] := by
  have hplain : (Lexeme.number (zeros n)).Plain := by simp [Lexeme.Plain, zeros, hn]
  have hrenders : Renders Lexeme.Plain (zeros n).toList [.number (zeros n)] := .single hplain
  exact Token.scan_of_renders hrenders (fun _ => id) (.singleton _)

/-- None of the zeros counts as a digit, but they are converted all the same: if they are too many,
this is neither a roll nor an error. -/
theorem parse_zeros (limits : Limits) {n : Nat} (hn : Text.maxNumeralLength < n) :
    parse limits (zeros n) = .error (.conversion n) := by
  obtain ⟨tokens, hscan, htokens⟩ := exists_scan_zeros (Nat.ne_zero_of_lt hn)
  have hfits : (Lexeme.number (zeros n)).Fits limits.maxDigits := by simp [Lexeme.Fits, zeros]
  have hlong : ¬ (Lexeme.number (zeros n)).Converts := by
    simpa [Lexeme.Converts, zeros] using hn
  have hfirst : (tokens.filterMap Token.lexeme)[0]? = some (.number (zeros n)) := by
    rw [htokens, List.getElem?_cons_zero]
  rw [ofTokens_of_scan hscan, ofTokens, htokens, phrase_eq_refused rfl hfits hlong]
  simp only [textOf, ((Token.Scanned.of_scan hscan).tokenAt_of_lexeme hfirst).2]
  simp [Lexeme.text, zeros]

end Roll

end DiceLang
