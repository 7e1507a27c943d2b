import DiceLang.Proofs.Cutting

/-!
# How a text is split

The tokens of a text are the one way to split it (`Token.Splits`): blanks and slices in turn, each
slice that of a token at its own offset, and no two that meet could be one. A text can be split
unless one of its characters belongs to no token, and then the first of these is reported.

* `role_fits`, `role_stray_iff`: the part that a character plays tells what it is;
* `Splits.of_scanFrom`, `Splits.scanFrom_eq`: what is scanned is split that way, and only that way;
* `scanFrom_eq_error_iff`: the first character that belongs to no token;
* `scan_splits`: whole texts.
-/

namespace DiceLang

/-! ## Classes of characters -/

namespace Text

variable {c : Char} {n : Nat} {ranges others : List (Nat × Nat)}

theorem not_inRanges_of_disjoint (h : inRanges ranges n = true)
    (hdisjoint : ∀ r ∈ ranges, ∀ r' ∈ others, r.2 < r'.1 ∨ r'.2 < r.1) :
    inRanges others n = false := by
  rw [Bool.eq_false_iff]
  intro h'
  obtain ⟨r, hr, hlow, hhigh⟩ := inRanges_iff.mp h
  obtain ⟨r', hr', hlow', hhigh'⟩ := inRanges_iff.mp h'
  have := hdisjoint r hr r' hr'
  omega

theorem isBlank_eq (c : Char) :
    isBlank c = inRanges (whiteSpaceRanges ++ [(0x1C, 0x1F)]) c.toNat := by
  simp [isBlank, isWhiteSpace, inRanges]

theorem isDigit_eq (c : Char) :
    isDigit c = inRanges (digitZeros.map fun first => (first, first + 9)) c.toNat := by
  rw [Bool.eq_iff_iff]
  simp [isDigit, digitValue?, inRanges, Nat.lt_succ_iff]

theorem isAlpha_eq (c : Char) : c.isAlpha = inRanges [(65, 90), (97, 122)] c.toNat := by
  have hranges : c.isAlpha = (decide (65 ≤ c.toNat ∧ c.toNat ≤ 90) ||
      (decide (97 ≤ c.toNat) && decide (c.toNat ≤ 122))) := rfl
  simp [hranges, inRanges]

/-- No script's digits are among the blanks. -/
theorem not_isBlank_of_isDigit (h : isDigit c = true) : isBlank c = false := by
  rw [isDigit_eq] at h
  rw [isBlank_eq]
  exact not_inRanges_of_disjoint h (by decide)

theorem not_isBlank_of_isAlpha (h : c.isAlpha = true) : isBlank c = false := by
  rw [isAlpha_eq] at h
  rw [isBlank_eq]
  exact not_inRanges_of_disjoint h (by decide)

theorem not_isDigit_of_isAlpha (h : c.isAlpha = true) : isDigit c = false := by
  rw [isAlpha_eq] at h
  rw [isDigit_eq]
  exact not_inRanges_of_disjoint h (by decide)

end Text

/-- The slice of a text is read as the lexeme: one or more digits, one or more letters, in any case,
or the characters of a symbol. -/
def Lexeme.Slice : Lexeme → List Char → Prop
  | .number digits, slice =>
    slice ≠ [] ∧ (∀ c ∈ slice, Text.isDigit c = true) ∧ digits = String.ofList slice
  | .word letters, slice =>
    slice ≠ [] ∧ (∀ c ∈ slice, c.isAlpha = true) ∧ letters = String.ofList (slice.map Char.toLower)
  | .symbol s, slice => s.text.toList = slice

namespace Token

variable {i j : Nat} {c : Char} {cs gap slice t : List Char} {tokens : List Token}
  {l l' : Lexeme}

/-! ## Characters -/

/-- The character may stand in a text: as a blank, as a digit of any script, as a letter, or in a
symbol. -/
def Legal (c : Char) : Prop :=
  Text.isBlank c = true ∨ Text.isDigit c = true ∨ c.isAlpha = true ∨
    c ∈ "-+*/^()\x7b\x7d,#!<>=".toList

instance : DecidablePred Legal := fun _ => inferInstanceAs (Decidable (_ ∨ _ ∨ _ ∨ _))

theorem ofChar?_eq_some_iff {s : Symbol} : Symbol.ofChar? c = some s ↔ s.text.toList = [c] := by
  constructor
  · intro h
    unfold Symbol.ofChar? at h
    split at h <;> cases h <;> rfl
  · intro h
    cases s <;> simp [Symbol.text] at h <;> subst h <;> rfl

theorem exists_ofChar?_iff : (∃ s, Symbol.ofChar? c = some s) ↔
    c ∈ "-+*/^()\x7b\x7d,#!<>=".toList := by
  constructor
  · rintro ⟨s, hs⟩
    rw [ofChar?_eq_some_iff] at hs
    cases s <;> simp [Symbol.text] at hs <;> subst hs <;> decide
  · intro h
    simp at h
    rcases h with rfl | rfl | rfl | rfl | rfl | rfl | rfl | rfl | rfl | rfl | rfl | rfl | rfl |
      rfl | rfl <;> exact ⟨_, rfl⟩

/-- What the part that a character plays says of the character. -/
def Role.Fits : Role → Char → Prop
  | .blank, c => Text.isBlank c = true
  | .digit, c => Text.isDigit c = true
  | .letter, c => c.isAlpha = true
  | .symbol s, c => s.text.toList = [c]
  | .stray, c => ¬ Legal c

theorem role_fits (c : Char) : (Role.of c).Fits c := by
  unfold Role.of
  split
  · assumption
  · rename_i hblank
    split
    · assumption
    · rename_i hdigit
      split
      · assumption
      · rename_i halpha
        split
        · exact ofChar?_eq_some_iff.mp ‹_›
        · rename_i hnone
          rintro (h | h | h | h)
          · exact hblank h
          · exact hdigit h
          · exact halpha h
          · obtain ⟨s, hs⟩ := exists_ofChar?_iff.mpr h
            rw [hnone] at hs
            cases hs

theorem role_of_isBlank (h : Text.isBlank c = true) : Role.of c = .blank := if_pos h

theorem role_of_isDigit (h : Text.isDigit c = true) : Role.of c = .digit := by
  rw [Role.of, if_neg (by simp [Text.not_isBlank_of_isDigit h]), if_pos h]

theorem role_of_isAlpha (h : c.isAlpha = true) : Role.of c = .letter := by
  rw [Role.of, if_neg (by simp [Text.not_isBlank_of_isAlpha h]),
    if_neg (by simp [Text.not_isDigit_of_isAlpha h]), if_pos h]

theorem Role.Fits.legal {r : Role} (h : r.Fits c) (hr : r ≠ .stray) : Legal c := by
  cases r with
  | blank => exact .inl h
  | digit => exact .inr (.inl h)
  | letter => exact .inr (.inr (.inl h))
  | symbol s => exact .inr (.inr (.inr (exists_ofChar?_iff.mp ⟨s, ofChar?_eq_some_iff.mpr h⟩)))
  | stray => exact absurd rfl hr

/-- A character is stray just if it may not stand in a text. -/
theorem role_stray_iff : Role.of c = .stray ↔ ¬ Legal c := by
  have hfits := role_fits c
  constructor
  · intro h
    rwa [h] at hfits
  · intro h
    by_contra hrole
    exact h (hfits.legal hrole)

/-! ## Slices -/

/-- The characters from offset `i` on are split into tokens: blanks and slices in turn, each slice
that of a token at its own offset. Tokens that meet keep apart. -/
inductive Splits : Nat → List Char → List Token → Prop
  | close {i : Nat} {gap : List Char} : (∀ c ∈ gap, Text.isBlank c = true) →
      Splits i gap [⟨none, i + gap.length⟩]
  | token {i : Nat} {gap slice t : List Char} {l : Lexeme} {tokens : List Token} :
      (∀ c ∈ gap, Text.isBlank c = true) → l.Slice slice →
      (∀ l', lexemeAt (i + gap.length + slice.length) tokens = some l' → l.Apart l') →
      Splits (i + gap.length + slice.length) t tokens →
      Splits i (gap ++ slice ++ t) (⟨some l, i + gap.length⟩ :: tokens)

/-! ## What is split that way is scanned -/

theorem scanFrom_gap (hgap : ∀ c ∈ gap, Text.isBlank c = true) (i : Nat) (t : List Char) :
    scanFrom i (gap ++ t) = scanFrom (i + gap.length) t := by
  induction gap generalizing i with
  | nil => rfl
  | cons c gap ih =>
    obtain ⟨hc, hgap⟩ := List.forall_mem_cons.mp hgap
    rw [List.cons_append, scanFrom_cons, cons, role_of_isBlank hc, List.length_cons,
      Nat.add_comm gap.length, ← Nat.add_assoc]
    exact ih hgap (i + 1)

/-- A slice in front of what does not run into it. -/
theorem scanFrom_slice (hl : l.Slice slice) (hscan : scanFrom (i + slice.length) t = .ok tokens)
    (hafter : ∀ l', lexemeAt (i + slice.length) tokens = some l' → l.Apart l') :
    scanFrom i (slice ++ t) = .ok (⟨some l, i⟩ :: tokens) := by
  cases l with
  | number digits =>
    obtain ⟨hne, hdigits, rfl⟩ := hl
    exact scanFrom_digits hne (fun c hc => role_of_isDigit (hdigits c hc)) hscan
      fun s hs => hafter _ hs
  | word letters =>
    obtain ⟨hne, hletters, rfl⟩ := hl
    exact scanFrom_letters hne (fun c hc => role_of_isAlpha (hletters c hc)) hscan
      fun s hs => hafter _ hs
  | symbol s =>
    obtain rfl : s.text.toList = slice := hl
    exact scanFrom_lexeme (l := .symbol s) trivial hscan hafter

theorem Splits.scanFrom_eq (h : Splits i cs tokens) : scanFrom i cs = .ok tokens := by
  induction h with
  | close hgap =>
    rename_i i gap
    rw [← List.append_nil gap, scanFrom_gap hgap]
    simp [scanFrom]
  | token hgap hl hafter _ ih =>
    rw [List.append_assoc, scanFrom_gap hgap]
    exact scanFrom_slice hl ih hafter

/-! ## What is scanned is split that way -/

theorem Splits.blank (hc : Text.isBlank c = true) (h : Splits (i + 1) cs tokens) :
    Splits i (c :: cs) tokens := by
  cases h with
  | close hgap =>
    have hclose := Splits.close (i := i) (List.forall_mem_cons.mpr ⟨hc, hgap⟩)
    rwa [List.length_cons, Nat.add_comm cs.length, ← Nat.add_assoc] at hclose
  | @token _ gap slice t l tokens hgap hl hafter h =>
    have hlength : i + 1 + gap.length = i + (c :: gap).length := by
      rw [List.length_cons, Nat.add_comm gap.length, Nat.add_assoc]
    rw [hlength] at hafter h ⊢
    have hgap : ∀ b ∈ c :: gap, Text.isBlank b = true := List.forall_mem_cons.mpr ⟨hc, hgap⟩
    exact .token hgap hl hafter h

/-- A slice with no gap in front of it. -/
theorem Splits.here (hl : l.Slice slice)
    (hafter : ∀ l', lexemeAt (i + slice.length) tokens = some l' → l.Apart l')
    (h : Splits (i + slice.length) t tokens) : Splits i (slice ++ t) (⟨some l, i⟩ :: tokens) := by
  have hgap : ∀ b ∈ ([] : List Char), Text.isBlank b = true := List.forall_mem_nil _
  exact .token hgap hl hafter h

/-- What a character adds to the lexeme that starts right after it, or else is on its own, says the
same of the text as the character does. -/
structure Extends (own : Lexeme) (joined : Lexeme → Option Lexeme) (c : Char) : Prop where
  single : own.Slice [c]
  apart : ∀ l', joined l' = none → own.Apart l'
  cons : ∀ l' l slice, joined l' = some l → l'.Slice slice → l.Slice (c :: slice)
  apart_cons : ∀ l' l l'', joined l' = some l → l'.Apart l'' → l.Apart l''

theorem Splits.put {own : Lexeme} {joined : Lexeme → Option Lexeme} (hc : Extends own joined c)
    (h : Splits (i + 1) cs tokens) : Splits i (c :: cs) (put own joined i tokens) := by
  unfold Token.put
  split
  · rename_i l hl
    obtain ⟨l', hat, hjoined⟩ := Option.bind_eq_some_iff.mp hl
    cases h with
    | close => simp [lexemeAt] at hat
    | @token _ gap slice t l'' tokens hgap hslice hafter h =>
      -- the token starts right after the character, so that there is no gap before it
      simp only [lexemeAt] at hat
      split at hat
      · obtain rfl := Option.some.inj hat
        obtain rfl : gap = [] := List.length_eq_zero_iff.mp (by omega)
        have hlength :
            i + 1 + ([] : List Char).length + slice.length = i + (c :: slice).length := by
          rw [List.length_nil, List.length_cons]
          omega
        rw [hlength] at hafter h
        exact .here (hc.cons _ _ _ hjoined hslice)
          (fun l'' hl'' => hc.apart_cons _ _ _ hjoined (hafter l'' hl'')) h
      · cases hat
  · rename_i hnone
    refine Splits.here hc.single (fun l' hl' => ?_) h
    have hl' : lexemeAt (i + 1) tokens = some l' := hl'
    rw [hl', Option.bind_some] at hnone
    exact hc.apart l' hnone

theorem singleton_append_ofList (c : Char) (cs : List Char) :
    String.singleton c ++ String.ofList cs = String.ofList (c :: cs) := by
  rw [String.singleton_eq_ofList, ← String.ofList_append, List.singleton_append]

/-- A character of a class whose runs make up one lexeme, each character as `read` gives it. -/
theorem Extends.of_run {own : Lexeme} {joined : Lexeme → Option Lexeme} (lexeme : String → Lexeme)
    (read : Char → Char) (P : Char → Prop) (hown : own = lexeme (String.singleton (read c)))
    (hjoined : ∀ l' l, joined l' = some l ↔
      ∃ s, l' = lexeme s ∧ l = lexeme (String.singleton (read c) ++ s))
    (hslice : ∀ s slice, (lexeme s).Slice slice ↔
      slice ≠ [] ∧ (∀ c ∈ slice, P c) ∧ s = String.ofList (slice.map read))
    (hapart : ∀ s l', (lexeme s).Apart l' ↔ ∀ s', l' ≠ lexeme s') (hc : P c) :
    Extends own joined c where
  single := by
    rw [hown, hslice]
    exact ⟨by simp, List.forall_mem_singleton.mpr hc, String.singleton_eq_ofList⟩
  apart l' hl' := by
    rw [hown, hapart]
    rintro s rfl
    rw [(hjoined _ _).mpr ⟨s, rfl, rfl⟩] at hl'
    cases hl'
  cons l' l slice hl hl' := by
    obtain ⟨s, rfl, rfl⟩ := (hjoined l' l).mp hl
    obtain ⟨_, hall, rfl⟩ := (hslice s slice).mp hl'
    rw [hslice]
    exact ⟨by simp, List.forall_mem_cons.mpr ⟨hc, hall⟩, singleton_append_ofList _ _⟩
  apart_cons l' l l'' hl hl' := by
    obtain ⟨s, rfl, rfl⟩ := (hjoined l' l).mp hl
    rw [hapart] at hl' ⊢
    exact hl'

theorem exists_extends_digit (i : Nat) (hc : Text.isDigit c = true) : ∃ own joined,
    consDigit i c = Token.put own joined i ∧ Extends own joined c := by
  refine ⟨_, _, consDigit_eq_put, .of_run .number id (Text.isDigit · = true) rfl ?_ ?_ ?_ hc⟩
  · intro l' l
    cases l' <;> simp [eq_comm]
  · intro s slice
    simp [Lexeme.Slice]
  · intro s l'
    cases l' <;> simp [Lexeme.Apart]

theorem exists_extends_letter (i : Nat) (hc : c.isAlpha = true) : ∃ own joined,
    consLetter i c = Token.put own joined i ∧ Extends own joined c := by
  refine ⟨_, _, consLetter_eq_put,
    .of_run .word Char.toLower (·.isAlpha = true) rfl ?_ ?_ ?_ hc⟩
  · intro l' l
    cases l' <;> simp [eq_comm]
  · intro s slice
    simp [Lexeme.Slice]
  · intro s l'
    cases l' <;> simp [Lexeme.Apart]

theorem exists_extends_symbol (i : Nat) {s : Symbol} (hc : s.text.toList = [c]) : ∃ own joined,
    consSymbol i s = Token.put own joined i ∧ Extends own joined c := by
  obtain ⟨joined, hput, hjoined⟩ : ∃ joined, consSymbol i s = Token.put (.symbol s) joined i ∧
      ∀ l' l, joined l' = some l ↔
        l' = .symbol .equal ∧ ∃ s', s.withEqual? = some s' ∧ .symbol s' = l := by
    refine ⟨_, consSymbol_eq_put, fun l' l => ?_⟩
    cases l' with
    | symbol s' => cases s' <;> simp
    | _ => simp
  refine ⟨_, joined, hput, hc, fun l' hl' => ?_, fun l' l slice hl hl' => ?_,
    fun l' l l'' hl hl' => ?_⟩
  · cases hs : s.withEqual? with
    | none => exact Lexeme.apart_symbol hs
    | some s' =>
      have hne : l' ≠ .symbol .equal := fun h => by
        have hl := (hjoined l' (.symbol s')).mpr ⟨h, s', hs, rfl⟩
        rw [hl'] at hl
        cases hl
      unfold Lexeme.Apart
      split <;> simp_all
  · obtain ⟨rfl, s', hs, rfl⟩ := (hjoined l' l).mp hl
    obtain rfl : ['='] = slice := hl'
    cases s <;> cases hs <;> cases hc <;> rfl
  · obtain ⟨rfl, s', hs, rfl⟩ := (hjoined l' l).mp hl
    exact Lexeme.apart_symbol (by cases s <;> cases hs <;> rfl)

theorem Splits.of_scanFrom (h : scanFrom i cs = .ok tokens) : Splits i cs tokens := by
  induction cs generalizing i tokens with
  | nil =>
    obtain rfl := Except.ok.inj h
    exact .close (by simp)
  | cons c cs ih =>
    rw [scanFrom_cons, cons] at h
    have hfits := role_fits c
    cases hscan : scanFrom (i + 1) cs with
    | error e =>
      rw [hscan] at h
      split at h <;> cases h
    | ok after =>
      have hafter := ih hscan
      rw [hscan] at h
      split at h <;> rename_i hrole <;> rw [hrole] at hfits
      · obtain rfl := Except.ok.inj h
        exact hafter.blank hfits
      · obtain ⟨own, joined, hput, hextends⟩ := exists_extends_digit i hfits
        obtain rfl := Except.ok.inj h
        exact hput ▸ hafter.put hextends
      · obtain ⟨own, joined, hput, hextends⟩ := exists_extends_letter i hfits
        obtain rfl := Except.ok.inj h
        exact hput ▸ hafter.put hextends
      · obtain ⟨own, joined, hput, hextends⟩ := exists_extends_symbol i hfits
        obtain rfl := Except.ok.inj h
        exact hput ▸ hafter.put hextends
      · cases h

/-- Where the slice of a token lies. -/
theorem Splits.exists_slice {p : Nat} (h : Splits i cs tokens) (hl : ⟨some l, p⟩ ∈ tokens) :
    ∃ before slice after, cs = before ++ slice ++ after ∧ p = i + before.length ∧
      l.Slice slice := by
  induction h with
  | close => simp at hl
  | @token i gap slice t l' tokens hgap hslice hafter h ih =>
    cases hl with
    | head => exact ⟨gap, slice, t, rfl, rfl, hslice⟩
    | tail _ hl =>
      obtain ⟨before, own, after, rfl, rfl, hown⟩ := ih hl
      refine ⟨gap ++ slice ++ before, own, after, by simp only [List.append_assoc], ?_, hown⟩
      simp only [List.length_append]
      omega

/-! ## Characters that belong to no token -/

theorem cons_eq_error_iff {after : Except ParseError (List Token)} {e : ParseError} (hc : Legal c) :
    cons c i after = .error e ↔ after = .error e := by
  unfold cons
  split
  · rfl
  · cases after <;> simp [Except.map]
  · cases after <;> simp [Except.map]
  · cases after <;> simp [Except.map]
  · exact absurd hc (role_stray_iff.mp ‹_›)

/-- The first character of a text that belongs to no token, and its offset. -/
theorem scanFrom_eq_error_iff {e : ParseError} : scanFrom i cs = .error e ↔
    ∃ before c after, cs = before ++ c :: after ∧ (∀ b ∈ before, Legal b) ∧ ¬ Legal c ∧
      e = .strayCharacter (i + before.length) c := by
  induction cs generalizing i with
  | nil => simp [scanFrom]
  | cons c cs ih =>
    rw [scanFrom_cons]
    by_cases hc : Legal c
    · rw [cons_eq_error_iff hc, ih]
      constructor
      · rintro ⟨before, c', after, rfl, hbefore, hc', rfl⟩
        refine ⟨c :: before, c', after, rfl, List.forall_mem_cons.mpr ⟨hc, hbefore⟩, hc', ?_⟩
        rw [List.length_cons, Nat.add_comm before.length, Nat.add_assoc]
      · rintro ⟨before, c', after, hsplit, hbefore, hc', rfl⟩
        cases before with
        | nil =>
          obtain ⟨rfl, rfl⟩ := List.cons.inj hsplit
          exact absurd hc hc'
        | cons b before =>
          obtain ⟨rfl, rfl⟩ := List.cons.inj hsplit
          refine ⟨before, c', after, rfl, (List.forall_mem_cons.mp hbefore).2, hc', ?_⟩
          rw [List.length_cons, Nat.add_comm before.length, Nat.add_assoc]
    · have hcons : cons c i (scanFrom (i + 1) cs) = .error (.strayCharacter i c) := by
        rw [cons, role_stray_iff.mpr hc]
      rw [hcons]
      constructor
      · intro h
        exact ⟨[], c, cs, rfl, by simp, hc, (Except.error.inj h).symm⟩
      · rintro ⟨before, c', after, hsplit, hbefore, hc', rfl⟩
        cases before with
        | nil =>
          obtain ⟨rfl, rfl⟩ := List.cons.inj hsplit
          rfl
        | cons b before =>
          obtain ⟨rfl, rfl⟩ := List.cons.inj hsplit
          exact absurd (List.forall_mem_cons.mp hbefore).1 hc

theorem exists_scanFrom_eq_ok_iff : (∃ tokens, scanFrom i cs = .ok tokens) ↔ ∀ c ∈ cs, Legal c := by
  constructor
  · rintro ⟨tokens, h⟩
    cases hfind : cs.find? (¬ Legal ·) with
    | none => simpa using hfind
    | some c =>
      obtain ⟨hc, before, after, rfl, hbefore⟩ := List.find?_eq_some_iff_append.mp hfind
      have herror := (scanFrom_eq_error_iff (i := i)).mpr
        ⟨before, c, after, rfl, by simpa using hbefore, by simpa using hc, rfl⟩
      cases h.symm.trans herror
  · intro h
    cases hscan : scanFrom i cs with
    | ok tokens => exact ⟨tokens, rfl⟩
    | error e =>
      obtain ⟨before, c, after, rfl, _, hc, _⟩ := scanFrom_eq_error_iff.mp hscan
      exact absurd (h c (by simp)) hc

/-! ## Whole texts -/

/-- A text is split into tokens in the one way there is: blanks and slices in turn, each slice that
of a token at its own offset, in the longest runs; the tokens are in the order of their offsets, and
the last is at the end. There is such a way just if every character may stand in a text, and
otherwise the first that may not is reported, with its offset. -/
theorem scan_splits (text : String) :
    (∀ tokens, scan text = .ok tokens ↔ Splits 0 text.toList tokens ∧
      tokens.Pairwise (fun t t' => t.position < t'.position) ∧
      tokens.getLast? = some ⟨none, text.length⟩) ∧
    ((∃ tokens, scan text = .ok tokens) ↔ ∀ c ∈ text.toList, Legal c) ∧
    ∀ e, scan text = .error e ↔ ∃ before c after, text.toList = before ++ c :: after ∧
      (∀ b ∈ before, Legal b) ∧ ¬ Legal c ∧ e = .strayCharacter before.length c ∧
      e.position = before.length ∧ e.found = some (String.singleton c) := by
  rw [scan_eq_scanFrom]
  refine ⟨fun tokens => ?_, exists_scanFrom_eq_ok_iff, fun e => ?_⟩
  · constructor
    · intro h
      obtain ⟨front, hend⟩ := exists_end h
      refine ⟨.of_scanFrom h, (Scanned.of_scanFrom h).pairwise, ?_⟩
      rw [hend, List.getLast?_concat, Nat.zero_add, String.length_toList]
    · rintro ⟨h, -, -⟩
      exact h.scanFrom_eq
  · rw [scanFrom_eq_error_iff]
    constructor
    · rintro ⟨before, c, after, htext, hbefore, hc, rfl⟩
      rw [Nat.zero_add]
      exact ⟨before, c, after, htext, hbefore, hc, rfl, rfl, rfl⟩
    · rintro ⟨before, c, after, htext, hbefore, hc, rfl, -, -⟩
      exact ⟨before, c, after, htext, hbefore, hc, by rw [Nat.zero_add]⟩

/-- A digit of another script is a number of its own behind a comparison of two characters, but goes
on with the number in front of it. -/
example : scan " 2D<=٣4" = .ok [⟨some (.number "2"), 1⟩, ⟨some (.word "d"), 2⟩,
    ⟨some (.symbol .lessEqual), 3⟩, ⟨some (.number "٣4"), 5⟩, ⟨none, 7⟩] := rfl

end Token

end DiceLang
