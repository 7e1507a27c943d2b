import DiceLang.Token
import Mathlib.Data.List.Chain

/-!
# What is written is scanned

Lexemes written one after another, with at most one space between two of them (`Renders`), are the
lexemes that the text is split into, unless two of them that meet would run into one (`Apart`).

* `scan_of_renders`: scanning is a left inverse of writing;
* `plain_of_scan`: the words of a text are in small letters.
-/

namespace DiceLang

/-- The lexeme is written in ASCII, as scanning leaves it. -/
def Lexeme.Plain : Lexeme → Prop
  | .number digits => digits.toList ≠ [] ∧ ∀ c ∈ digits.toList, c.isDigit = true
  | .word letters => letters.toList ≠ [] ∧ ∀ c ∈ letters.toList, c.isLower = true
  | .symbol _ => True

/-- The first lexeme takes in nothing of the second, when the two are written without a space. -/
def Lexeme.Apart : Lexeme → Lexeme → Prop
  | .number _, .number _ => False
  | .word _, .word _ => False
  | .symbol s, .symbol .equal => s.withEqual? = none
  | _, _ => True

theorem Lexeme.apart_symbol {s : Symbol} {l : Lexeme} (hs : s.withEqual? = none) :
    (Lexeme.symbol s).Apart l := by
  unfold Apart
  split <;> simp_all

/-- The text is made of the lexemes, all of them `ok`, with at most one space after each but the
last. -/
inductive Renders (ok : Lexeme → Prop) : List Char → List Lexeme → Prop
  | nil : Renders ok [] []
  | close {l t ls} : ok l → Renders ok t ls → Renders ok (l.text.toList ++ t) (l :: ls)
  | spaced {l t ls} : ok l → ls ≠ [] → Renders ok t ls →
      Renders ok (l.text.toList ++ ' ' :: t) (l :: ls)

namespace Renders

variable {ok : Lexeme → Prop} {t t₁ t₂ : List Char} {ls ls₁ ls₂ : List Lexeme} {l : Lexeme}

theorem single (hl : ok l) : Renders ok l.text.toList [l] := by
  rw [← List.append_nil l.text.toList]
  exact .close hl .nil

theorem append (h₁ : Renders ok t₁ ls₁) (h₂ : Renders ok t₂ ls₂) :
    Renders ok (t₁ ++ t₂) (ls₁ ++ ls₂) := by
  induction h₁ with
  | nil => exact h₂
  | close hl _ ih =>
    rw [List.append_assoc]
    exact .close hl ih
  | spaced hl hls _ ih =>
    rw [List.append_assoc]
    exact .spaced hl (by simp [hls]) ih

theorem append_spaced (h₁ : Renders ok t₁ ls₁) (h₂ : Renders ok t₂ ls₂) (hls₁ : ls₁ ≠ [])
    (hls₂ : ls₂ ≠ []) : Renders ok (t₁ ++ ' ' :: t₂) (ls₁ ++ ls₂) := by
  induction h₁ with
  | nil => exact absurd rfl hls₁
  | @close l t ls hl h ih =>
    rw [List.append_assoc]
    cases h with
    | nil => exact .spaced hl hls₂ h₂
    | close => exact .close hl (ih (by simp))
    | spaced => exact .close hl (ih (by simp))
  | spaced hl hls _ ih =>
    rw [List.append_assoc]
    exact .spaced hl (by simp [hls]) (ih hls)

theorem all_ok (h : Renders ok t ls) : ∀ l ∈ ls, ok l := by
  induction h with
  | nil => simp
  | close hl _ ih => exact List.forall_mem_cons.mpr ⟨hl, ih⟩
  | spaced hl _ _ ih => exact List.forall_mem_cons.mpr ⟨hl, ih⟩

/-- What is in no lexeme is not in the text, unless it is a space. -/
theorem notMem {c : Char} (hblank : c ≠ ' ') (hok : ∀ l, ok l → c ∉ l.text.toList)
    (h : Renders ok t ls) : c ∉ t := by
  induction h with
  | nil => simp
  | close hl _ ih => simp [hok _ hl, ih]
  | spaced hl _ _ ih => simp [hok _ hl, ih, hblank]

end Renders

theorem Lexeme.Plain.notMem {c : Char} (hdigit : c.isDigit = false) (hlower : c.isLower = false)
    (hsymbol : ∀ s : Symbol, c ∉ s.text.toList) {l : Lexeme} (h : l.Plain) : c ∉ l.text.toList := by
  cases l with
  | number digits => exact fun hc => by simp [h.2 c hc] at hdigit
  | word letters => exact fun hc => by simp [h.2 c hc] at hlower
  | symbol s => exact hsymbol s

namespace Token

/-! ## Roles -/

theorem role_digit {c : Char} (h : c.isDigit = true) : Role.of c = .digit := by
  have all : ∀ n < 10, Role.of (Char.ofNat (48 + n)) = .digit := by decide
  have bounds := Bool.and_eq_true_iff.mp h
  have low : 48 ≤ c.toNat := of_decide_eq_true bounds.1
  have high : c.toNat ≤ 57 := of_decide_eq_true bounds.2
  have hc := all (c.toNat - 48) (by omega)
  rwa [Nat.add_sub_cancel' low, Char.ofNat_toNat] at hc

theorem role_letter {c : Char} (h : c.isLower = true) : Role.of c = .letter ∧ c.toLower = c := by
  have all : ∀ n < 26, Role.of (Char.ofNat (97 + n)) = .letter ∧
      (Char.ofNat (97 + n)).toLower = Char.ofNat (97 + n) := by decide
  have bounds := Bool.and_eq_true_iff.mp h
  have low : 97 ≤ c.toNat := of_decide_eq_true bounds.1
  have high : c.toNat ≤ 122 := of_decide_eq_true bounds.2
  have hc := all (c.toNat - 97) (by omega)
  rwa [Nat.add_sub_cancel' low, Char.ofNat_toNat] at hc

theorem isLower_toLower {c : Char} (h : c.isAlpha = true) : c.toLower.isLower = true := by
  have all : ∀ n < 26, (Char.ofNat (65 + n)).toLower.isLower = true := by decide
  rcases Bool.or_eq_true _ _ ▸ h with h | h
  · have bounds := of_decide_eq_true h
    have low : 65 ≤ c.toNat := bounds.1
    have high : c.toNat ≤ 90 := bounds.2
    have hc := all (c.toNat - 65) (by omega)
    rwa [Nat.add_sub_cancel' low, Char.ofNat_toNat] at hc
  · rwa [(role_letter h).2]

/-! ## Scanning from an offset -/

/-- The tokens of what lies from offset `i` on. -/
def scanFrom (i : Nat) (cs : List Char) : Except ParseError (List Token) :=
  (cs.zipIdx i).foldr (fun (c, i) after => cons c i after) (.ok [⟨none, i + cs.length⟩])

theorem scan_eq_scanFrom (text : String) : scan text = scanFrom 0 text.toList := by
  rw [scan, scanFrom, String.length_toList, Nat.zero_add]

variable {i : Nat} {c : Char} {cs t : List Char} {tokens : List Token} {l : Lexeme}

theorem scanFrom_cons : scanFrom i (c :: cs) = cons c i (scanFrom (i + 1) cs) := by
  simp [scanFrom, List.zipIdx_cons, Nat.add_assoc, Nat.add_comm 1]

theorem head?_of_lexemeAt (h : lexemeAt i tokens = some l) :
    (tokens.filterMap lexeme).head? = some l := by
  cases tokens with
  | nil => cases h
  | cons t tokens =>
    simp only [lexemeAt] at h
    split at h
    · simp [h]
    · cases h

/-- A run of characters that go into one lexeme, each as `read` gives it, where what comes after is
no part of it. -/
theorem scanFrom_run (lexeme : String → Lexeme) (read : Char → Char) (hne : cs ≠ [])
    (hjoin : ∀ c ∈ cs, ∀ i s tokens, cons c i (.ok (⟨some (lexeme s), i + 1⟩ :: tokens)) =
      .ok (⟨some (lexeme (String.singleton (read c) ++ s)), i⟩ :: tokens))
    (hstart : ∀ c ∈ cs, ∀ i, (∀ s, lexemeAt (i + 1) tokens ≠ some (lexeme s)) →
      cons c i (.ok tokens) = .ok (⟨some (lexeme (String.singleton (read c))), i⟩ :: tokens))
    (hscan : scanFrom (i + cs.length) t = .ok tokens)
    (hafter : ∀ s, lexemeAt (i + cs.length) tokens ≠ some (lexeme s)) :
    scanFrom i (cs ++ t) = .ok (⟨some (lexeme (String.ofList (cs.map read))), i⟩ :: tokens) := by
  induction cs generalizing i with
  | nil => exact absurd rfl hne
  | cons c cs ih =>
    rw [List.cons_append, scanFrom_cons]
    rw [List.length_cons, Nat.add_comm cs.length, ← Nat.add_assoc] at hscan hafter
    cases cs with
    | nil =>
      rw [List.length_nil, Nat.add_zero] at hscan hafter
      rw [List.nil_append, hscan, hstart c (by simp) i hafter, String.singleton_eq_ofList]
      rfl
    | cons d cs =>
      rw [ih (by simp) (fun c hc => hjoin c (List.mem_cons_of_mem _ hc))
        (fun c hc => hstart c (List.mem_cons_of_mem _ hc)) hscan hafter, hjoin c (by simp),
        String.singleton_eq_ofList, ← String.ofList_append, List.singleton_append]
      rfl

theorem scanFrom_digits (hne : cs ≠ []) (hdigits : ∀ c ∈ cs, Role.of c = .digit)
    (hscan : scanFrom (i + cs.length) t = .ok tokens)
    (hafter : ∀ s, lexemeAt (i + cs.length) tokens ≠ some (.number s)) :
    scanFrom i (cs ++ t) = .ok (⟨some (.number (String.ofList cs)), i⟩ :: tokens) := by
  have hrun := scanFrom_run .number id hne ?_ ?_ hscan hafter
  · rwa [List.map_id] at hrun
  · intro c hc i s tokens
    rw [cons, hdigits c hc]
    simp [Except.map, consDigit, lexemeAt]
  · intro c hc i hafter
    rw [cons, hdigits c hc]
    simp only [Except.map, consDigit, id]

theorem scanFrom_letters (hne : cs ≠ []) (hletters : ∀ c ∈ cs, Role.of c = .letter)
    (hscan : scanFrom (i + cs.length) t = .ok tokens)
    (hafter : ∀ s, lexemeAt (i + cs.length) tokens ≠ some (.word s)) :
    scanFrom i (cs ++ t) =
      .ok (⟨some (.word (String.ofList (cs.map Char.toLower))), i⟩ :: tokens) := by
  refine scanFrom_run .word Char.toLower hne ?_ ?_ hscan hafter
  · intro c hc i s tokens
    rw [cons, hletters c hc]
    simp [Except.map, consLetter, lexemeAt]
  · intro c hc i hafter
    rw [cons, hletters c hc]
    simp only [Except.map, consLetter]

theorem scanFrom_symbol {s : Symbol} (hc : Role.of c = .symbol s)
    (hscan : scanFrom (i + 1) t = .ok tokens)
    (hafter : lexemeAt (i + 1) tokens = some (.symbol .equal) → s.withEqual? = none) :
    scanFrom i (c :: t) = .ok (⟨some (.symbol s), i⟩ :: tokens) := by
  rw [scanFrom_cons, cons, hc, hscan]
  simp only [Except.map, consSymbol]
  split
  · rename_i hequal hjoined
    rw [hafter hequal] at hjoined
    cases hjoined
  · rfl

theorem scanFrom_joined {s joined : Symbol} (hc : Role.of c = .symbol s)
    (hjoined : s.withEqual? = some joined) (hscan : scanFrom (i + 2) t = .ok tokens) :
    scanFrom i (c :: '=' :: t) = .ok (⟨some (.symbol joined), i⟩ :: tokens) := by
  have hequal := scanFrom_symbol (c := '=') (i := i + 1) (s := .equal) (by decide) hscan
    fun _ => rfl
  rw [scanFrom_cons, hequal, cons, hc]
  simp [Except.map, consSymbol, lexemeAt, hjoined]

/-- A symbol is written as one character, or as one that an equals sign joins. -/
theorem symbol_chars (s : Symbol) :
    (∃ c, s.text.toList = [c] ∧ Role.of c = .symbol s) ∨
      ∃ c first, s.text.toList = [c, '='] ∧ Role.of c = .symbol first ∧
        first.withEqual? = some s := by
  cases s with
  | lessEqual => exact .inr ⟨'<', .less, rfl, by decide, rfl⟩
  | greaterEqual => exact .inr ⟨'>', .greater, rfl, by decide, rfl⟩
  | _ => exact .inl ⟨_, rfl, by decide⟩

/-- A lexeme in front of what does not run into it. -/
theorem scanFrom_lexeme (hl : l.Plain) (hscan : scanFrom (i + l.text.toList.length) t = .ok tokens)
    (hafter : ∀ l', lexemeAt (i + l.text.toList.length) tokens = some l' → l.Apart l') :
    scanFrom i (l.text.toList ++ t) = .ok (⟨some l, i⟩ :: tokens) := by
  cases l with
  | number digits =>
    have hscanned := scanFrom_digits hl.1 (fun c hc => role_digit (hl.2 c hc)) hscan
      fun s hs => hafter _ hs
    rwa [String.ofList_toList] at hscanned
  | word letters =>
    have hlower : letters.toList.map Char.toLower = letters.toList :=
      (List.map_congr_left fun c hc => (role_letter (hl.2 c hc)).2).trans (List.map_id _)
    have hscanned := scanFrom_letters hl.1 (fun c hc => (role_letter (hl.2 c hc)).1) hscan
      fun s hs => hafter _ hs
    rwa [hlower, String.ofList_toList] at hscanned
  | symbol s =>
    rcases symbol_chars s with ⟨c, hs, hc⟩ | ⟨c, first, hs, hc, hfirst⟩
    · simp only [Lexeme.text, hs] at hscan hafter ⊢
      exact scanFrom_symbol hc hscan fun h => hafter _ h
    · simp only [Lexeme.text, hs] at hscan ⊢
      exact scanFrom_joined hc hfirst hscan

theorem scanFrom_of_renders {ok : Lexeme → Prop} {ls : List Lexeme} (h : Renders ok t ls)
    (hok : ∀ l, ok l → l.Plain) (hls : ls.IsChain Lexeme.Apart) :
    ∃ tokens, scanFrom i t = .ok tokens ∧ tokens.filterMap lexeme = ls := by
  induction h generalizing i with
  | nil => exact ⟨_, rfl, rfl⟩
  | @close l t ls hl _ ih =>
    obtain ⟨hapart, hls⟩ := List.isChain_cons.mp hls
    obtain ⟨tokens, hscan, rfl⟩ := ih (i := i + l.text.toList.length) hls
    exact ⟨_, scanFrom_lexeme (hok l hl) hscan fun l' hl' => hapart l' (head?_of_lexemeAt hl'), rfl⟩
  | @spaced l t ls hl _ _ ih =>
    obtain ⟨hapart, hls⟩ := List.isChain_cons.mp hls
    obtain ⟨tokens, hscan, rfl⟩ := ih (i := i + l.text.toList.length + 1) hls
    refine ⟨_, scanFrom_lexeme (hok l hl) ?_ fun l' hl' => hapart l' (head?_of_lexemeAt hl'), rfl⟩
    rw [scanFrom_cons, hscan]
    rfl

/-- What is written as lexemes is scanned as these lexemes. -/
theorem scan_of_renders {ok : Lexeme → Prop} {text : String} {ls : List Lexeme}
    (h : Renders ok text.toList ls) (hok : ∀ l, ok l → l.Plain) (hls : ls.IsChain Lexeme.Apart) :
    ∃ tokens, scan text = .ok tokens ∧ tokens.filterMap lexeme = ls := by
  rw [scan_eq_scanFrom]
  exact scanFrom_of_renders h hok hls

/-! ## The words of a text -/

theorem isAlpha_of_role (h : Role.of c = .letter) : c.isAlpha = true := by
  unfold Role.of at h
  split at h
  · cases h
  · split at h
    · cases h
    · split at h
      · assumption
      · split at h <;> cases h

theorem mem_of_mem_tail (h : l ∈ tokens.tail.filterMap lexeme) : l ∈ tokens.filterMap lexeme :=
  ((List.tail_sublist tokens).filterMap lexeme).subset h

theorem mem_consDigit (h : l ∈ (consDigit i c tokens).filterMap lexeme) :
    (∃ digits, l = .number digits) ∨ l ∈ tokens.filterMap lexeme := by
  unfold consDigit at h
  split at h
  · exact (List.mem_cons.mp h).imp (fun e => ⟨_, e⟩) mem_of_mem_tail
  · exact (List.mem_cons.mp h).imp (fun e => ⟨_, e⟩) id

theorem mem_consSymbol {s : Symbol} (h : l ∈ (consSymbol i s tokens).filterMap lexeme) :
    (∃ s, l = .symbol s) ∨ l ∈ tokens.filterMap lexeme := by
  unfold consSymbol at h
  split at h
  · exact (List.mem_cons.mp h).imp (fun e => ⟨_, e⟩) mem_of_mem_tail
  · exact (List.mem_cons.mp h).imp (fun e => ⟨_, e⟩) id

/-- A letter makes a word of its own, or goes in front of one. -/
theorem mem_consLetter (h : l ∈ (consLetter i c tokens).filterMap lexeme) :
    (∃ letters, l = .word (String.singleton c.toLower ++ letters) ∧
      (letters = "" ∨ .word letters ∈ tokens.filterMap lexeme)) ∨ l ∈ tokens.filterMap lexeme := by
  simp only [consLetter] at h
  split at h
  · rename_i letters hafter
    refine (List.mem_cons.mp h).imp (fun e => ⟨letters, e, .inr ?_⟩) mem_of_mem_tail
    exact List.mem_of_mem_head? (head?_of_lexemeAt hafter)
  · exact (List.mem_cons.mp h).imp (fun e => ⟨"", by simpa using e, .inl rfl⟩) id

theorem plain_singleton_append {letters : String} (hc : c.isAlpha = true)
    (h : letters = "" ∨ (Lexeme.word letters).Plain) :
    (Lexeme.word (String.singleton c.toLower ++ letters)).Plain := by
  have htext : (String.singleton c.toLower ++ letters).toList = c.toLower :: letters.toList := by
    simp
  rw [Lexeme.Plain, htext]
  refine ⟨by simp, List.forall_mem_cons.mpr ⟨isLower_toLower hc, ?_⟩⟩
  rcases h with rfl | ⟨_, h⟩
  · simp
  · exact h

theorem plain_of_scanFrom {letters : String} (h : scanFrom i cs = .ok tokens)
    (hl : .word letters ∈ tokens.filterMap lexeme) : (Lexeme.word letters).Plain := by
  induction cs generalizing i tokens letters with
  | nil =>
    obtain rfl := Except.ok.inj h
    simp at hl
  | cons c cs ih =>
    rw [scanFrom_cons] at h
    cases hscan : scanFrom (i + 1) cs with
    | error e =>
      rw [hscan] at h
      unfold cons at h
      split at h <;> cases h
    | ok after =>
      rw [hscan] at h
      unfold cons at h
      split at h
      · obtain rfl := Except.ok.inj h
        exact ih hscan hl
      · obtain rfl := Except.ok.inj h
        rcases mem_consDigit hl with ⟨digits, e⟩ | hl
        · cases e
        · exact ih hscan hl
      · rename_i hrole
        obtain rfl := Except.ok.inj h
        rcases mem_consLetter hl with ⟨rest, e, hrest⟩ | hl
        · obtain rfl := Lexeme.word.inj e
          exact plain_singleton_append (isAlpha_of_role hrole) (hrest.imp_right (ih hscan))
        · exact ih hscan hl
      · obtain rfl := Except.ok.inj h
        rcases mem_consSymbol hl with ⟨s, e⟩ | hl
        · cases e
        · exact ih hscan hl
      · cases h

/-- The words of a text are not empty and in small letters. -/
theorem plain_of_scan {text letters : String} (h : scan text = .ok tokens)
    (hl : .word letters ∈ tokens.filterMap lexeme) : (Lexeme.word letters).Plain := by
  rw [scan_eq_scanFrom] at h
  exact plain_of_scanFrom h hl

end Token

end DiceLang
