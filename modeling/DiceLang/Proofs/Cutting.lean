import DiceLang.Proofs.SameTokens

/-!
# Texts that are cut short

A text that is cut where a token starts keeps the tokens before the cut, whatever is written behind
it after a space: a character takes its place in front of the tokens after it by the lexeme that
starts right after it, and by nothing else (`put`).

* `scanFrom_cut`: a text that is cut where a token starts, and continued;
* `exists_scan_cut`: the lexemes with which it is continued may be any that keep apart;
* `Roll.stray_or_ofTokens`: a text that is not read is not split, or its tokens are not read.
-/

namespace DiceLang.Token

variable {i j : Nat} {c : Char} {cs t more : List Char} {front rest rest' tokens : List Token}
  {l : Option Lexeme}

/-- Puts a lexeme at offset `i` in front of the tokens after it: joined with the one that starts
right after it, if the two join, or on its own. -/
def put (own : Lexeme) (joined : Lexeme → Option Lexeme) (i : Nat) (tokens : List Token) :
    List Token :=
  match (lexemeAt (i + 1) tokens).bind joined with
  | some l => ⟨some l, i⟩ :: tokens.tail
  | none => ⟨some own, i⟩ :: tokens

theorem consDigit_eq_put : consDigit i c = put (.number (String.singleton c))
    (fun
      | .number digits => some (.number (String.singleton c ++ digits))
      | _ => none) i := by
  funext tokens
  unfold consDigit put
  cases lexemeAt (i + 1) tokens with
  | none => rfl
  | some l => cases l <;> rfl

theorem consLetter_eq_put : consLetter i c = put (.word (String.singleton c.toLower))
    (fun
      | .word letters => some (.word (String.singleton c.toLower ++ letters))
      | _ => none) i := by
  funext tokens
  unfold consLetter put
  cases lexemeAt (i + 1) tokens with
  | none => rfl
  | some l => cases l <;> rfl

theorem consSymbol_eq_put {s : Symbol} : consSymbol i s = put (.symbol s)
    (fun
      | .symbol .equal => s.withEqual?.map .symbol
      | _ => none) i := by
  funext tokens
  unfold consSymbol put
  cases lexemeAt (i + 1) tokens with
  | none => rfl
  | some l =>
    cases l with
    | symbol s' => cases s' <;> cases s.withEqual? <;> rfl
    | _ => rfl

/-- What a character does to the tokens after it is the same whatever they are. -/
theorem exists_step (h : scanFrom i (c :: cs) = .ok tokens) : ∃ step : List Token → List Token,
    (step = id ∨ ∃ own joined, step = put own joined i) ∧
      (∀ cs', scanFrom i (c :: cs') = (scanFrom (i + 1) cs').map step) ∧
      ∃ after, scanFrom (i + 1) cs = .ok after ∧ tokens = step after := by
  have hafter : ∀ {step : List Token → List Token},
      (∀ cs', scanFrom i (c :: cs') = (scanFrom (i + 1) cs').map step) →
        ∃ after, scanFrom (i + 1) cs = .ok after ∧ tokens = step after := fun hstep => by
    rw [hstep] at h
    cases hscan : scanFrom (i + 1) cs with
    | error e =>
      rw [hscan] at h
      cases h
    | ok after =>
      rw [hscan] at h
      exact ⟨after, rfl, (Except.ok.inj h).symm⟩
  cases hrole : Role.of c with
  | stray =>
    rw [scanFrom_cons, cons, hrole] at h
    cases h
  | blank =>
    have hstep : ∀ cs', scanFrom i (c :: cs') = (scanFrom (i + 1) cs').map id := fun cs' => by
      rw [scanFrom_cons, cons, hrole]
      cases scanFrom (i + 1) cs' <;> rfl
    exact ⟨_, .inl rfl, hstep, hafter hstep⟩
  | digit =>
    have hstep : ∀ cs', scanFrom i (c :: cs') = (scanFrom (i + 1) cs').map (consDigit i c) :=
      fun cs' => by rw [scanFrom_cons, cons, hrole]
    exact ⟨_, .inr ⟨_, _, consDigit_eq_put⟩, hstep, hafter hstep⟩
  | letter =>
    have hstep : ∀ cs', scanFrom i (c :: cs') = (scanFrom (i + 1) cs').map (consLetter i c) :=
      fun cs' => by rw [scanFrom_cons, cons, hrole]
    exact ⟨_, .inr ⟨_, _, consLetter_eq_put⟩, hstep, hafter hstep⟩
  | symbol s =>
    have hstep : ∀ cs', scanFrom i (c :: cs') = (scanFrom (i + 1) cs').map (consSymbol i s) :=
      fun cs' => by rw [scanFrom_cons, cons, hrole]
    exact ⟨_, .inr ⟨_, _, consSymbol_eq_put⟩, hstep, hafter hstep⟩

theorem Scanned.lexemeAt_eq_none (h : Scanned j tokens) (hij : i < j) :
    lexemeAt i tokens = none := by
  cases tokens with
  | nil => rfl
  | cons t tokens =>
    have hposition := h.le_position t List.mem_cons_self
    exact if_neg (by omega)

/-- A token further on than `i` stays where it is; what comes after the tokens in front of it is no
matter, unless it starts before that token. -/
theorem put_cut {own : Lexeme} {joined : Lexeme → Option Lexeme}
    (h : put own joined i tokens = front ++ ⟨l, j⟩ :: rest) (hij : i < j)
    (hrest' : Scanned (j + 1) rest') : ∃ front', tokens = front' ++ ⟨l, j⟩ :: rest ∧
      put own joined i (front' ++ rest') = front ++ rest' := by
  unfold put at h ⊢
  cases front with
  | nil => split at h <;> cases h <;> omega
  | cons first front =>
    split at h
    · rename_i l' hjoined
      obtain ⟨rfl, htail⟩ := List.cons.inj h
      cases tokens with
      | nil => cases hjoined
      | cons next tokens =>
        obtain rfl : tokens = front ++ ⟨l, j⟩ :: rest := htail
        refine ⟨next :: front, rfl, ?_⟩
        have hnext : lexemeAt (i + 1) (next :: front ++ rest') =
            lexemeAt (i + 1) (next :: (front ++ ⟨l, j⟩ :: rest)) := rfl
        rw [hnext, hjoined]
        rfl
    · rename_i hjoined
      obtain ⟨rfl, rfl⟩ := List.cons.inj h
      refine ⟨front, rfl, ?_⟩
      have hnone : (lexemeAt (i + 1) (front ++ rest')).bind joined = none := by
        cases front with
        | nil => rw [List.nil_append, hrest'.lexemeAt_eq_none (by omega), Option.bind_none]
        | cons next front => exact hjoined
      rw [hnone]
      rfl

/-- A text that is cut where a token starts, and continued behind a space. -/
theorem scanFrom_cut (h : scanFrom i (cs ++ t) = .ok (front ++ ⟨l, i + cs.length⟩ :: rest))
    (hmore : scanFrom (i + cs.length + 1) more = .ok rest') :
    scanFrom i (cs ++ ' ' :: more) = .ok (front ++ rest') := by
  induction cs generalizing i front with
  | nil =>
    have hscanned := Scanned.of_scanFrom h
    cases front with
    | nil =>
      rw [List.length_nil, Nat.add_zero] at hmore
      rw [List.nil_append, scanFrom_cons, hmore]
      rfl
    | cons first front =>
      have hfirst := hscanned.le_position first List.mem_cons_self
      have hlt := List.rel_of_pairwise_cons hscanned.pairwise
        (List.mem_append_right front List.mem_cons_self)
      exact absurd hlt (Nat.not_lt.mpr hfirst)
  | cons c cs ih =>
    rw [List.length_cons, Nat.add_comm cs.length, ← Nat.add_assoc] at h hmore
    rw [List.cons_append] at h ⊢
    obtain ⟨step, hstep, hcons, tokens, hscan, htokens⟩ := exists_step h
    rw [hcons]
    rcases hstep with rfl | ⟨own, joined, rfl⟩
    · obtain rfl : _ = tokens := htokens
      rw [ih hscan hmore]
      rfl
    · obtain ⟨front', rfl, hput⟩ := put_cut htokens.symm (by omega) (.of_scanFrom hmore)
      rw [ih hscan hmore, ← hput]
      rfl

/-! ## Whole texts -/

/-- Only a stray character keeps a text from being split. -/
theorem exists_stray {e : ParseError} (h : scanFrom i cs = .error e) :
    ∃ position c, e = .strayCharacter position c := by
  induction cs generalizing i with
  | nil => cases h
  | cons c cs ih =>
    rw [scanFrom_cons, cons] at h
    cases hscan : scanFrom (i + 1) cs with
    | error e' =>
      rw [hscan] at h
      split at h <;> cases h <;> first | exact ih hscan | exact ⟨_, _, rfl⟩
    | ok after =>
      rw [hscan] at h
      split at h <;> cases h
      exact ⟨_, _, rfl⟩

/-- The last token is at the end of the text. -/
theorem exists_end (h : scanFrom i cs = .ok tokens) :
    ∃ front, tokens = front ++ [⟨none, i + cs.length⟩] := by
  induction cs generalizing i tokens with
  | nil => exact ⟨[], (Except.ok.inj h).symm⟩
  | cons c cs ih =>
    rw [List.length_cons, Nat.add_comm cs.length, ← Nat.add_assoc]
    obtain ⟨step, hstep, _, after, hscan, rfl⟩ := exists_step h
    obtain ⟨front, rfl⟩ := ih hscan
    rcases hstep with rfl | ⟨own, joined, rfl⟩
    · exact ⟨front, rfl⟩
    · cases hjoined : (lexemeAt (i + 1) (front ++ [⟨none, i + 1 + cs.length⟩])).bind joined with
      | none => exact ⟨⟨some own, i⟩ :: front, by simp [put, hjoined]⟩
      | some l =>
        cases front with
        | nil => simp [lexemeAt] at hjoined
        | cons next front => exact ⟨⟨some l, i⟩ :: front, by simp_all [put]⟩

/-- A token in front of another one has a lexeme, and what comes after it is split as well. -/
theorem Scanned.of_cons {t : Token} (h : Scanned i (t :: front ++ ⟨l, j⟩ :: rest)) :
    (∃ l', t.lexeme = some l') ∧ ∃ i', Scanned i' (front ++ ⟨l, j⟩ :: rest) := by
  rw [List.cons_append] at h
  generalize hafter : front ++ ⟨l, j⟩ :: rest = after at h ⊢
  cases h with
  | close => simp at hafter
  | cons l' _ hscanned => exact ⟨⟨l', rfl⟩, _, hscanned⟩

theorem Scanned.lexeme_eq_none_iff (h : Scanned i (front ++ ⟨l, j⟩ :: rest)) :
    l = none ↔ rest = [] := by
  induction front generalizing i with
  | nil =>
    cases h with
    | close => simp
    | cons l _ hrest => cases hrest <;> simp
  | cons first front ih =>
    obtain ⟨_, _, hscanned⟩ := h.of_cons
    exact ih hscanned

/-- Each token in front of another one has a lexeme. -/
theorem Scanned.length_filterMap (h : Scanned i (front ++ ⟨l, j⟩ :: rest)) :
    (front.filterMap lexeme).length = front.length := by
  induction front generalizing i with
  | nil => rfl
  | cons first front ih =>
    obtain ⟨⟨l', hl'⟩, _, hscanned⟩ := h.of_cons
    simpa [hl'] using ih hscanned

/-- The tokens in front of another one are as many as the lexemes that they have. -/
theorem Scanned.take_lexemes (h : Scanned i (front ++ ⟨l, j⟩ :: rest)) :
    ((front ++ ⟨l, j⟩ :: rest).filterMap lexeme).take front.length = front.filterMap lexeme := by
  rw [List.filterMap_append, ← h.length_filterMap, List.take_left]

theorem Scanned.getElem?_lexemes (h : Scanned i (front ++ ⟨l, j⟩ :: rest)) :
    ((front ++ ⟨l, j⟩ :: rest).filterMap lexeme)[front.length]? = l := by
  rw [List.filterMap_append, ← h.length_filterMap, List.getElem?_append_right (Nat.le_refl _),
    Nat.sub_self]
  cases l with
  | some l => rfl
  | none =>
    rw [h.lexeme_eq_none_iff.mp rfl]
    rfl

theorem Scanned.drop_lexemes (h : Scanned i (front ++ ⟨l, j⟩ :: rest)) :
    ((front ++ ⟨l, j⟩ :: rest).filterMap lexeme).drop (front.length + 1) =
      rest.filterMap lexeme := by
  rw [List.filterMap_append, ← h.length_filterMap, List.drop_length_add_append]
  cases l with
  | some l => rfl
  | none =>
    rw [h.lexeme_eq_none_iff.mp rfl]
    rfl

/-- Where the lexemes are divided the tokens are. -/
theorem Scanned.exists_split {ls ls' : List Lexeme} (h : Scanned i tokens)
    (hls : tokens.filterMap lexeme = ls ++ ls') : ∃ front l position rest,
      tokens = front ++ ⟨l, position⟩ :: rest ∧ front.filterMap lexeme = ls := by
  induction h generalizing ls with
  | @close _ stop =>
    obtain ⟨rfl, _⟩ := List.append_eq_nil_iff.mp hls.symm
    exact ⟨[], none, stop, [], rfl, rfl⟩
  | @cons _ position l tokens _ _ ih =>
    cases ls with
    | nil => exact ⟨[], some l, position, tokens, rfl, rfl⟩
    | cons l' ls =>
      obtain ⟨rfl, htail⟩ := List.cons.inj hls
      obtain ⟨front, l', position', rest, rfl, rfl⟩ := ih htail
      exact ⟨⟨some l, position⟩ :: front, l', position', rest, rfl, rfl⟩

/-- The text up to an offset. -/
def cut (text : String) (position : Nat) : String := String.ofList (text.toList.take position)

variable {text : String} {position : Nat}

theorem position_le (h : scan text = .ok (front ++ ⟨l, position⟩ :: rest)) :
    position ≤ text.length := by
  obtain ⟨front', hend⟩ := exists_end (scan_eq_scanFrom text ▸ h)
  rw [Nat.zero_add, String.length_toList] at hend
  have hlast := (Scanned.of_scan h).pairwise
  rw [hend, List.pairwise_append] at hlast
  have hmem : ⟨l, position⟩ ∈ front' ++ [⟨none, text.length⟩] := by simp [← hend]
  rcases List.mem_append.mp hmem with hmem | hmem
  · exact Nat.le_of_lt (hlast.2.2 _ hmem _ List.mem_cons_self)
  · obtain ⟨_, rfl⟩ := Token.mk.inj (List.mem_singleton.mp hmem)
    exact Nat.le_refl _

theorem cut_of_end (h : scan text = .ok (front ++ [⟨none, position⟩])) :
    cut text position = text := by
  obtain ⟨front', hend⟩ := exists_end (scan_eq_scanFrom text ▸ h)
  obtain ⟨_, hend⟩ := List.append_inj' hend rfl
  obtain ⟨_, hposition⟩ := Token.mk.inj (List.cons.inj hend).1
  rw [cut, hposition, Nat.zero_add, List.take_length, String.ofList_toList]

theorem renders_flatMap {ls : List Lexeme} (hplain : ∀ l ∈ ls, l.Plain) :
    Renders Lexeme.Plain (ls.flatMap (·.text.toList)) ls := by
  induction ls with
  | nil => exact .nil
  | cons l ls ih =>
    obtain ⟨hl, hls⟩ := List.forall_mem_cons.mp hplain
    exact .close hl (ih hls)

/-- A text that is cut where a token starts can be continued with any lexemes that do not run into
one another. -/
theorem exists_scan_cut {ls : List Lexeme}
    (h : scan text = .ok (front ++ ⟨l, position⟩ :: rest)) (hplain : ∀ l ∈ ls, l.Plain)
    (hls : ls.IsChain Lexeme.Apart) : ∃ more tokens,
      scan (cut text position ++ more) = .ok (front ++ tokens) ∧ tokens.filterMap lexeme = ls := by
  have hlength : (text.toList.take position).length = position := by
    rw [List.length_take, String.length_toList, Nat.min_eq_left (position_le h)]
  obtain ⟨tokens, hscan, htokens⟩ := scanFrom_of_renders (i := position + 1)
    (renders_flatMap hplain) (fun _ => id) hls
  refine ⟨String.ofList (' ' :: ls.flatMap (·.text.toList)), tokens, ?_, htokens⟩
  rw [scan_eq_scanFrom, ← List.take_append_drop position text.toList] at h
  rw [scan_eq_scanFrom, cut, ← String.ofList_append, String.toList_ofList]
  have hcut : scanFrom 0 (text.toList.take position ++ text.toList.drop position) =
      .ok (front ++ ⟨l, 0 + (text.toList.take position).length⟩ :: rest) := by
    rw [h, hlength, Nat.zero_add]
  exact scanFrom_cut hcut (by rw [hlength, Nat.zero_add, hscan])

end DiceLang.Token

namespace DiceLang

/-- A text that is not read has a stray character, or its tokens are not read. -/
theorem Roll.stray_or_ofTokens {limits : Limits} {text : String} {e : ParseError}
    (h : parse limits text = .error (.error e)) : (∃ position c, e = .strayCharacter position c) ∨
      ∃ tokens, Token.scan text = .ok tokens ∧ ofTokens limits tokens = .error (.error e) := by
  cases hscan : Token.scan text with
  | error e' =>
    unfold parse at h
    rw [hscan] at h
    obtain rfl : e' = e := ParseFailure.error.inj (Except.error.inj h)
    exact .inl (Token.exists_stray (Token.scan_eq_scanFrom text ▸ hscan))
  | ok tokens => exact .inr ⟨tokens, rfl, ofTokens_of_scan hscan ▸ h⟩

end DiceLang
