import DiceLang.Proofs.Cutting
import DiceLang.Proofs.HonestRoll
import DiceLang.Proofs.Tight
import DiceLang.Proofs.Widening

/-!
# What an error reports

Where no alternative fits, the error is at a token. The text up to there can be continued so that it
is read, and what is expected there could have come next, with the exceptions that the account of a
reading has (`Expectation.Leftover`).

* `Roll.Readable`: a text that is read if the limits are wide enough;
* `Roll.unexpected_viable`: the place of an error;
* `Roll.unexpected_canFollow`: what is expected there;
* `Roll.unexpected_found`: what is found there.
-/

namespace DiceLang

open Grammar

/-! ## Texts that can be read -/

/-- Some limits allow any lexemes at all. -/
theorem Lexeme.exists_fits (ls : List Lexeme) : ∃ maxDigits, ∀ l ∈ ls, l.Fits maxDigits := by
  induction ls with
  | nil => exact ⟨0, nofun⟩
  | cons l ls ih =>
    obtain ⟨maxDigits, hfits⟩ := ih
    have hl : ∃ k, l.Fits k := by
      cases l with
      | number digits => exact ⟨_, Nat.le_refl _⟩
      | _ => exact ⟨0, trivial⟩
    obtain ⟨k, hl⟩ := hl
    exact ⟨max k maxDigits, List.forall_mem_cons.mpr ⟨hl.mono (Nat.le_max_left ..),
      fun l hl => (hfits l hl).mono (Nat.le_max_right ..)⟩⟩

/-- Limits on the depth and on the digits of a number, and no other. -/
theorem Limits.exists_maxDepth_maxDigits (depth maxDigits : Nat) :
    ∃ limits : Limits, limits.maxDepth = depth ∧ maxDigits ≤ limits.maxDigits := by
  let limits : Limits := { integerLimit := 10 ^ maxDigits, maxDepth := depth }
  refine ⟨limits, rfl, Nat.le_of_not_lt fun hlt => ?_⟩
  have := (Nat.length_repr_le_iff (Nat.zero_lt_of_lt hlt)).mp (Nat.le_of_lt hlt)
  exact absurd this (Nat.lt_irrefl _)

namespace Roll

variable {limits : Limits} {text : String} {position : Nat} {wanted : List Expectation}
  {found l : Option Lexeme} {before rest tokens : List Token} {ls after : List Lexeme}
  {e : Expectation}

/-- If the limits are wide enough, the text is read as a roll. -/
def Readable (text : String) : Prop :=
  ∃ (limits : Limits) (parsed : Roll), ∀ limits', limits.WidensTo limits' →
    parse limits' text = .ok parsed

theorem readable_iff (hscan : Token.scan text = .ok tokens) :
    Readable text ↔ (∀ l ∈ tokens.filterMap Token.lexeme, l.Converts) ∧
      SpellsRoll (tokens.filterMap Token.lexeme) := by
  constructor
  · rintro ⟨limits, ⟨kind, e⟩, hparse⟩
    have hwiden : limits.WidensTo limits := by constructor <;> exact Nat.le_refl _
    obtain ⟨⟨tokens', hscan', _, a, ha, hder⟩, hconverts⟩ :=
      exists_parse_eq_ok_iff.mp ⟨kind, hparse limits hwiden⟩
    obtain rfl := Except.ok.inj (hscan.symm.trans hscan')
    exact ⟨hconverts _ hscan, _, e, a, ha, hder⟩
  · rintro ⟨hconverts, depth, e, a, ha, hder⟩
    obtain ⟨maxDigits, hfits⟩ := Lexeme.exists_fits (tokens.filterMap Token.lexeme)
    obtain ⟨limits, rfl, hdigits⟩ := Limits.exists_maxDepth_maxDigits depth maxDigits
    have hspells : Spells limits text e :=
      ⟨tokens, hscan, fun l hl => (hfits l hl).mono hdigits, a, ha, hder⟩
    obtain ⟨kind, hparse⟩ :=
      exists_parse_eq_ok_iff.mpr ⟨hspells, (convertible_iff hscan).mpr hconverts⟩
    exact ⟨limits, _, fun limits' hlimits => parse_widens hlimits hparse⟩

/-- A text that is cut where a token starts is continued as its lexemes may go on. -/
theorem exists_readable (hscan : Token.scan text = .ok (before ++ ⟨l, position⟩ :: rest))
    (hbefore : ∀ l ∈ before.filterMap Token.lexeme, l.Converts)
    (hafter : ∀ l ∈ after, l.Addable)
    (hspells : SpellsRoll (before.filterMap Token.lexeme ++ after)) :
    ∃ more tokens, Token.scan (Token.cut text position ++ more) = .ok (before ++ tokens) ∧
      tokens.filterMap Token.lexeme = after ∧ Readable (Token.cut text position ++ more) := by
  have hapart : after.IsChain Lexeme.Apart := by
    obtain ⟨_, _, _, _, hder⟩ := hspells
    exact hder.tight.apart.right_of_append
  obtain ⟨more, tokens, hscan', rfl⟩ :=
    Token.exists_scan_cut hscan (fun l hl => (hafter l hl).plain) hapart
  refine ⟨more, tokens, hscan', rfl, (readable_iff hscan').mpr ?_⟩
  rw [List.filterMap_append, List.forall_mem_append]
  exact ⟨⟨hbefore, fun l hl => (hafter l hl).converts⟩, hspells⟩

/-- An error at which no alternative fits is at a token, behind numbers that can all be converted,
and its account is honest. -/
theorem exists_honest
    (h : parse limits text = .error (.error (.unexpected position wanted found))) :
    ∃ before after, Token.scan text = .ok (before ++ ⟨found, position⟩ :: after) ∧
      (∀ l ∈ before.filterMap Token.lexeme, l.Converts) ∧
      Frontier.Honest ((before ++ ⟨found, position⟩ :: after).filterMap Token.lexeme)
        ⟨before.length, wanted⟩ := by
  obtain ⟨_, _, hstray⟩ | ⟨tokens, hscan, h⟩ := stray_or_ofTokens h
  · cases hstray
  · have hin := phrase_staysIn limits ⟨0, tokens.filterMap Token.lexeme⟩ (Nat.zero_add _)
    have hhonest : (phrase limits ⟨0, tokens.filterMap Token.lexeme⟩).Honest _ 0 :=
      phrase_honest limits
    have hbehind := phrase_behind limits (tokens.filterMap Token.lexeme)
    unfold ofTokens at h
    generalize phrase limits ⟨0, tokens.filterMap Token.lexeme⟩ = reply at h hin hhonest hbehind
    cases reply with
    | matched roll rest missed => cases h
    | refused limit place => cases limit <;> cases h
    | unmatched stopped missed =>
      have hlt : missed.index < tokens.length := by
        rw [(Token.Scanned.of_scan hscan).length_eq]
        exact Nat.lt_succ_of_le hin.2
      obtain ⟨rfl, rfl, rfl⟩ :=
        ParseError.unexpected.inj (ParseFailure.error.inj (Except.error.inj h))
      have htoken : tokenAt tokens missed.index = tokens[missed.index] := by simp [tokenAt, hlt]
      have hsplit : tokens.take missed.index ++ ⟨(tokenAt tokens missed.index).lexeme,
          (tokenAt tokens missed.index).position⟩ :: tokens.drop (missed.index + 1) = tokens := by
        rw [htoken, List.getElem_cons_drop, List.take_append_drop]
      have hlength : (tokens.take missed.index).length = missed.index := by
        rw [List.length_take, Nat.min_eq_left (Nat.le_of_lt hlt)]
      rw [← hsplit] at hscan
      have htake := (Token.Scanned.of_scan hscan).take_lexemes
      rw [hsplit, hlength] at htake
      refine ⟨tokens.take missed.index, tokens.drop (missed.index + 1), hscan, ?_, ?_⟩
      · rw [← htake]
        exact fun l hl => (hbehind.2 l hl).converts
      · rw [hsplit, hlength]
        exact hhonest.1

/-- What is looked for at the place of an error is due after the tokens in front of it. -/
theorem exists_due (h : parse limits text = .error (.error (.unexpected position wanted found))) :
    ∃ before after, Token.scan text = .ok (before ++ ⟨found, position⟩ :: after) ∧
      (∀ l ∈ before.filterMap Token.lexeme, l.Converts) ∧
      (∃ e ∈ wanted, e.Follows (before.filterMap Token.lexeme)) ∧
      ∀ e ∈ wanted, e.Follows (before.filterMap Token.lexeme) ∧
          (e.admits found = true → e = .word ModifierWord.keepWhere.text ∧
            startsWithComparison (after.filterMap Token.lexeme) = false) ∨
        e.Leftover Expectation.Follows (before.filterMap Token.lexeme) := by
  obtain ⟨before, after, hscan, hconverts, hfollows, hdue⟩ := exists_honest h
  have hscanned := Token.Scanned.of_scan hscan
  simp only [hscanned.take_lexemes] at hfollows
  refine ⟨before, after, hscan, hconverts, hfollows, fun e he => ?_⟩
  cases hdue e he with
  | missing hfollows habsent =>
    simp only [hscanned.take_lexemes] at hfollows
    simp only [hscanned.getElem?_lexemes] at habsent
    exact .inl ⟨hfollows, fun hadmits => by simp [habsent] at hadmits⟩
  | bareKeep hkeep hfollows hbare =>
    simp only [hscanned.take_lexemes] at hfollows
    simp only [hscanned.drop_lexemes] at hbare
    exact .inl ⟨hfollows, fun _ => ⟨hkeep, hbare⟩⟩
  | leftover hleftover =>
    simp only [hscanned.take_lexemes] at hleftover
    exact .inr hleftover

/-! ## The place of an error -/

/-- An error at which no alternative fits is at a token, which is found there; at the last token
nothing is found. The tokens in front of it begin a text that can be read: the text may be cut
there and continued, and if nothing is found there it may be continued as it stands. -/
theorem unexpected_viable
    (h : parse limits text = .error (.error (.unexpected position wanted found))) :
    ∃ before after, Token.scan text = .ok (before ++ ⟨found, position⟩ :: after) ∧
      (found = none ↔ after = []) ∧
      (∃ more tokens, Token.scan (Token.cut text position ++ more) = .ok (before ++ tokens) ∧
        Readable (Token.cut text position ++ more)) ∧
      (found = none → ∃ more, Readable (text ++ more)) := by
  obtain ⟨before, after, hscan, hconverts, ⟨e, _, hfollows⟩, _⟩ := exists_due h
  have hend := (Token.Scanned.of_scan hscan).lexeme_eq_none_iff
  obtain ⟨ls, _, hadd, hspells⟩ := hfollows
  obtain ⟨more, tokens, hscan', _, hreadable⟩ := exists_readable hscan hconverts hadd hspells
  refine ⟨before, after, hscan, hend, ⟨more, tokens, hscan', hreadable⟩, fun hfound => ⟨more, ?_⟩⟩
  rw [hend.mp hfound, hfound] at hscan
  rwa [Token.cut_of_end hscan] at hreadable

/-- A parenthesis that is left open can be closed. -/
theorem unexpected_viable_openParen : ∃ wanted,
    parse {} "(1" = .error (.error (.unexpected 2 wanted none)) ∧
      ∃ more, Readable ("(1" ++ more) := by
  have hparse : ∃ wanted, parse {} "(1" = .error (.error (.unexpected 2 wanted none)) := ⟨_, rfl⟩
  obtain ⟨wanted, hparse⟩ := hparse
  obtain ⟨_, _, _, _, _, hend⟩ := unexpected_viable hparse
  exact ⟨wanted, hparse, hend rfl⟩

end Roll

/-! ## Expectations and their texts -/

/-- Lexemes in ASCII are told apart by their texts. -/
theorem Lexeme.eq_of_text_eq {l l' : Lexeme} (hl : l.Plain) (hl' : l'.Plain)
    (h : l.text = l'.text) : l = l' := by
  obtain ⟨tokens, hscan, htokens⟩ :=
    Token.scan_of_renders (.single hl) (fun _ => id) (.singleton l)
  obtain ⟨tokens', hscan', htokens'⟩ :=
    Token.scan_of_renders (.single hl') (fun _ => id) (.singleton l')
  rw [h] at hscan
  obtain rfl := Except.ok.inj (hscan.symm.trans hscan')
  simpa using htokens.symm.trans htokens'

namespace Expectation

variable {before : List Lexeme} {e e' : Expectation}

/-- The lexeme that is expected, if it is a single one. -/
def lexeme? : Expectation → Option Lexeme
  | symbol s => some (.symbol s)
  | word w => some (.word w)
  | _ => none

/-- No word that is expected could be taken for anything else. -/
def Plain (e : Expectation) : Prop := ∀ l ∈ e.lexeme?, l.Plain

theorem text_of_lexeme? {l : Lexeme} (h : e.lexeme? = some l) :
    e.text = "\"" ++ l.text ++ "\"" := by
  cases e <;> cases h <;> rfl

theorem of_lexeme?_eq_none (h : e.lexeme? = none) :
    e = .number ∨ e = .functionName ∨ e = .endOfInput := by
  cases e <;> simp [lexeme?] at h ⊢

/-- What is no single lexeme is not told in quotes. -/
theorem head?_text_of_lexeme? (h : e.lexeme? = none) : e.text.toList.head? ≠ some '"' := by
  rcases of_lexeme?_eq_none h with rfl | rfl | rfl <;> decide

/-- Expectations are told apart by their texts. -/
theorem eq_of_text_eq (he : e.Plain) (he' : e'.Plain) (h : e.text = e'.text) : e = e' := by
  cases hl : e.lexeme? with
  | some l =>
    cases hl' : e'.lexeme? with
    | some l' =>
      rw [text_of_lexeme? hl, text_of_lexeme? hl'] at h
      obtain rfl : l = l' := Lexeme.eq_of_text_eq (he l hl) (he' l' hl') (by simpa using h)
      cases e <;> cases hl <;> cases e' <;> cases hl' <;> rfl
    | none =>
      refine absurd ?_ (head?_text_of_lexeme? hl')
      rw [← h, text_of_lexeme? hl]
      simp
  | none =>
    cases hl' : e'.lexeme? with
    | some l' =>
      refine absurd ?_ (head?_text_of_lexeme? hl)
      rw [h, text_of_lexeme? hl']
      simp
    | none =>
      rcases of_lexeme?_eq_none hl with rfl | rfl | rfl <;>
        rcases of_lexeme?_eq_none hl' with rfl | rfl | rfl <;>
          first | rfl | exact absurd h (by decide)

theorem plain_of_admits {next : Option Lexeme} (h : e.admits next = true)
    (hnext : ∀ w, next = some (.word w) → (Lexeme.word w).Plain) : e.Plain := by
  rintro l hl
  cases e with
  | symbol s =>
    cases hl
    trivial
  | word w =>
    cases hl
    match next, h with
    | some (.word v), h =>
      obtain rfl := beq_iff_eq.mp h
      exact hnext w rfl
  | _ => cases hl

theorem Follows.plain (h : e.Follows before) : e.Plain := by
  obtain ⟨after, hadmits, hadd, _⟩ := h
  exact plain_of_admits hadmits fun w hw => (hadd _ (List.mem_of_mem_head? hw)).plain

theorem Leftover.plain {follows : List Lexeme → Expectation → Prop}
    (h : e.Leftover follows before) : e.Plain := by
  rintro l hl
  cases h with
  | die =>
    cases hl
    trivial
  | condition =>
    cases hl
    trivial
  | dice _ _ hstart =>
    rcases mem_modifierStarts.mp hstart with ⟨selection, rfl⟩ | rfl | rfl | rfl
    · cases hl
      exact (addable_selection selection).plain
    · cases hl
      exact (addable_filterWord true).plain
    · cases hl
      exact addable_rerollWord.plain
    · cases hl
      trivial

end Expectation

namespace ParseError

theorem mem_eraseRepsLoop {s a : String} {texts seen : List String} :
    s ∈ List.eraseRepsBy.loop (· == ·) a texts seen ↔ s ∈ a :: texts ∨ s ∈ seen := by
  induction texts generalizing a seen with
  | nil => simp [List.eraseRepsBy.loop, or_comm]
  | cons b texts ih =>
    unfold List.eraseRepsBy.loop
    split
    · rename_i hab
      obtain rfl := beq_iff_eq.mp hab
      simp [ih]
    · simp only [ih, List.mem_cons]
      tauto

theorem mem_eraseReps {s : String} {texts : List String} : s ∈ texts.eraseReps ↔ s ∈ texts := by
  cases texts with
  | nil => rfl
  | cons a texts => exact mem_eraseRepsLoop.trans (or_iff_left List.not_mem_nil)

theorem mem_sortedOnce {s : String} {texts : List String} : s ∈ sortedOnce texts ↔ s ∈ texts := by
  rw [sortedOnce, mem_eraseReps, List.mem_mergeSort]

theorem mem_expected {s : String} {position : Nat} {wanted : List Expectation}
    {found : Option Lexeme} :
    s ∈ (unexpected position wanted found).expected ↔ ∃ e ∈ wanted, e.text = s := by
  rw [expected, mem_sortedOnce, List.mem_map]

end ParseError

/-! ## What is expected -/

/-- Among the texts that can be read there is one whose lexemes begin with `before` and go on as is
expected. -/
def Expectation.CanFollow (before : List Lexeme) (e : Expectation) : Prop :=
  ∃ text tokens after, Token.scan text = .ok tokens ∧
    tokens.filterMap Token.lexeme = before ++ after ∧ e.admits after.head? = true ∧
    Roll.Readable text

/-- What may follow the first lexemes of a text can. -/
theorem Expectation.Follows.canFollow {text : String} {tokens : List Token}
    {front inside : List Lexeme} {e : Expectation} (hscan : Token.scan text = .ok tokens)
    (hlexemes : tokens.filterMap Token.lexeme = front ++ inside)
    (hfront : ∀ l ∈ front, l.Converts) (h : e.Follows front) : e.CanFollow front := by
  obtain ⟨before, l, position, rest, rfl, rfl⟩ :=
    (Token.Scanned.of_scan hscan).exists_split hlexemes
  obtain ⟨after, hadmits, hadd, hspells⟩ := h
  obtain ⟨more, tokens, hscan', rfl, hreadable⟩ := Roll.exists_readable hscan hfront hadd hspells
  exact ⟨_, _, _, hscan', List.filterMap_append, hadmits, hreadable⟩

theorem Expectation.Leftover.canFollow {text : String} {tokens : List Token}
    {before rest : List Lexeme} {e : Expectation} (hscan : Token.scan text = .ok tokens)
    (hlexemes : tokens.filterMap Token.lexeme = before ++ rest)
    (hbefore : ∀ l ∈ before, l.Converts) (h : e.Leftover Expectation.Follows before) :
    e.Leftover Expectation.CanFollow before :=
  h.imp fun front inside _ hsplit hfollows =>
    hfollows.canFollow hscan (hlexemes.trans (by rw [hsplit, List.append_assoc]))
      fun l hl => hbefore l (hsplit ▸ List.mem_append_left _ hl)

namespace Roll

variable {limits : Limits} {text : String} {position : Nat} {wanted : List Expectation}
  {found : Option Lexeme}

/-- Where no alternative fits something that is expected can come next, and whatever is expected
can, unless it is left over from an earlier place. -/
theorem unexpected_canFollow
    (h : parse limits text = .error (.error (.unexpected position wanted found))) :
    ∃ before after, Token.scan text = .ok (before ++ ⟨found, position⟩ :: after) ∧
      (∃ e : Expectation, e.text ∈ (ParseError.unexpected position wanted found).expected ∧
        e.CanFollow (before.filterMap Token.lexeme)) ∧
      ∀ s ∈ (ParseError.unexpected position wanted found).expected, ∃ e : Expectation, e.text = s ∧
        (e.CanFollow (before.filterMap Token.lexeme) ∨
          e.Leftover Expectation.CanFollow (before.filterMap Token.lexeme)) := by
  obtain ⟨before, after, hscan, hconverts, ⟨e, he, hfollows⟩, hdue⟩ := exists_due h
  refine ⟨before, after, hscan, ⟨e, ParseError.mem_expected.mpr ⟨e, he, rfl⟩,
    hfollows.canFollow hscan List.filterMap_append hconverts⟩, fun s hs => ?_⟩
  obtain ⟨e, he, rfl⟩ := ParseError.mem_expected.mp hs
  exact ⟨e, rfl, (hdue e he).imp (fun h => h.1.canFollow hscan List.filterMap_append hconverts)
    fun h => h.canFollow hscan List.filterMap_append hconverts⟩

/-- Behind a roll that is complete there is something that could have come. -/
theorem unexpected_canFollow_leftoverInput : ∃ wanted before after,
    parse {} "1d20 x" = .error (.error (.unexpected 5 wanted (some (.word "x")))) ∧
      Token.scan "1d20 x" = .ok (before ++ ⟨some (.word "x"), 5⟩ :: after) ∧
      ∃ e : Expectation, e.text ∈ (ParseError.unexpected 5 wanted (some (.word "x"))).expected ∧
        e.CanFollow (before.filterMap Token.lexeme) := by
  have hparse : ∃ wanted,
      parse {} "1d20 x" = .error (.error (.unexpected 5 wanted (some (.word "x")))) := ⟨_, rfl⟩
  obtain ⟨wanted, hparse⟩ := hparse
  obtain ⟨before, after, hscan, hsome, _⟩ := unexpected_canFollow hparse
  exact ⟨wanted, before, after, hparse, hscan, hsome⟩

end Roll

/-- After a `d` at the start of a text come its sides. -/
theorem Grammar.SpellsRoll.after_dieWord {ls : List Lexeme}
    (h : SpellsRoll (.word dieWord :: ls)) :
    ∃ l tl, ls = l :: tl ∧ (l.startsCount = true ∨ l = .symbol .openBrace) := by
  obtain ⟨depth, e, a, ha, hder⟩ := h
  have hprimary : ∀ {ls₁ ls₂ e}, Derives depth 0 ls₁ (.primary e) →
      .word dieWord :: ls = ls₁ ++ ls₂ →
      ∃ l tl, ls = l :: tl ∧ (l.startsCount = true ∨ l = .symbol .openBrace) := fun h hls => by
    cases h.primary_shape with
    | count he => rcases he.count_head with ⟨_, _, rfl⟩ | ⟨_, rfl⟩ <;> simp at hls
    | dice hcount hd =>
      cases hcount with
      | none =>
        obtain ⟨l, tl, rfl, hl⟩ := hd.first rfl
        refine ⟨l, _, (List.cons.inj hls).2, ?_⟩
        simpa [Part.startsWith] using hl
      | some he => rcases he.count_head with ⟨_, _, rfl⟩ | ⟨_, rfl⟩ <;> simp at hls
    | call he =>
      obtain ⟨name, tl, rfl, hname⟩ := he.call_head
      exact absurd (Lexeme.word.inj (List.cons.inj hls).1).symm (ne_dieWord hname)
  have hfirst : ∀ {part : Part}, Derives depth 0 (.word dieWord :: ls) part →
      part.isOptional = false → part.startsWith (.word dieWord) = true := fun h hpart => by
    obtain ⟨l, tl, hls, hl⟩ := h.first hpart
    rwa [(List.cons.inj hls).1]
  simp only [alternatives, List.mem_cons, List.not_mem_nil, or_false] at ha
  rcases ha with rfl | rfl | rfl | rfl | rfl
  · cases hfirst hder rfl
  · cases hfirst hder rfl
  · exact hprimary (.called hder) (List.append_nil _).symm
  · generalize hls : .word dieWord :: ls = ls' at hder
    cases hder with
    | modifiedDice hder => exact hprimary hder (hls.trans (List.append_nil _).symm)
  · rcases hder.expr_start with ⟨tl, hls⟩ | ⟨ls₁, ls₂, e₁, hls, hder, _⟩
    · cases hls
    · exact hprimary hder hls

/-- What is left over may be wrong: dice cannot be kept before they have sides. -/
theorem Roll.unexpected_not_canFollow : ∃ wanted,
    parse {} "d" = .error (.error (.unexpected 1 wanted none)) ∧
      Token.scan "d" = .ok [⟨some (.word "d"), 0⟩, ⟨none, 1⟩] ∧
      "\"kh\"" ∈ (ParseError.unexpected 1 wanted none).expected ∧
      ∀ e : Expectation, e.text = "\"kh\"" → ¬ e.CanFollow [.word "d"] := by
  refine ⟨_, rfl, rfl, ParseError.mem_expected.mpr ⟨.word "kh", by decide, rfl⟩, ?_⟩
  rintro e htext ⟨text, tokens, after, hscan, hlexemes, hadmits, hreadable⟩
  have hspells := ((readable_iff hscan).mp hreadable).2
  rw [hlexemes] at hspells
  obtain ⟨l, tl, rfl, hl⟩ := hspells.after_dieWord
  have hplain : e.Plain := Expectation.plain_of_admits hadmits fun w hw => by
    obtain rfl := Option.some.inj hw
    simp [Lexeme.startsCount] at hl
  have hword : (Expectation.word "kh").Plain := by
    rintro _ ⟨⟩
    exact (addable_selection .keepHigh).plain
  obtain rfl := Expectation.eq_of_text_eq hplain hword htext
  rcases hl with hl | rfl
  · rcases Lexeme.startsCount_iff.mp hl with ⟨digits, rfl⟩ | rfl <;> cases hadmits
  · cases hadmits

/-! ## What is found -/

namespace Roll

variable {limits : Limits} {text : String} {position : Nat} {wanted : List Expectation}
  {found : Option Lexeme}

/-- Where no alternative fits what is found is not what is expected, unless this is left over from
an earlier place, or it is a `k` that no comparison follows. -/
theorem unexpected_found
    (h : parse limits text = .error (.error (.unexpected position wanted found))) :
    ∃ before after, Token.scan text = .ok (before ++ ⟨found, position⟩ :: after) ∧
      ∀ e : Expectation, e.admits found = true →
        e.text ∈ (ParseError.unexpected position wanted found).expected →
        e = .word ModifierWord.keepWhere.text ∧
            startsWithComparison (after.filterMap Token.lexeme) = false ∨
          e.Leftover Expectation.CanFollow (before.filterMap Token.lexeme) := by
  obtain ⟨before, after, hscan, hconverts, _, hdue⟩ := exists_due h
  refine ⟨before, after, hscan, fun e hadmits htext => ?_⟩
  obtain ⟨e', he', htext⟩ := ParseError.mem_expected.mp htext
  have hplain : e.Plain := Expectation.plain_of_admits hadmits fun w hw =>
    Token.plain_of_scan hscan (by simp [hw])
  have hplain' : e'.Plain := (hdue e' he').elim (fun h => h.1.plain) fun h => h.plain
  obtain rfl := Expectation.eq_of_text_eq hplain' hplain htext
  exact (hdue e' he').imp (fun h => h.2 hadmits) fun h =>
    h.canFollow hscan List.filterMap_append hconverts

/-- A `k` in want of a comparison is expected, as one may come next, and it is found. -/
theorem unexpected_found_keep : ∃ wanted before after,
    parse {} "2d6k3" = .error (.error (.unexpected 3 wanted (some (.word "k")))) ∧
      Token.scan "2d6k3" = .ok (before ++ ⟨some (.word "k"), 3⟩ :: after) ∧
      (Expectation.word "k").text ∈
        (ParseError.unexpected 3 wanted (some (.word "k"))).expected ∧
      (startsWithComparison (after.filterMap Token.lexeme) = false ∨
        (Expectation.word "k").Leftover Expectation.CanFollow
          (before.filterMap Token.lexeme)) := by
  have hparse : ∃ wanted,
      parse {} "2d6k3" = .error (.error (.unexpected 3 wanted (some (.word "k")))) ∧
        .word "k" ∈ wanted := ⟨_, rfl, by decide⟩
  obtain ⟨wanted, hparse, hkeep⟩ := hparse
  have htext : (Expectation.word "k").text ∈
      (ParseError.unexpected 3 wanted (some (.word "k"))).expected :=
    ParseError.mem_expected.mpr ⟨_, hkeep, rfl⟩
  obtain ⟨before, after, hscan, hfound⟩ := unexpected_found hparse
  exact ⟨wanted, before, after, hparse, hscan, htext,
    (hfound _ (by decide) htext).imp_left And.right⟩

/-- What is left over may be found: a `!` is expected where the sides of a die are missing. -/
theorem unexpected_found_bang : ∃ wanted,
    parse {} "d!" = .error (.error (.unexpected 1 wanted (some (.symbol .bang)))) ∧
      (Expectation.symbol .bang).admits (some (.symbol .bang)) = true ∧
      (Expectation.symbol .bang).text ∈
        (ParseError.unexpected 1 wanted (some (.symbol .bang))).expected :=
  ⟨_, rfl, rfl, ParseError.mem_expected.mpr ⟨.symbol .bang, by decide, rfl⟩⟩

end Roll

end DiceLang
