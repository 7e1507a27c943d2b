import DiceLang.Proofs.Numeral
import DiceLang.Proofs.ReadingSound
import DiceLang.Proofs.Rendering
import DiceLang.Written

/-!
# Derived trees are written as they are derived

A tree that is derived from a text is written, in canonical notation, as lexemes that it is derived
from too, at the same level and with no more digits to a number.

* `Derives.gapless`: a derived tree has no gaps;
* `Writable.operands`, `Writable.prefixed`, .. : what is known of the lexemes of a phrase is known
  of those of its parts;
* `Derives.writable`: the canonical text and its lexemes, by induction on the derivation.
-/

namespace DiceLang

/-- What is known of a lexeme that is read: it may be passed over, and a word is in small
letters. -/
structure Lexeme.Scanned (maxDigits : Nat) (l : Lexeme) : Prop where
  passable : l.Passable maxDigits
  plain : l.isWord = true → l.Plain

/-- What is asked of a lexeme that is written. -/
structure Lexeme.Canonical (maxDigits : Nat) (l : Lexeme) : Prop where
  passable : l.Passable maxDigits
  plain : l.Plain

theorem Lexeme.scanned_symbol {maxDigits : Nat} (s : Symbol) :
    (Lexeme.symbol s).Scanned maxDigits := ⟨passable_symbol s, nofun⟩

theorem Lexeme.canonical_symbol {maxDigits : Nat} (s : Symbol) :
    (Lexeme.symbol s).Canonical maxDigits := ⟨passable_symbol s, trivial⟩

/-- The lexeme is written as it is read. -/
def Lexeme.Verbatim : Lexeme → Prop
  | .number _ => False
  | _ => True

theorem Lexeme.Scanned.canonical {maxDigits : Nat} {l : Lexeme} (h : l.Scanned maxDigits)
    (hl : l.Verbatim) : l.Canonical maxDigits where
  passable := h.passable
  plain := by
    cases l with
    | symbol s => trivial
    | word letters => exact h.plain rfl
    | number digits => cases hl

theorem Lexeme.Scanned.numeral {maxDigits : Nat} {digits : String}
    (h : (Lexeme.number digits).Scanned maxDigits) :
    (Lexeme.number (Text.numeral digits).repr).Canonical maxDigits where
  passable.fits := Nat.le_trans (Text.length_repr_numeral_le digits) h.passable.fits
  passable.converts := Nat.le_trans (Text.length_repr_numeral_le_max digits)
    (Nat.max_le.mpr ⟨by decide, h.passable.converts⟩)
  plain := by
    rw [Lexeme.Plain, Nat.toList_repr]
    exact ⟨Nat.toDigits_ne_nil, fun c => Nat.isDigit_of_mem_toDigits (by omega) (by omega)⟩

/-- Further operands come after a space, if there are any. -/
def further (t : List Char) (ls : List Lexeme) : List Char := if ls = [] then [] else ' ' :: t

theorem Renders.append_further {ok : Lexeme → Prop} {t₁ t₂ : List Char} {ls₁ ls₂ : List Lexeme}
    (h₁ : Renders ok t₁ ls₁) (h₂ : Renders ok t₂ ls₂) (hne : ls₁ ≠ []) :
    Renders ok (t₁ ++ further t₂ ls₂) (ls₁ ++ ls₂) := by
  unfold further
  split
  · rename_i hnil
    subst hnil
    simpa using h₁
  · exact h₁.append_spaced h₂ hne ‹_›

namespace Grammar

variable {depth maxDigits n : Nat} {ls : List Lexeme} {part : Part}

/-! ## Gaps -/

/-- The phrase's tree has no gaps, if what stands to its left has none. -/
def Part.Gapless : Part → Prop
  | .sumRest left e | .productRest left e => left.gap? = none → e.gap? = none
  | .condition c => c.gap? = none
  | .die d => d.gap? = none
  | .modifier m => m.gap? = none
  | .modifiers ms => modifiersGap? ms = none
  | .items _ es => exprsGap? es = none
  | .expr e | .product e | .negation e | .power e | .primary e | .count e | .item _ e | .list e
  | .call e | .repetition e | .modifiedDice e => e.gap? = none

theorem Derives.gapless (h : Derives depth n ls part) : part.Gapless := by
  induction h <;>
    simp_all [Part.Gapless, Expr.gap?, exprsGap?, countGap?, Die.gap?, Condition.gap?,
      Modifier.gap?, modifiersGap?]

/-! ## Canonical lexemes -/

/-- The phrase is written as the characters `t`, which make the lexemes `ls`. -/
def Part.Written (t : List Char) (ls : List Lexeme) : Part → Prop
  | .sumRest left e | .productRest left e => e.text.toList = left.text.toList ++ further t ls
  | .condition c => c.texts.text.toList = t
  | .die d => d.texts.text.toList = dieWord.toList ++ t
  | .modifier m => m.texts.text.toList = t
  | .modifiers ms => (String.join ((modifierTexts ms).map Modifier.text)).toList = t
  | .items _ es => (DiceLang.Written.commas (exprTexts es)).toList = t
  | .expr e | .product e | .negation e | .power e | .primary e | .count e | .item _ e | .list e
  | .call e | .repetition e | .modifiedDice e => e.text.toList = t

/-- The phrase is written as lexemes that spell it. -/
structure WrittenAs (depth maxDigits n : Nat) (part : Part) (t : List Char) (ls : List Lexeme) :
    Prop where
  derives : Derives depth n ls part
  renders : Renders (Lexeme.Canonical maxDigits) t ls
  written : part.Written t ls

/-- If the lexemes `ls` are as they are read, what is written of the phrase spells it. -/
def Writable (depth maxDigits n : Nat) (ls : List Lexeme) (part : Part) : Prop :=
  (∀ l ∈ ls, l.Scanned maxDigits) → ∃ t ls', WrittenAs depth maxDigits n part t ls'

namespace Writable

variable {m k : Nat} {part₁ part₂ : Part} {ls₁ ls₂ : List Lexeme} {l : Lexeme} {s : Symbol}

theorem lift (h : Writable depth maxDigits m ls part₁)
    (hd : ∀ {ls}, Derives depth m ls part₁ → Derives depth n ls part)
    (hw : ∀ {t ls}, part₁.Written t ls → part.Written t ls) :
    Writable depth maxDigits n ls part := fun hls => by
  obtain ⟨t, ls', h⟩ := h hls
  exact ⟨t, ls', hd h.derives, h.renders, hw h.written⟩

theorem prefixed (hl : l.Verbatim) (h : Writable depth maxDigits m ls₁ part₁)
    (hd : ∀ {ls}, Derives depth m ls part₁ → Derives depth n (l :: ls) part)
    (hw : ∀ {t ls}, part₁.Written t ls → part.Written (l.text.toList ++ t) (l :: ls)) :
    Writable depth maxDigits n (l :: ls₁) part := fun hls => by
  obtain ⟨hscanned, hls₁⟩ := List.forall_mem_cons.mp hls
  obtain ⟨t, ls', h⟩ := h hls₁
  exact ⟨_, _, hd h.derives, .close (hscanned.canonical hl) h.renders, hw h.written⟩

/-- What starts with two lexemes, the second a symbol. -/
theorem prefixed₂ (hl : l.Verbatim) (h : Writable depth maxDigits m ls₁ part₁)
    (hd : ∀ {ls}, Derives depth m ls part₁ → Derives depth n (l :: .symbol s :: ls) part)
    (hw : ∀ {t ls}, part₁.Written t ls →
      part.Written (l.text.toList ++ (s.text.toList ++ t)) (l :: .symbol s :: ls)) :
    Writable depth maxDigits n (l :: .symbol s :: ls₁) part := fun hls => by
  obtain ⟨hscanned, _, hls₁⟩ := by simpa only [List.forall_mem_cons] using hls
  obtain ⟨t, ls', h⟩ := h hls₁
  exact ⟨_, _, hd h.derives,
    .close (hscanned.canonical hl) (.close (Lexeme.canonical_symbol s) h.renders), hw h.written⟩

theorem enclosed (hl : l.Verbatim) (h : Writable depth maxDigits m ls₁ part₁)
    (hd : ∀ {ls}, Derives depth m ls part₁ → Derives depth n (l :: (ls ++ [.symbol s])) part)
    (hw : ∀ {t ls}, part₁.Written t ls →
      part.Written (l.text.toList ++ (t ++ s.text.toList)) (l :: (ls ++ [.symbol s]))) :
    Writable depth maxDigits n (l :: (ls₁ ++ [.symbol s])) part := fun hls => by
  obtain ⟨hscanned, hls₁, _⟩ := by
    simpa only [List.forall_mem_cons, List.forall_mem_append] using hls
  obtain ⟨t, ls', h⟩ := h hls₁
  exact ⟨_, _, hd h.derives, .close (hscanned.canonical hl)
    (h.renders.append (.single (Lexeme.canonical_symbol s))), hw h.written⟩

theorem joined (h₁ : Writable depth maxDigits m ls₁ part₁)
    (h₂ : Writable depth maxDigits k ls₂ part₂)
    (hd : ∀ {ls₁ ls₂}, Derives depth m ls₁ part₁ → Derives depth k ls₂ part₂ →
      Derives depth n (ls₁ ++ .symbol s :: ls₂) part)
    (hw : ∀ {t₁ t₂ ls₁ ls₂}, part₁.Written t₁ ls₁ → part₂.Written t₂ ls₂ →
      part.Written (t₁ ++ (s.text.toList ++ t₂)) (ls₁ ++ .symbol s :: ls₂)) :
    Writable depth maxDigits n (ls₁ ++ .symbol s :: ls₂) part := fun hls => by
  obtain ⟨hls₁, _, hls₂⟩ := by
    simpa only [List.forall_mem_cons, List.forall_mem_append] using hls
  obtain ⟨t₁, ls₁', h₁⟩ := h₁ hls₁
  obtain ⟨t₂, ls₂', h₂⟩ := h₂ hls₂
  exact ⟨_, _, hd h₁.derives h₂.derives,
    h₁.renders.append (.close (Lexeme.canonical_symbol s) h₂.renders), hw h₁.written h₂.written⟩

/-- What starts with a lexeme and goes on with two parts. -/
theorem headed (hl : l.Verbatim) (h₁ : Writable depth maxDigits m ls₁ part₁)
    (h₂ : Writable depth maxDigits k ls₂ part₂)
    (hd : ∀ {ls₁ ls₂}, Derives depth m ls₁ part₁ → Derives depth k ls₂ part₂ →
      Derives depth n (l :: (ls₁ ++ ls₂)) part)
    (hw : ∀ {t₁ t₂ ls₁ ls₂}, part₁.Written t₁ ls₁ → part₂.Written t₂ ls₂ →
      part.Written (l.text.toList ++ (t₁ ++ t₂)) (l :: (ls₁ ++ ls₂))) :
    Writable depth maxDigits n (l :: (ls₁ ++ ls₂)) part := fun hls => by
  obtain ⟨hscanned, hls₁, hls₂⟩ := by
    simpa only [List.forall_mem_cons, List.forall_mem_append] using hls
  obtain ⟨t₁, ls₁', h₁⟩ := h₁ hls₁
  obtain ⟨t₂, ls₂', h₂⟩ := h₂ hls₂
  exact ⟨_, _, hd h₁.derives h₂.derives,
    .close (hscanned.canonical hl) (h₁.renders.append h₂.renders), hw h₁.written h₂.written⟩

/-- An operand and the operands after it. -/
theorem operands (hpart : part₁.isOptional = false) (h₁ : Writable depth maxDigits m ls₁ part₁)
    (h₂ : Writable depth maxDigits k ls₂ part₂)
    (hd : ∀ {ls₁ ls₂}, Derives depth m ls₁ part₁ → Derives depth k ls₂ part₂ →
      Derives depth n (ls₁ ++ ls₂) part)
    (hw : ∀ {t₁ t₂ ls₁ ls₂}, part₁.Written t₁ ls₁ → part₂.Written t₂ ls₂ →
      part.Written (t₁ ++ further t₂ ls₂) (ls₁ ++ ls₂)) :
    Writable depth maxDigits n (ls₁ ++ ls₂) part := fun hls => by
  obtain ⟨hls₁, hls₂⟩ := List.forall_mem_append.mp hls
  obtain ⟨t₁, ls₁', h₁⟩ := h₁ hls₁
  obtain ⟨t₂, ls₂', h₂⟩ := h₂ hls₂
  exact ⟨_, _, hd h₁.derives h₂.derives,
    h₁.renders.append_further h₂.renders (h₁.derives.ne_nil hpart), hw h₁.written h₂.written⟩

/-- An operator, an operand and the operands after it. -/
theorem operator (hpart : part₁.isOptional = false) (h₁ : Writable depth maxDigits m ls₁ part₁)
    (h₂ : Writable depth maxDigits k ls₂ part₂)
    (hd : ∀ {ls₁ ls₂}, Derives depth m ls₁ part₁ → Derives depth k ls₂ part₂ →
      Derives depth n (.symbol s :: (ls₁ ++ ls₂)) part)
    (hw : ∀ {t₁ t₂ ls₁ ls₂}, part₁.Written t₁ ls₁ → part₂.Written t₂ ls₂ →
      part.Written (s.text.toList ++ ' ' :: (t₁ ++ further t₂ ls₂)) (.symbol s :: (ls₁ ++ ls₂))) :
    Writable depth maxDigits n (.symbol s :: (ls₁ ++ ls₂)) part := fun hls => by
  obtain ⟨_, hls₁, hls₂⟩ := by
    simpa only [List.forall_mem_cons, List.forall_mem_append] using hls
  obtain ⟨t₁, ls₁', h₁⟩ := h₁ hls₁
  obtain ⟨t₂, ls₂', h₂⟩ := h₂ hls₂
  have hne := h₁.derives.ne_nil hpart
  exact ⟨_, _, hd h₁.derives h₂.derives, .spaced (Lexeme.canonical_symbol s) (by simp [hne])
    (h₁.renders.append_further h₂.renders hne), hw h₁.written h₂.written⟩

end Writable

/-- Modifiers start with a `!` just if the first of them adds dice. -/
theorem Derives.modifiers_bang {ms : List (Modifier Expr)}
    (h : Derives depth n ls (.modifiers ms)) :
    ls.head? = some (.symbol .bang) ↔ ∃ c ms', ms = .explode c :: ms' := by
  cases h with
  | noModifier => simp
  | nextModifier hm => cases hm <;> simp

theorem Derives.items_ne_nil {inCall : Bool} {es : List Expr}
    (h : Derives depth n ls (.items inCall es)) : es ≠ [] := by
  cases h <;> simp

theorem commas_cons {e : Expr} {es : List Expr} (h : es ≠ []) :
    DiceLang.Written.commas (exprTexts (e :: es)) =
      e.text ++ ", " ++ DiceLang.Written.commas (exprTexts es) := by
  cases es with
  | nil => exact absurd rfl h
  | cons e' es => exact String.intercalate_cons_cons

theorem text_ofComparison (comparison : Comparison) :
    (Symbol.ofComparison comparison).text = comparison.text := by
  cases comparison <;> rfl

theorem text_binary {op : Operator} {left right : Expr} (h : op ≠ .power) :
    (Expr.binary op left right).text.toList = left.text.toList ++
      ' ' :: ((Symbol.ofOperator op).text.toList ++ ' ' :: right.text.toList) := by
  cases op with
  | power => exact absurd rfl h
  | _ =>
    simp [Expr.text, DiceLang.Written.binary, Operator.text, Symbol.ofOperator, Symbol.text]

/-- What is derived is written as lexemes that it is derived from again. -/
theorem Derives.writable (h : Derives depth n ls part) : Writable depth maxDigits n ls part := by
  induction h with
  | expr hn _ _ ih₁ ih₂ =>
    refine .operands rfl ih₁ ih₂ (.expr hn) fun h₁ h₂ => ?_
    rw [Part.Written, h₂, h₁]
  | sumEnd => exact fun _ => ⟨[], [], .sumEnd, .nil, by simp [Part.Written, further]⟩
  | sumNext hop hn _ _ ih₁ ih₂ =>
    refine .operator rfl ih₁ ih₂ (.sumNext hop hn) fun h₁ h₂ => ?_
    rw [Part.Written, h₂, text_binary (by rcases hop with rfl | rfl <;> simp), h₁]
    simp [further]
  | product _ _ ih₁ ih₂ =>
    refine .operands rfl ih₁ ih₂ .product fun h₁ h₂ => ?_
    rw [Part.Written, h₂, h₁]
  | productEnd => exact fun _ => ⟨[], [], .productEnd, .nil, by simp [Part.Written, further]⟩
  | productNext hop hn _ _ ih₁ ih₂ =>
    refine .operator rfl ih₁ ih₂ (.productNext hop hn) fun h₁ h₂ => ?_
    rw [Part.Written, h₂, text_binary (by rcases hop with rfl | rfl <;> simp), h₁]
    simp [further]
  | minus hn _ ih =>
    refine .prefixed trivial ih (.minus hn) fun h => ?_
    simp_all [Part.Written, Expr.text, Written.negate, Lexeme.text, Symbol.text]
  | plain _ ih => exact ih.lift .plain id
  | base _ ih => exact ih.lift .base id
  | power hn _ _ ih₁ ih₂ =>
    refine .joined ih₁ ih₂ (.power hn) fun h₁ h₂ => ?_
    simp_all [Part.Written, Expr.text, Written.binary, Operator.text, Symbol.text]
  | number _ ih => exact ih.lift .number id
  | dice _ _ _ ih₁ ih₂ ih₃ =>
    intro hls
    obtain ⟨hls₁, hword, hls₂, hls₃⟩ := by
      simpa only [List.forall_mem_cons, List.forall_mem_append] using hls
    obtain ⟨t₁, ls₁, h₁⟩ := ih₁ hls₁
    obtain ⟨t₂, ls₂, h₂⟩ := ih₂ hls₂
    obtain ⟨t₃, ls₃, h₃⟩ := ih₃ hls₃
    refine ⟨_, _, .dice h₁.derives h₂.derives h₃.derives, h₁.renders.append
      (.close (hword.canonical trivial) (h₂.renders.append h₃.renders)), ?_⟩
    have := h₁.written
    have := h₂.written
    have := h₃.written
    simp_all [Part.Written, Expr.text, Written.dice, countText, Lexeme.text]
  | oneDie _ ih =>
    refine .prefixed trivial ih .oneDie fun h => ?_
    simp_all [Part.Written, Expr.text, Lexeme.text]
  | oneModified _ _ ih₁ ih₂ =>
    refine .headed trivial ih₁ ih₂ .oneModified fun h₁ h₂ => ?_
    simp_all [Part.Written, Expr.text, Written.dice, countText, Lexeme.text]
  | called _ ih => exact ih.lift .called id
  | @int m digits =>
    intro hls
    have h : Derives depth m [.number (Text.numeral digits).repr] _ := .int
    rw [Text.numeral_repr] at h
    exact ⟨_, _, h, .single (hls _ (List.mem_singleton_self _)).numeral, rfl⟩
  | paren _ ih =>
    refine .enclosed trivial ih .paren fun h => ?_
    simp_all [Part.Written, Expr.text, Written.parens, Lexeme.text, Symbol.text]
  | compared _ ih =>
    refine .prefixed trivial ih .compared fun h => ?_
    simp_all [Part.Written, Condition.texts, Condition.text, Lexeme.text, text_ofComparison]
  | @equal m ls e _ ih =>
    -- the comparison that is left out is written all the same
    have hwritten : Writable depth maxDigits m (.symbol (.ofComparison .eq) :: ls)
        (.condition ⟨.eq, e⟩) := by
      refine .prefixed trivial ih .compared fun h => ?_
      simp_all [Part.Written, Condition.texts, Condition.text, Lexeme.text, text_ofComparison]
    exact fun hls => hwritten (List.forall_mem_cons.mpr ⟨Lexeme.scanned_symbol _, hls⟩)
  | numbered _ ih =>
    refine ih.lift .numbered fun h => ?_
    simp_all [Part.Written, Die.texts, Die.text]
  | custom hn _ ih =>
    refine .enclosed trivial ih (.custom hn) fun h => ?_
    simp_all [Part.Written, Die.texts, Die.text, Written.braces, Lexeme.text, Symbol.text]
  | select _ ih =>
    refine .prefixed trivial ih .select fun h => ?_
    simp_all [Part.Written, Modifier.texts, Modifier.text, Lexeme.text]
  | @filter _ _ keep _ _ _ ih =>
    refine .prefixed₂ trivial ih .filter fun h => ?_
    cases keep <;> simp_all [Part.Written, Modifier.texts, Modifier.text, Condition.texts,
      Condition.text, filterWord, Lexeme.text, text_ofComparison]
  | reroll _ ih =>
    refine .prefixed trivial ih .reroll fun h => ?_
    simp_all [Part.Written, Modifier.texts, Modifier.text, Lexeme.text]
  | rerollUntil _ ih =>
    refine .enclosed trivial ih .rerollUntil fun h => ?_
    simp_all [Part.Written, Modifier.texts, Modifier.text, Lexeme.text, Symbol.text]
  | explode => exact fun _ => ⟨_, _, .explode, .single (Lexeme.canonical_symbol .bang), rfl⟩
  | explodeWhere _ ih =>
    refine .prefixed₂ trivial ih .explodeWhere fun h => ?_
    rw [Part.Written, Modifier.texts, Modifier.text]
    simp_all [Part.Written, Condition.texts, Condition.text, Lexeme.text, text_ofComparison,
      show Symbol.bang.text = "!" from rfl]
  | noModifier => exact fun _ => ⟨[], [], .noModifier, .nil, rfl⟩
  | nextModifier _ h₂ hbang ih₁ ih₂ =>
    intro hls
    obtain ⟨hls₁, hls₂⟩ := List.forall_mem_append.mp hls
    obtain ⟨t₁, ls₁, h₁'⟩ := ih₁ hls₁
    obtain ⟨t₂, ls₂, h₂'⟩ := ih₂ hls₂
    refine ⟨_, _, .nextModifier h₁'.derives h₂'.derives fun cond hm => ?_,
      h₁'.renders.append h₂'.renders, ?_⟩
    · rw [Ne, h₂'.derives.modifiers_bang, ← h₂.modifiers_bang]
      exact hbang cond hm
    · have := h₁'.written
      have := h₂'.written
      simp_all [Part.Written, modifierTexts]
  | plainItem _ ih => exact ih.lift .plainItem id
  | listItem _ ih => exact ih.lift .listItem id
  | repeatedItem _ ih => exact ih.lift .repeatedItem id
  | lastItem _ ih =>
    refine ih.lift .lastItem fun h => ?_
    simp_all [Part.Written, exprTexts, Written.commas]
  | nextItem _ h₂ ih₁ ih₂ =>
    intro hls
    obtain ⟨hls₁, _, hls₂⟩ := by
      simpa only [List.forall_mem_cons, List.forall_mem_append] using hls
    obtain ⟨t₁, ls₁, h₁'⟩ := ih₁ hls₁
    obtain ⟨t₂, ls₂, h₂'⟩ := ih₂ hls₂
    refine ⟨_, _, .nextItem h₁'.derives h₂'.derives, h₁'.renders.append
      (.spaced (Lexeme.canonical_symbol .comma) (h₂'.derives.ne_nil rfl) h₂'.renders), ?_⟩
    have := h₁'.written
    have := h₂'.written
    rw [Part.Written, commas_cons h₂.items_ne_nil]
    simp_all [Part.Written, Lexeme.text, Symbol.text]
  | list hn _ ih =>
    refine .enclosed trivial ih (.list hn) fun h => ?_
    simp_all [Part.Written, Expr.text, Written.braces, Lexeme.text, Symbol.text]
  | callEmpty hname =>
    intro hls
    have hword := (hls _ List.mem_cons_self).canonical trivial
    refine ⟨_, _, .callEmpty hname, .close hword
      (.close (Lexeme.canonical_symbol .openParen)
        (.single (Lexeme.canonical_symbol .closeParen))), ?_⟩
    simp [Part.Written, Expr.text, exprTexts, Written.call, Written.parens, Written.commas,
      Lexeme.text, Symbol.text]
  | call hname hn _ ih =>
    intro hls
    obtain ⟨hword, _, hls₁, _⟩ := by
      simpa only [List.forall_mem_cons, List.forall_mem_append] using hls
    obtain ⟨t, ls, h⟩ := ih hls₁
    refine ⟨_, _, .call hname hn h.derives, .close (hword.canonical trivial)
      (.close (Lexeme.canonical_symbol .openParen)
        (h.renders.append (.single (Lexeme.canonical_symbol .closeParen)))), ?_⟩
    have := h.written
    simp_all [Part.Written, Expr.text, Written.call, Written.parens, Lexeme.text, Symbol.text]
  | repeatedList _ _ ih₁ ih₂ =>
    refine .joined ih₁ ih₂ .repeatedList fun h₁ h₂ => ?_
    simp_all [Part.Written, Expr.text, Written.repeated, Symbol.text]
  | repeatedExpr _ _ ih₁ ih₂ =>
    refine .joined ih₁ ih₂ .repeatedExpr fun h₁ h₂ => ?_
    simp_all [Part.Written, Expr.text, Written.repeated, Symbol.text]
  | modifiedDice _ ih => exact ih.lift .modifiedDice id

end Grammar

end DiceLang
