import DiceLang.Proofs.PhraseRules
import DiceLang.Roll

/-!
# Induction over the notation

The phrases of the notation are put together in a few ways from a few parts. What holds of the
parts, and of what is put together from phrases of which it holds (`Phrase.Closed`), holds of each
phrase that is read between two levels of nesting, then by induction of what is nested at any number
of levels, and of a whole roll.

The rules say what a reader may rely on: a lexeme is passed over only if it is there and, where it
is a number, fits and is converted; a number is refused only if it is ahead, and for its length.

* `Phrase.Closed`: the rules;
* `Closed.count`, `Closed.condition`, .. : one lemma for each phrase;
* `Closed.nested`: what is nested at any number of levels;
* `Closed.roll`: a whole roll.
-/

namespace DiceLang

open Phrase

/-- The property holds of the parts of phrases and of what is put together from phrases of which it
holds. -/
structure Phrase.Closed (maxDigits : Nat) (P : ∀ {α : Type}, Phrase α → Cursor → Prop) : Prop where
  pure : ∀ {α : Type} {a : α} {c : Cursor}, P (Pure.pure a : Phrase α) c
  bind : ∀ {α β : Type} {p : Phrase α} {f : α → Phrase β} {c : Cursor}, P p c →
    (∀ a rest, P (f a) rest) → P (p >>= f) c
  ahead : ∀ {β : Type} {f : List Lexeme → Phrase β} {c : Cursor}, P (f c.ahead) c →
    P (Phrase.ahead >>= f) c
  skip : ∀ {c : Cursor} {l : Lexeme}, c.ahead.head? = some l → l.Passable maxDigits →
    P Phrase.skip c
  missing : ∀ {wanted : List Expectation} {c : Cursor}, P (Phrase.missing wanted) c
  giveUp : ∀ {α : Type} {wanted : List Expectation} {c : Cursor},
    P (Phrase.giveUp wanted : Phrase α) c
  tooDeep : ∀ {α : Type} {c : Cursor}, P (refuse .depth : Phrase α) c
  tooLong : ∀ {α : Type} {c : Cursor} {digits : String}, c.ahead.head? = some (.number digits) →
    ¬ (Lexeme.number digits).Fits maxDigits → P (refuse .digits : Phrase α) c
  unconverted : ∀ {α : Type} {c : Cursor} {digits : String},
    c.ahead.head? = some (.number digits) → (Lexeme.number digits).Fits maxDigits →
    ¬ (Lexeme.number digits).Converts → P (refuse .conversion : Phrase α) c
  orWanted : ∀ {α : Type} {p : Phrase α} {wanted : List Expectation} {c : Cursor}, P p c →
    P (p.orWanted wanted) c
  orElse : ∀ {α : Type} {p q : Phrase α} {c : Cursor}, P p c → P q c → P (p.orElse q) c

namespace Phrase.Closed

variable {maxDigits : Nat} {P : ∀ {α : Type}, Phrase α → Cursor → Prop} (hP : Closed maxDigits P)
  {α : Type} {below : Nested → Phrase Expr} {c : Cursor}
include hP

theorem skip_bind {f : Unit → Phrase α} {l : Lexeme} (hd : c.ahead.head? = some l)
    (hl : l.Passable maxDigits) (h : ∀ rest, P (f ()) rest) : P (Phrase.skip >>= f) c :=
  hP.bind (hP.skip hd hl) fun _ rest => h rest

theorem symbol {s : Symbol} : P (Phrase.symbol s) c := by
  refine hP.ahead ?_
  split
  · exact hP.skip ‹_› (Lexeme.passable_symbol s)
  · exact hP.giveUp

theorem endOfInput : P Phrase.endOfInput c := by
  refine hP.ahead ?_
  split
  · exact hP.pure
  · exact hP.giveUp

/-! ## Phrases between two levels -/

section

variable (h : ∀ what rest, P (below what) rest)
include h

theorem count (c : Cursor) : P (Grammar.count maxDigits below) c := by
  refine hP.ahead ?_
  split
  · rename_i hd
    split
    · exact hP.tooLong hd (Nat.not_le.mpr ‹_›)
    · have hfits : (Lexeme.number _).Fits maxDigits := Nat.not_lt.mp ‹_›
      split
      · exact hP.unconverted hd hfits (Nat.not_le.mpr ‹_›)
      · exact hP.skip_bind hd ⟨hfits, Nat.not_lt.mp ‹_›⟩ fun _ => hP.pure
  · rename_i hd
    refine hP.skip_bind hd (by simp) fun rest => hP.bind (h .sum rest) fun _ _ => ?_
    exact hP.bind hP.symbol fun _ _ => hP.pure
  · exact hP.giveUp

theorem condition (c : Cursor) : P (Grammar.condition maxDigits below) c := by
  have target : ∀ c, P (Grammar.condition.target maxDigits below) c := fun c =>
    hP.orWanted (hP.count h c)
  refine hP.ahead ?_
  split
  · rename_i hd
    split
    · exact hP.skip_bind hd (by simp) fun rest => hP.bind (target rest) fun _ _ => hP.pure
    · exact hP.bind (target c) fun _ _ => hP.pure
  · exact hP.bind (target c) fun _ _ => hP.pure

omit h in
theorem itemsUpTo {item : Phrase Expr} (h : ∀ c, P item c) (closing : Symbol) (commas : Nat)
    (c : Cursor) : P (Grammar.itemsUpTo item closing commas) c := by
  induction commas generalizing c with
  | zero => exact hP.bind (h c) fun _ _ => hP.giveUp
  | succ commas ih =>
    refine hP.bind (h c) fun first rest => hP.ahead ?_
    dsimp only
    split
    · rename_i hd
      exact hP.skip_bind hd (by simp) fun rest => hP.bind (ih rest) fun _ _ => hP.pure
    · split
      · rename_i hd
        exact hP.skip_bind hd (by simp) fun _ => hP.pure
      · exact hP.giveUp

omit h in
theorem items {item : Phrase Expr} (h : ∀ c, P item c) (closing : Symbol) (c : Cursor) :
    P (Grammar.items item closing) c :=
  hP.ahead (hP.itemsUpTo h closing _ c)

theorem list (c : Cursor) : P (Grammar.list below) c :=
  hP.bind hP.symbol fun _ rest => hP.bind (hP.items (h .expr) _ rest) fun _ _ => hP.pure

theorem call (c : Cursor) : P (Grammar.call below) c := by
  refine hP.ahead ?_
  split
  · rename_i hd
    split
    · exact hP.giveUp
    · refine hP.skip_bind hd (by simp) fun _ => hP.bind hP.symbol fun _ rest => hP.ahead ?_
      split
      · rename_i hd
        exact hP.skip_bind hd (by simp) fun _ => hP.pure
      · exact hP.bind (hP.items (h .argument) _ rest) fun _ _ => hP.pure
  · exact hP.giveUp

theorem die (c : Cursor) : P (Grammar.die maxDigits below) c := by
  refine hP.ahead ?_
  split
  · rename_i hd
    exact hP.skip_bind hd (by simp) fun rest =>
      hP.bind (hP.items (h .expr) _ rest) fun _ _ => hP.pure
  · exact hP.bind (hP.orWanted (hP.count h c)) fun _ _ => hP.pure

theorem modifier? (c : Cursor) : P (Grammar.modifier? maxDigits below) c := by
  refine hP.ahead ?_
  split
  · rename_i word rest hc
    have hd : c.ahead.head? = some (.word word) := by rw [hc, List.head?_cons]
    split
    · exact hP.skip_bind hd (by simp) fun rest => hP.bind (hP.count h rest) fun _ _ => hP.pure
    · split
      · refine hP.skip_bind hd (by simp) fun rest =>
          hP.bind (hP.condition h rest) fun _ _ => hP.ahead ?_
        split
        · rename_i hd
          exact hP.skip_bind hd (by simp) fun _ => hP.pure
        · exact hP.pure
      · split
        · split
          · exact hP.skip_bind hd (by simp) fun rest =>
              hP.bind (hP.condition h rest) fun _ _ => hP.pure
          · exact hP.pure
        · exact hP.pure
  · rename_i rest hc
    refine hP.skip_bind (by rw [hc, List.head?_cons]) (by simp) fun rest => ?_
    split
    · exact hP.bind (hP.condition h rest) fun _ _ => hP.pure
    · exact hP.pure
  · exact hP.pure

theorem modifiersUpTo (most : Nat) (c : Cursor) :
    P (Grammar.modifiersUpTo maxDigits below most) c := by
  induction most generalizing c with
  | zero => exact hP.pure
  | succ most ih =>
    refine hP.bind (hP.modifier? h c) fun m? rest => ?_
    split
    · exact hP.bind (ih rest) fun _ _ => hP.pure
    · exact hP.pure

theorem dice {count : Option Expr} (hd : c.ahead.head? = some (.word dieWord)) :
    P (Grammar.dice maxDigits below count) c := by
  refine hP.skip_bind hd (by simp) fun rest => hP.bind (hP.die h rest) fun die rest => ?_
  refine hP.bind (hP.ahead (hP.modifiersUpTo h _ rest)) fun modifiers rest => ?_
  split <;> exact hP.pure

/-! ## Arithmetic -/

theorem primary (c : Cursor) : P (Grammar.primary maxDigits below) c := by
  have counted : ∀ c, P (do
        let count ← Grammar.count maxDigits below
        if (← Phrase.ahead).head? = some (.word dieWord) then
          Grammar.dice maxDigits below (some count)
        else return count) c := fun c => by
    refine hP.bind (hP.count h c) fun count rest => hP.ahead ?_
    split
    · exact hP.dice h ‹_›
    · exact hP.pure
  refine hP.ahead ?_
  split
  · rename_i hd
    split
    · rename_i hword
      exact hP.dice h (hword ▸ hd)
    · split
      · exact hP.giveUp
      · exact hP.call h c
  · exact counted c
  · exact counted c
  · exact hP.giveUp

theorem power (c : Cursor) : P (Grammar.power maxDigits below) c := by
  refine hP.bind (hP.primary h c) fun base rest => hP.ahead ?_
  split
  · rename_i hd
    exact hP.skip_bind hd (by simp) fun rest => hP.bind (h .power rest) fun _ _ => hP.pure
  · exact hP.bind hP.missing fun _ _ => hP.pure

theorem negation (c : Cursor) : P (Grammar.negation maxDigits below) c := by
  refine hP.ahead ?_
  split
  · rename_i hd
    exact hP.skip_bind hd (by simp) fun rest => hP.bind (h .negation rest) fun _ _ => hP.pure
  · exact hP.power h c

theorem productRest (left : Expr) (c : Cursor) : P (Grammar.productRest below left) c := by
  refine hP.ahead ?_
  split
  · exact hP.skip_bind ‹_› (by simp) (h _)
  · exact hP.skip_bind ‹_› (by simp) (h _)
  · exact hP.bind hP.missing fun _ _ => hP.pure

theorem product (c : Cursor) : P (Grammar.product maxDigits below) c :=
  hP.bind (hP.negation h c) (hP.productRest h)

theorem sumRest (left : Expr) (c : Cursor) : P (Grammar.sumRest below left) c := by
  refine hP.ahead ?_
  split
  · exact hP.skip_bind ‹_› (by simp) (h _)
  · exact hP.skip_bind ‹_› (by simp) (h _)
  · exact hP.bind hP.missing fun _ _ => hP.pure

/-! ## Readings of a whole text -/

theorem repetition (c : Cursor) : P (Grammar.repetition maxDigits below) c := by
  refine hP.bind (hP.count h c) fun count _ => hP.bind hP.symbol fun _ rest => hP.ahead ?_
  split
  · exact hP.bind (hP.list h rest) fun _ _ => hP.pure
  · exact hP.bind (h .sum rest) fun _ _ => hP.pure

theorem argument (c : Cursor) : P (Grammar.argument maxDigits below) c := by
  refine hP.ahead ?_
  split
  · exact hP.list h c
  · exact hP.orElse (hP.repetition h c) (h .sum c)

omit h in
theorem modified {dice : Phrase Expr} (h : P dice c) : P (Grammar.modified dice) c := by
  refine hP.bind (hP.orWanted h) fun e rest => ?_
  split
  · exact hP.pure
  · exact hP.giveUp

theorem modifiedDice (c : Cursor) : P (Grammar.modifiedDice maxDigits below) c := by
  refine hP.ahead ?_
  split
  · exact hP.modified (hP.dice h ‹_›)
  · refine hP.bind (hP.count h c) fun count rest => hP.ahead ?_
    split
    · exact hP.modified (hP.dice h ‹_›)
    · exact hP.giveUp

end

/-! ## Nesting -/

theorem nested (levels : Nat) (what : Nested) (c : Cursor) :
    P (Grammar.nested maxDigits levels what) c := by
  -- what is nested in a phrase is read with one level less, wherever the cursor is by then
  induction levels generalizing what c with
  | zero => exact hP.tooDeep
  | succ levels ih =>
    cases what with
    | sum => exact hP.bind (hP.product ih c) fun left rest => hP.sumRest ih left rest
    | sumAfter left op => exact hP.bind (hP.product ih c) fun right rest => hP.sumRest ih _ rest
    | productAfter left op =>
      exact hP.bind (hP.negation ih c) fun right rest => hP.productRest ih _ rest
    | negation => exact hP.negation ih c
    | power => exact hP.power ih c
    | expr => exact ih .sum c
    | argument => exact hP.argument ih c

theorem whole (kind : Kind) {reading : Phrase Expr} (h : P reading c) :
    P (Roll.whole (kind, reading)) c :=
  hP.bind h fun _ _ => hP.bind hP.endOfInput fun _ _ => hP.pure

omit hP in
/-- Each of the readings, and so all of them in turn. -/
theorem roll {limits : Limits} (hP : Closed limits.maxDigits P) (c : Cursor) :
    P (Roll.phrase limits) c := by
  have hnested := hP.nested limits.maxDepth
  exact hP.orElse (hP.whole _ (hP.repetition hnested c)) <|
    hP.orElse (hP.whole _ (hP.list hnested c)) <|
    hP.orElse (hP.whole _ (hP.call hnested c)) <|
    hP.orElse (hP.whole _ (hP.modifiedDice hnested c)) <|
    hP.orElse (hP.whole _ (hnested .sum c)) hP.giveUp

end Phrase.Closed

end DiceLang
