import DiceLang.Proofs.ReadingSound
import DiceLang.Proofs.Rendering

/-!
# How a text may go on

Lexemes with which a roll begins, and what may come right after them. A phrase is awaited after some
lexemes if whatever spells it begins a roll together with them; so what the phrase starts with may
come next, and where one part of a phrase is read its other parts are awaited.

Nothing is said of limits: there is always depth enough for what is added.

* `Lexeme.Addable`: lexemes that may be added to any others;
* `Begins`: such lexemes can be added to make a roll;
* `Expectation.Follows`: a lexeme of the kind that is expected, or the end, may come next;
* `Awaits.follows`: the phrase that is awaited may go on like any that is derived.
-/

namespace DiceLang

/-- The lexeme can be added to a text: it is written in ASCII, and it is converted if it is a
number. -/
structure Lexeme.Addable (l : Lexeme) : Prop where
  plain : l.Plain
  converts : l.Converts

namespace Grammar

variable {depth n : Nat} {ls more before : List Lexeme} {α : Type} {part : α → Part}

/-- The lexemes spell a whole roll, if there is depth enough. -/
def SpellsRoll (ls : List Lexeme) : Prop :=
  ∃ depth e, ∃ a ∈ alternatives, Derives depth 0 ls (a.2 e)

/-- A roll begins with the lexemes: others can be added to them to make a roll. -/
def Begins (ls : List Lexeme) : Prop :=
  ∃ more, (∀ l ∈ more, l.Addable) ∧ SpellsRoll (ls ++ more)

theorem SpellsRoll.begins (h : SpellsRoll ls) : Begins ls := ⟨[], nofun, by simpa using h⟩

theorem Begins.of_append (more : List Lexeme) (h : Begins (ls ++ more))
    (hmore : ∀ l ∈ more, l.Addable) : Begins ls := by
  obtain ⟨more', hmore', hspells⟩ := h
  refine ⟨more ++ more', fun l hl => ?_, by rwa [← List.append_assoc]⟩
  exact (List.mem_append.mp hl).elim (hmore l) (hmore' l)

end Grammar

open Grammar

/-- A lexeme of this kind may come right after `before`, or the end of the text, as is expected. -/
def Expectation.Follows (before : List Lexeme) (e : Expectation) : Prop :=
  ∃ after, e.admits after.head? = true ∧ (∀ l ∈ after, l.Addable) ∧ SpellsRoll (before ++ after)

namespace Expectation.Follows

variable {before : List Lexeme} {l : Lexeme} {e : Expectation}

theorem of_begins (more : List Lexeme) (h : Begins (before ++ l :: more))
    (hl : e.admits (some l) = true) (hadd : ∀ l' ∈ l :: more, l'.Addable) : e.Follows before := by
  obtain ⟨more', hmore', hspells⟩ := h
  refine ⟨l :: more ++ more', hl, fun l' hl' => ?_, by rwa [← List.append_assoc]⟩
  exact (List.mem_append.mp hl').elim (hadd l') (hmore' l')

theorem endOfInput (h : SpellsRoll before) : Expectation.endOfInput.Follows before :=
  ⟨[], rfl, nofun, by simpa using h⟩

end Expectation.Follows

namespace Grammar

variable {depth n : Nat} {ls more before : List Lexeme} {α : Type} {part : α → Part}

/-! ## Lexemes for what is missing -/

/-- The number that stands for a count that is missing. -/
def zero : Lexeme := .number "0"

/-- A word that is no word of the notation. -/
def anyName : String := "f"

@[simp] theorem addable_symbol (s : Symbol) : (Lexeme.symbol s).Addable := ⟨trivial, trivial⟩

theorem addable_word {letters : String} (hne : letters.toList ≠ [])
    (hlower : ∀ c ∈ letters.toList, c.isLower = true) : (Lexeme.word letters).Addable :=
  ⟨⟨hne, hlower⟩, trivial⟩

@[simp] theorem addable_zero : zero.Addable where
  plain := ⟨by decide, List.all_eq_true.mp rfl⟩
  converts := show "0".length ≤ Text.maxNumeralLength by decide

@[simp] theorem addable_dieWord : (Lexeme.word dieWord).Addable :=
  addable_word (by decide) (List.all_eq_true.mp rfl)

@[simp] theorem addable_rerollWord : (Lexeme.word rerollWord).Addable :=
  addable_word (by decide) (List.all_eq_true.mp rfl)

@[simp] theorem addable_anyName : (Lexeme.word anyName).Addable :=
  addable_word (by decide) (List.all_eq_true.mp rfl)

@[simp] theorem addable_filterWord (keep : Bool) : (Lexeme.word (filterWord keep)).Addable := by
  cases keep <;> exact addable_word (by decide) (List.all_eq_true.mp rfl)

@[simp] theorem addable_selection (selection : Selection) :
    (Lexeme.word selection.word.text).Addable := by
  cases selection <;> exact addable_word (by decide) (List.all_eq_true.mp rfl)

theorem isReserved_anyName : isReserved anyName = false := by decide

theorem Derives.zero_count : Derives depth n [zero] (.count (.int (Text.numeral "0"))) := .int

theorem Derives.zero_power : Derives depth n [zero] (.power (.int (Text.numeral "0"))) :=
  .base (.number .zero_count)

theorem Derives.zero_negation : Derives depth n [zero] (.negation (.int (Text.numeral "0"))) :=
  .plain .zero_power

theorem Derives.zero_product : Derives depth n [zero] (.product (.int (Text.numeral "0"))) :=
  .product .zero_negation .productEnd

theorem Derives.zero_expr (h : n < depth) :
    Derives depth n [zero] (.expr (.int (Text.numeral "0"))) := .expr h .zero_product .sumEnd

theorem Derives.zero_paren (h : n < depth) :
    Derives depth n [.symbol .openParen, zero, .symbol .closeParen]
      (.count (.paren (.int (Text.numeral "0")))) := .paren (.zero_expr h)

theorem Derives.zero_items (h : n < depth) {inCall : Bool} :
    Derives depth n [zero] (.items inCall [.int (Text.numeral "0")]) :=
  .lastItem (.plainItem (.zero_expr h))

theorem Derives.zero_list (h : n + 1 < depth) :
    Derives depth n [.symbol .openBrace, zero, .symbol .closeBrace]
      (.list (.list [.int (Text.numeral "0")])) := .list (by omega) (.zero_items h)

/-- What is derived is derived with more depth, so much that level `k` may be entered. -/
theorem Derives.deepen {part : Part} (h : Derives depth n ls part) (k : Nat) :
    Derives (max depth (k + 1)) n ls part := h.mono (Nat.le_refl n) (Nat.le_max_left ..)

theorem lt_max_succ : n < max depth (n + 1) := Nat.lt_of_succ_le (Nat.le_max_right ..)

theorem Derives.max_left {part : Part} (h : Derives depth n ls part) (depth' : Nat) :
    Derives (max depth depth') n ls part := h.mono (Nat.le_refl n) (Nat.le_max_left ..)

theorem Derives.max_right {part : Part} (h : Derives depth n ls part) (depth' : Nat) :
    Derives (max depth' depth) n ls part := h.mono (Nat.le_refl n) (Nat.le_max_right ..)

/-! ## What is awaited -/

/-- Whatever spells the phrase at level `n` may come after `before`. -/
def Awaits (n : Nat) (before : List Lexeme) (part : α → Part) : Prop :=
  ∀ depth ls a, Derives depth n ls (part a) → Begins (before ++ ls)

/-- What is nested, one level further down, may come after `before`. -/
def AwaitsBelow (n : Nat) (before : List Lexeme) (what : Nested) : Prop :=
  ∀ depth ls e, BelowDerives depth n what ls e → Begins (before ++ ls)

/-- What begins with what is read and goes on as the phrase may go on. -/
theorem Awaits.follows (depth : Nat) {a : α} {l : Lexeme} {e : Expectation}
    (h : Awaits n before part) (hder : Derives depth n (ls ++ l :: more) (part a))
    (hl : e.admits (some l) = true) (hadd : ∀ l' ∈ l :: more, l'.Addable) :
    e.Follows (before ++ ls) := by
  refine .of_begins more ?_ hl hadd
  rw [List.append_assoc]
  exact h _ _ _ hder

theorem Awaits.follows_first (depth : Nat) {a : α} {l : Lexeme} {e : Expectation}
    (h : Awaits n before part) (hder : Derives depth n (l :: more) (part a))
    (hl : e.admits (some l) = true) (hadd : ∀ l' ∈ l :: more, l'.Addable) : e.Follows before :=
  .of_begins more (h _ _ _ hder) hl hadd

end Grammar

end DiceLang
