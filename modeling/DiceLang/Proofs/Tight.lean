import DiceLang.Proofs.Derivation
import DiceLang.Proofs.Rendering

/-!
# Derived lexemes stay apart

No two lexemes that stand side by side in a derived phrase run into one, even when they are written
without a space: a phrase ends with a number, a bracket or a `!`, and only a number runs into a
number.

* `Derives.tight`
-/

namespace DiceLang

/-- A phrase ends with a number, a closing bracket or a `!`. -/
def Lexeme.closes : Lexeme → Bool
  | .number _ | .symbol .closeParen | .symbol .closeBrace | .symbol .bang => true
  | _ => false

/-- No lexeme runs into the next, and the last ends a phrase. -/
structure Tight (ls : List Lexeme) : Prop where
  apart : ls.IsChain Lexeme.Apart
  closes : ∀ l ∈ ls.getLast?, l.closes = true

theorem Lexeme.apart_of_closes {l l' : Lexeme} (hl : l.closes = true)
    (hl' : ∀ digits, l' ≠ .number digits) : l.Apart l' := by
  unfold Apart
  split
  · exact hl' _ rfl
  · cases hl
  · cases ‹Symbol› <;> first | rfl | cases hl
  · trivial

namespace Tight

variable {ls ls₁ ls₂ : List Lexeme} {l : Lexeme} {s : Symbol}

theorem nil : Tight [] := ⟨.nil, by simp⟩

theorem single (hl : l.closes = true) : Tight [l] := ⟨.singleton l, by simpa using hl⟩

theorem append (h₁ : Tight ls₁) (h₂ : Tight ls₂)
    (hhead : ∀ digits, ls₂.head? ≠ some (.number digits)) : Tight (ls₁ ++ ls₂) where
  apart := h₁.apart.append h₂.apart fun l hl l' hl' =>
    Lexeme.apart_of_closes (h₁.closes l hl) fun digits e => hhead digits (e ▸ hl')
  closes l hl := by
    rw [List.getLast?_append] at hl
    rcases Option.or_eq_some_iff.mp hl with hl | ⟨_, hl⟩
    · exact h₂.closes l hl
    · exact h₁.closes l hl

theorem cons (h : Tight ls) (hne : ls ≠ []) (hl : ∀ l' ∈ ls.head?, l.Apart l') :
    Tight (l :: ls) where
  apart := h.apart.cons hl
  closes l hl := by
    obtain ⟨l', tl, rfl⟩ := List.exists_cons_of_ne_nil hne
    exact h.closes l (by simpa using hl)

theorem cons_symbol (h : Tight ls) (hne : ls ≠ []) (hs : s.withEqual? = none) :
    Tight (.symbol s :: ls) := h.cons hne fun _ _ => Lexeme.apart_symbol hs

theorem concat (h : Tight ls) (hs : (Lexeme.symbol s).closes = true) :
    Tight (ls ++ [.symbol s]) := h.append (single hs) (by simp)

end Tight

namespace Grammar

variable {depth n : Nat} {ls : List Lexeme} {part : Part}

theorem Derives.apart_head {l : Lexeme} (h : Derives depth n ls part)
    (hl : ∀ l', part.startsWith l' = true → l.Apart l') : ∀ l' ∈ ls.head?, l.Apart l' := by
  intro l' hl'
  rcases h.head with ⟨_, rfl⟩ | ⟨l'', tl, rfl, hstart⟩
  · cases hl'
  · obtain rfl := Option.some.inj hl'
    exact hl _ hstart

theorem Derives.head_ne_number (h : Derives depth n ls part)
    (hpart : ∀ digits, part.startsWith (.number digits) = false) (digits : String) :
    ls.head? ≠ some (.number digits) := by
  rcases h.head with ⟨_, rfl⟩ | ⟨l, tl, rfl, hstart⟩
  · simp
  · rintro ⟨⟩
    simp [hpart] at hstart

theorem Derives.apart_word {word : String} (h : Derives depth n ls part)
    (hpart : ∀ word, part.startsWith (.word word) = false) :
    ∀ l' ∈ ls.head?, (Lexeme.word word).Apart l' := h.apart_head fun l' hl' => by
  cases l' with
  | word word' => simp [hpart] at hl'
  | _ => trivial

theorem Derives.apart_comparison {comparison : Comparison} {e : Expr}
    (h : Derives depth n ls (.count e)) :
    ∀ l' ∈ ls.head?, (Lexeme.symbol (.ofComparison comparison)).Apart l' :=
  h.apart_head fun l' hl' => by
    rcases Lexeme.startsCount_iff.mp hl' with ⟨digits, rfl⟩ | rfl <;> trivial

/-- No lexeme of a derived phrase runs into the next. -/
theorem Derives.tight (h : Derives depth n ls part) : Tight ls := by
  induction h with
  | expr _ h₁ h₂ ih₁ ih₂ => exact ih₁.append ih₂ (h₂.head_ne_number fun _ => rfl)
  | sumEnd => exact .nil
  | sumNext hop _ h₁ h₂ ih₁ ih₂ =>
    refine (ih₁.append ih₂ (h₂.head_ne_number fun _ => rfl)).cons_symbol ?_ ?_
    · simp [h₁.ne_nil rfl]
    · rcases hop with rfl | rfl <;> rfl
  | product h₁ h₂ ih₁ ih₂ => exact ih₁.append ih₂ (h₂.head_ne_number fun _ => rfl)
  | productEnd => exact .nil
  | productNext hop _ h₁ h₂ ih₁ ih₂ =>
    refine (ih₁.append ih₂ (h₂.head_ne_number fun _ => rfl)).cons_symbol ?_ ?_
    · simp [h₁.ne_nil rfl]
    · rcases hop with rfl | rfl <;> rfl
  | minus _ h ih => exact ih.cons_symbol (h.ne_nil rfl) rfl
  | plain _ ih => exact ih
  | base _ ih => exact ih
  | power _ h₁ h₂ ih₁ ih₂ => exact ih₁.append (ih₂.cons_symbol (h₂.ne_nil rfl) rfl) (by simp)
  | number _ ih => exact ih
  | dice h₁ h₂ h₃ ih₁ ih₂ ih₃ =>
    refine ih₁.append ((ih₂.append ih₃ (h₃.head_ne_number fun _ => rfl)).cons ?_ ?_) (by simp)
    · simp [h₂.ne_nil rfl]
    · rw [List.head?_append_of_ne_nil _ (h₂.ne_nil rfl)]
      exact h₂.apart_word fun _ => rfl
  | oneDie h ih => exact ih.cons (h.ne_nil rfl) (h.apart_word fun _ => rfl)
  | oneModified h₁ h₂ ih₁ ih₂ =>
    refine (ih₁.append ih₂ (h₂.head_ne_number fun _ => rfl)).cons ?_ ?_
    · simp [h₁.ne_nil rfl]
    · rw [List.head?_append_of_ne_nil _ (h₁.ne_nil rfl)]
      exact h₁.apart_word fun _ => rfl
  | called _ ih => exact ih
  | int => exact .single rfl
  | paren _ ih => exact (ih.concat rfl).cons_symbol (by simp) rfl
  | compared h ih => exact ih.cons (h.ne_nil rfl) h.apart_comparison
  | equal _ ih => exact ih
  | numbered _ ih => exact ih
  | custom _ _ ih => exact (ih.concat rfl).cons_symbol (by simp) rfl
  | select h ih => exact ih.cons (h.ne_nil rfl) (h.apart_word fun _ => rfl)
  | filter h ih =>
    exact (ih.cons (h.ne_nil rfl) h.apart_comparison).cons (by simp) (by simp [Lexeme.Apart])
  | reroll h ih => exact ih.cons (h.ne_nil rfl) (h.apart_word fun _ => rfl)
  | rerollUntil h ih =>
    refine (ih.concat rfl).cons (by simp) ?_
    rw [List.head?_append_of_ne_nil _ (h.ne_nil rfl)]
    exact h.apart_word fun _ => rfl
  | explode => exact .single rfl
  | explodeWhere h ih => exact (ih.cons (h.ne_nil rfl) h.apart_comparison).cons_symbol (by simp) rfl
  | noModifier => exact .nil
  | nextModifier _ h _ ih₁ ih₂ => exact ih₁.append ih₂ (h.head_ne_number fun _ => rfl)
  | plainItem _ ih => exact ih
  | listItem _ ih => exact ih
  | repeatedItem _ ih => exact ih
  | lastItem _ ih => exact ih
  | nextItem _ h ih₁ ih₂ => exact ih₁.append (ih₂.cons_symbol (h.ne_nil rfl) rfl) (by simp)
  | list _ _ ih => exact (ih.concat rfl).cons_symbol (by simp) rfl
  | callEmpty =>
    exact (Tight.cons_symbol (.single rfl) (by simp) rfl).cons (by simp) (by simp [Lexeme.Apart])
  | call _ _ _ ih =>
    exact ((ih.concat rfl).cons_symbol (by simp) rfl).cons (by simp) (by simp [Lexeme.Apart])
  | repeatedList _ h ih₁ ih₂ => exact ih₁.append (ih₂.cons_symbol (h.ne_nil rfl) rfl) (by simp)
  | repeatedExpr _ h ih₁ ih₂ => exact ih₁.append (ih₂.cons_symbol (h.ne_nil rfl) rfl) (by simp)
  | modifiedDice _ ih => exact ih

end Grammar

end DiceLang
