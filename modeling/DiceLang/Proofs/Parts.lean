import DiceLang.Written

/-!
# The parts of a tree

The expressions that an expression is made of, what holds of all of them, and the gaps among them.

* `Expr.Everywhere`: what holds at every node of a tree;
* `Expr.Everywhere.gap`: it holds of the first gap.
-/

namespace DiceLang

def Die.parts {ε : Type} : Die ε → List ε
  | .numbered sides => [sides]
  | .custom faces => faces

def Modifier.parts {ε : Type} : Modifier ε → List ε
  | .select _ count => [count]
  | .filter _ c | .reroll _ c | .explode (some c) => [c.target]
  | .explode none => []

namespace Expr

/-- The expressions that an expression is made of; of a set of dice, the modifiers come before the
die, as they do when gaps are looked for. -/
def parts : Expr → List Expr
  | .int _ | .gap _ => []
  | .paren inner | .negate inner => [inner]
  | .binary _ left right => [left, right]
  | .die d => d.parts
  | .dice count d ms => count.toList ++ ms.flatMap Modifier.parts ++ d.parts
  | .call _ args => args
  | .list items => items
  | .repeated count inner => [count, inner]

/-- It holds of the expression, of its parts, of their parts, and so on. -/
inductive Everywhere (p : Expr → Prop) : Expr → Prop
  | intro {e} : p e → (∀ x ∈ e.parts, Everywhere p x) → Everywhere p e

namespace Everywhere

variable {p q : Expr → Prop} {e x : Expr}

theorem here (h : e.Everywhere p) : p e := by
  cases h
  assumption

theorem part (h : e.Everywhere p) (hx : x ∈ e.parts) : x.Everywhere p := by
  cases h with
  | intro _ h => exact h x hx

theorem imp (h : e.Everywhere p) (hpq : ∀ x, p x → q x) : e.Everywhere q := by
  induction h with
  | intro h _ ih => exact .intro (hpq _ h) ih

end Everywhere

end Expr

/-! ## Gaps -/

theorem Expr.findSome?_gap?_cons (e : Expr) (es : List Expr) :
    (e :: es).findSome? Expr.gap? = (e.gap? <|> es.findSome? Expr.gap?) := by
  rw [List.findSome?_cons]
  cases e.gap? <;> rfl

theorem Expr.findSome?_gap?_singleton (e : Expr) : [e].findSome? Expr.gap? = e.gap? := by
  rw [findSome?_gap?_cons, List.findSome?_nil]
  simp

theorem exprsGap?_eq (es : List Expr) : exprsGap? es = es.findSome? Expr.gap? := by
  induction es with
  | nil => rfl
  | cons e es ih => rw [exprsGap?, ih, Expr.findSome?_gap?_cons]

theorem countGap?_eq (count : Option Expr) :
    countGap? count = count.toList.findSome? Expr.gap? := by
  cases count with
  | none => rfl
  | some e => exact e.findSome?_gap?_singleton.symm

theorem Die.gap?_eq (d : Die Expr) : d.gap? = d.parts.findSome? Expr.gap? := by
  cases d with
  | numbered sides => exact sides.findSome?_gap?_singleton.symm
  | custom faces => exact exprsGap?_eq faces

theorem Condition.gap?_eq (c : Condition Expr) :
    c.gap? = [c.target].findSome? Expr.gap? := by
  obtain ⟨comparison, target⟩ := c
  exact target.findSome?_gap?_singleton.symm

theorem Modifier.gap?_eq (m : Modifier Expr) : m.gap? = m.parts.findSome? Expr.gap? := by
  cases m with
  | select selection count => exact count.findSome?_gap?_singleton.symm
  | filter keep c => exact c.gap?_eq
  | reroll untilClear c => exact c.gap?_eq
  | explode c =>
    cases c with
    | none => rfl
    | some c => exact c.gap?_eq

theorem modifiersGap?_eq (ms : List (Modifier Expr)) :
    modifiersGap? ms = (ms.flatMap Modifier.parts).findSome? Expr.gap? := by
  induction ms with
  | nil => rfl
  | cons m ms ih =>
    rw [modifiersGap?, ih, m.gap?_eq, List.flatMap_cons, List.findSome?_append,
      Option.orElse_eq_orElse, Option.orElse_eq_or]

/-- An expression that is no gap itself has the first gap of its parts. -/
theorem Expr.gap?_eq (e : Expr) (h : ∀ g, e ≠ .gap g) : e.gap? = e.parts.findSome? Expr.gap? := by
  cases e with
  | int n => rfl
  | paren inner => exact inner.findSome?_gap?_singleton.symm
  | binary op left right =>
    rw [gap?, parts, findSome?_gap?_cons, findSome?_gap?_singleton]
  | negate inner => exact inner.findSome?_gap?_singleton.symm
  | die d => exact d.gap?_eq
  | dice count d ms =>
    rw [gap?, parts, List.findSome?_append, List.findSome?_append, countGap?_eq, modifiersGap?_eq,
      d.gap?_eq, Option.or_assoc]
    simp only [Option.orElse_eq_orElse, Option.orElse_eq_or]
  | call name args => exact exprsGap?_eq args
  | list items => exact exprsGap?_eq items
  | repeated count inner =>
    rw [gap?, parts, findSome?_gap?_cons, findSome?_gap?_singleton]
  | gap g => exact absurd rfl (h g)

/-- What holds everywhere holds of the first gap. -/
theorem Expr.Everywhere.gap {p : Expr → Prop} {e : Expr} {g : Gap} (h : e.Everywhere p)
    (hg : e.gap? = some g) : p (.gap g) := by
  induction h with
  | @intro e h _ ih =>
    by_cases he : ∃ g', e = .gap g'
    · obtain ⟨g', rfl⟩ := he
      obtain rfl := Option.some.inj hg
      exact h
    · rw [e.gap?_eq fun g' h => he ⟨g', h⟩] at hg
      obtain ⟨x, hx, hg⟩ := List.exists_of_findSome?_eq_some hg
      exact ih x hx hg

end DiceLang
