import DiceLang.Kind

/-!
# Values

What an expression comes to. An element of a list may carry a label that tells how it came about.
-/

namespace DiceLang

structure Element where
  value : Int
  label : String := ""
deriving Repr, DecidableEq

inductive Value where
  | scalar (value : Int)
  | list (elements : List Element)
deriving Repr, DecidableEq

def Value.kind : Value → Kind
  | .scalar _ => .scalar
  | .list _ => .list

/-- The numbers of a value: of a list, its elements without their labels. -/
def Value.numbers : Value → List Int
  | .scalar n => [n]
  | .list elements => elements.map Element.value

/-- The total of some numbers. -/
def total (numbers : List Int) : Int := numbers.foldr (· + ·) 0

theorem total_cons (n : Int) (numbers : List Int) : total (n :: numbers) = n + total numbers := rfl

theorem total_append (numbers₁ numbers₂ : List Int) :
    total (numbers₁ ++ numbers₂) = total numbers₁ + total numbers₂ := List.sum_append_int

theorem total_perm {numbers₁ numbers₂ : List Int} (h : numbers₁.Perm numbers₂) :
    total numbers₁ = total numbers₂ :=
  h.foldr_eq' (fun a _ b _ n => Int.add_left_comm b a n) 0

/-- Numbers between two others add up to as many times the one at least and the other at most. -/
theorem total_bounds {low high : Int} {numbers : List Int}
    (h : ∀ n ∈ numbers, low ≤ n ∧ n ≤ high) :
    numbers.length * low ≤ total numbers ∧ total numbers ≤ numbers.length * high := by
  induction numbers with
  | nil => simp [total]
  | cons n numbers ih =>
    obtain ⟨hn, hnumbers⟩ := List.forall_mem_cons.mp h
    have hrest := ih hnumbers
    rw [total_cons, List.length_cons, Int.natCast_succ, Int.add_mul, Int.add_mul, Int.one_mul,
      Int.one_mul]
    omega

/-- Something together with the account of how it came about. -/
structure Traced (α : Type) where
  value : α
  trace : String
deriving Repr, DecidableEq

def Traced.map (f : α → β) (t : Traced α) : Traced β := ⟨f t.value, t.trace⟩

/-- A number as an element of a list: its trace is the label, unless that says no more than the
number itself. -/
def Traced.element (t : Traced Int) : Element :=
  ⟨t.value, if t.trace = toString t.value then "" else t.trace⟩

end DiceLang
