import DiceLang.Builtin
import DiceLang.Proofs.StableSort

/-!
# Functions of lists

How the functions that take lists and make lists go together. A list that is put in another order is
measured as before (`Alike`), so that sorting and reversing show in nothing but the order; and what
is taken off a list and what is left of it make up the list.

* `alike_of_perm`: lists with the same elements are measured alike;
* `sorts_sorted`, `reverses_reverse`, `cuts_take_drop`: what the functions make of a list;
* `listFunctions_laws`: the laws, of the functions as they are applied.
-/

namespace DiceLang

variable {limits : Limits} {elements elements' : List Element} {l₁ l₂ : List Int}

/-! ## Measures -/

theorem max?_perm (h : l₁.Perm l₂) : l₁.max? = l₂.max? := by
  refine Option.ext fun n => ?_
  simp only [List.max?_eq_some_iff, h.mem_iff]

theorem min?_perm (h : l₁.Perm l₂) : l₁.min? = l₂.min? := by
  refine Option.ext fun n => ?_
  simp only [List.min?_eq_some_iff, h.mem_iff]

/-- The functions that make a number of a list make the same of both, and fail for both alike. -/
structure Alike (limits : Limits) (elements elements' : List Element) : Prop where
  sum_eq : Builtin.apply limits .sum (elements', ()) = Builtin.apply limits .sum (elements, ())
  length_eq :
    Builtin.apply limits .length (elements', ()) = Builtin.apply limits .length (elements, ())
  maximum_eq :
    Builtin.apply limits .maximum (elements', ()) = Builtin.apply limits .maximum (elements, ())
  minimum_eq :
    Builtin.apply limits .minimum (elements', ()) = Builtin.apply limits .minimum (elements, ())

theorem Builtin.extreme_congr {f : Builtin} {pick : List Int → Option Int}
    (h : pick (elements.map Element.value) = pick (elements'.map Element.value)) :
    extreme f pick elements = extreme f pick elements' := by
  rw [extreme, extreme, h]

theorem alike_of_perm (h : elements'.Perm elements) : Alike limits elements elements' where
  sum_eq := congrArg Except.ok (total_perm (h.map Element.value))
  length_eq := congrArg (fun n : Nat => Except.ok (n : Int)) h.length_eq
  maximum_eq := Builtin.extreme_congr (max?_perm (h.map Element.value))
  minimum_eq := Builtin.extreme_congr (min?_perm (h.map Element.value))

/-! ## Sorting -/

/-- What `sort` makes of a list. -/
structure Sorts (limits : Limits) (elements sorted : List Element) : Prop where
  /-- It is the list in ascending order in which elements of equal value, labels and all, stay in
  order; and there is no other. -/
  sortedBy_iff : ∀ elements' : List Element,
    SortedBy Element.value elements elements' ↔ elements' = sorted
  sort_sorted : Builtin.apply limits .sort (sorted, ()) = .ok sorted
  alike : Alike limits elements sorted
  extremes : elements ≠ [] → ∃ first last, sorted.head? = some first ∧
    sorted.getLast? = some last ∧ Builtin.apply limits .minimum (elements, ()) = .ok first.value ∧
      Builtin.apply limits .maximum (elements, ()) = .ok last.value

theorem Builtin.sorted_of_ascending (h : elements.Pairwise fun a b => a.value ≤ b.value) :
    Builtin.sorted elements = elements :=
  List.mergeSort_of_pairwise (h.imp decide_eq_true)

theorem sortedBy_sorted (elements : List Element) :
    SortedBy Element.value elements (Builtin.sorted elements) :=
  sortedBy_mergeSort Element.value elements

/-- The least value of a list in ascending order comes first. -/
theorem min?_of_ascending (h : elements.Pairwise fun a b => a.value ≤ b.value) :
    (elements.map Element.value).min? = elements.head?.map Element.value := by
  rw [← List.head?_map]
  exact List.min?_eq_head? (List.pairwise_map.mpr (h.imp Int.min_eq_left))

/-- The greatest value of a list in ascending order comes last. -/
theorem max?_of_ascending (h : elements.Pairwise fun a b => a.value ≤ b.value) :
    (elements.map Element.value).max? = elements.getLast?.map Element.value := by
  rw [max?_perm (List.reverse_perm _).symm, ← List.getLast?_map, ← List.head?_reverse]
  refine List.max?_eq_head? (List.pairwise_reverse.mpr (List.pairwise_map.mpr ?_))
  exact h.imp Int.max_eq_left

theorem sorts_sorted (limits : Limits) (elements : List Element) :
    Sorts limits elements (Builtin.sorted elements) where
  sortedBy_iff elements' :=
    ⟨fun h => h.eq (sortedBy_sorted elements), fun h => h ▸ sortedBy_sorted elements⟩
  sort_sorted :=
    congrArg Except.ok (Builtin.sorted_of_ascending (sortedBy_sorted elements).ascending)
  alike := alike_of_perm (sortedBy_sorted elements).perm
  extremes hne := by
    have hperm := (sortedBy_sorted elements).perm
    have hascending := (sortedBy_sorted elements).ascending
    have hne' : Builtin.sorted elements ≠ [] := fun h => hne (List.Perm.nil_eq (h ▸ hperm)).symm
    have halike : Alike limits elements (Builtin.sorted elements) := alike_of_perm hperm
    refine ⟨_, _, List.head?_eq_some_head hne', List.getLast?_eq_some_getLast hne', ?_, ?_⟩
    · rw [← halike.minimum_eq, Builtin.apply, Builtin.extreme, min?_of_ascending hascending,
        List.head?_eq_some_head hne']
      rfl
    · rw [← halike.maximum_eq, Builtin.apply, Builtin.extreme, max?_of_ascending hascending,
        List.getLast?_eq_some_getLast hne']
      rfl

/-! ## Reversing and cutting -/

/-- What `reverse` makes of a list. -/
structure Reverses (limits : Limits) (elements reversed : List Element) : Prop where
  getElem?_eq : ∀ i j, i + j + 1 = elements.length → reversed[i]? = elements[j]?
  reverse_reversed : Builtin.apply limits .reverse (reversed, ()) = .ok elements
  alike : Alike limits elements reversed

theorem reverses_reverse (limits : Limits) (elements : List Element) :
    Reverses limits elements elements.reverse where
  getElem?_eq _ _ := List.getElem?_reverse'
  reverse_reversed := congrArg Except.ok elements.reverse_reverse
  alike := alike_of_perm elements.reverse_perm

theorem Builtin.checkLength_natCast (f : Builtin) (n : Nat) : checkLength f n = .ok n :=
  if_neg (Int.not_lt.mpr (Int.natCast_nonneg n))

/-- What `take` and `drop` make of a list, given the same number. -/
structure Cuts (limits : Limits) (n : Nat) (elements first rest : List Element) : Prop where
  length_first : first.length = min n elements.length
  append_eq : first ++ rest = elements
  sum_add : ∃ a b : Int, Builtin.apply limits .sum (first, ()) = .ok a ∧
    Builtin.apply limits .sum (rest, ()) = .ok b ∧
      Builtin.apply limits .sum (elements, ()) = .ok (a + b)
  length_add : ∃ a b : Int, Builtin.apply limits .length (first, ()) = .ok a ∧
    Builtin.apply limits .length (rest, ()) = .ok b ∧
      Builtin.apply limits .length (elements, ()) = .ok (a + b)

theorem cuts_take_drop (limits : Limits) (n : Nat) (elements : List Element) :
    Cuts limits n elements (elements.take n) (elements.drop n) where
  length_first := List.length_take
  append_eq := List.take_append_drop n elements
  sum_add := by
    refine ⟨_, _, rfl, rfl, congrArg Except.ok ?_⟩
    rw [← total_append, ← List.map_append, List.take_append_drop]
  length_add := by
    refine ⟨_, _, rfl, rfl, congrArg Except.ok ?_⟩
    rw [← Int.natCast_add, ← List.length_append, List.take_append_drop]

/-! ## Ranges -/

theorem Builtin.length_range (low high : Int) :
    (Builtin.range low high).length = (high - low + 1).toNat := by
  rw [Builtin.range, List.length_map, List.length_range]

theorem Builtin.range_ascending (low high : Int) :
    (Builtin.range low high).Pairwise fun a b => a.value ≤ b.value :=
  List.pairwise_map.mpr (List.pairwise_lt_range.imp fun h => by simp; omega)

/-! ## The laws -/

/-- Whatever the list is, `sort`, `reverse`, `take` and `drop` go together so; and a range that is
not refused for its length is in order and as long as its bounds say. -/
theorem listFunctions_laws (limits : Limits) (elements : List Element) :
    (∃ sorted, Builtin.apply limits .sort (elements, ()) = .ok sorted ∧
      Sorts limits elements sorted) ∧
    (∃ reversed, Builtin.apply limits .reverse (elements, ()) = .ok reversed ∧
      Reverses limits elements reversed) ∧
    (∀ n : Nat, ∃ first rest, Builtin.apply limits .take (n, elements, ()) = .ok first ∧
      Builtin.apply limits .drop (n, elements, ()) = .ok rest ∧
        Cuts limits n elements first rest) ∧
    ∀ low high : Int, (limits.maxListLength < high - low + 1 ∧
        Builtin.apply limits .between (low, high, ()) =
          .error (.rangeTooLong limits.maxListLength)) ∨
      ∃ range, Builtin.apply limits .between (low, high, ()) = .ok range ∧
        Builtin.apply limits .sort (range, ()) = .ok range ∧
          (range.length : Int) = max 0 (high - low + 1) := by
  refine ⟨⟨_, rfl, sorts_sorted limits elements⟩, ⟨_, rfl, reverses_reverse limits elements⟩,
    fun n => ⟨_, _, ?_, ?_, cuts_take_drop limits n elements⟩, fun low high => ?_⟩
  · rw [Builtin.apply, Builtin.checkLength_natCast]
    rfl
  · rw [Builtin.apply, Builtin.checkLength_natCast]
    rfl
  · by_cases h : (limits.maxListLength : Int) < high - low + 1
    · exact .inl ⟨h, if_pos h⟩
    · refine .inr ⟨_, if_neg h, ?_, ?_⟩
      · exact congrArg Except.ok (Builtin.sorted_of_ascending (Builtin.range_ascending low high))
      · rw [Builtin.length_range]
        omega

end DiceLang
