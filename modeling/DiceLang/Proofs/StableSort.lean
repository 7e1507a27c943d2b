/-!
# Stable sorting

`List.mergeSort` leaves items that count as equal in the order in which it finds them. Where the
items of a list stand in some order already, the sorted list is therefore in the order that compares
by `le` first and by that order next (`pairwise_mergeSort_stable`). Where items count as equal
because they have one key, this settles the sorted list (`SortedBy`).

* `sortedBy_mergeSort`: a list sorted by a key;
* `SortedBy.eq`: there is only one such list.
-/

namespace DiceLang

variable {α : Type} {le : α → α → Bool} {R : α → α → Prop} {l : List α}

theorem pairwise_mergeSort_stable (trans : ∀ a b c, le a b = true → le b c = true → le a c = true)
    (total : ∀ a b, (le a b || le b a) = true) (h : l.Pairwise R) :
    (l.mergeSort le).Pairwise fun a b => le a b = true ∧ (le b a = true → R a b) := by
  induction l with
  | nil => simp
  | cons a l ih =>
    -- `a` goes before the first item that it is not greater than, and the rest stays as it was.
    obtain ⟨l₁, l₂, hsort, hrest, hless⟩ := List.mergeSort_cons trans total a l
    have hsorted := List.pairwise_mergeSort trans total (a :: l)
    rw [List.pairwise_cons] at h
    have hpairs := ih h.2
    rw [hrest] at hpairs
    rw [hsort] at hsorted ⊢
    rw [List.pairwise_append, List.pairwise_cons] at *
    obtain ⟨hl₁, hl₂, hcross⟩ := hpairs
    refine ⟨hl₁, ⟨fun b hb => ⟨hsorted.2.1.1 b hb, fun _ => h.1 b ?_⟩, hl₂⟩, fun b hb c hc => ?_⟩
    · have hmem : b ∈ l.mergeSort le := hrest ▸ List.mem_append_right l₁ hb
      exact List.mem_mergeSort.mp hmem
    · rcases List.mem_cons.mp hc with rfl | hc
      · have hba := hless b hb
        have hab := total c b
        simp_all
      · exact hcross b hb c hc

/-! ## Sorting by a key -/

/-- `l'` has the items of `l` in ascending order of their keys, and the items of each key in the
order in which `l` has them. -/
structure SortedBy (key : α → Int) (l l' : List α) : Prop where
  perm : l'.Perm l
  ascending : l'.Pairwise fun a b => key a ≤ key b
  stable : ∀ v : Int, (l'.filter fun a => key a = v) = l.filter fun a => key a = v

variable {key : α → Int} {l₁ l₂ : List α}

theorem sortedBy_mergeSort (key : α → Int) (l : List α) :
    SortedBy key l (l.mergeSort fun a b => key a ≤ key b) := by
  have trans : ∀ a b c, decide (key a ≤ key b) = true → decide (key b ≤ key c) = true →
      decide (key a ≤ key c) = true := by
    simp only [decide_eq_true_eq]
    omega
  have total : ∀ a b, (decide (key a ≤ key b) || decide (key b ≤ key a)) = true := by
    simp only [Bool.or_eq_true, decide_eq_true_eq]
    omega
  have hperm := List.mergeSort_perm l fun a b => decide (key a ≤ key b)
  refine ⟨hperm, ?_, fun v => ?_⟩
  · exact (List.pairwise_mergeSort trans total l).imp of_decide_eq_true
  · -- The items of one key are in order as they stand, so that sorting leaves them so.
    have hequal : (l.filter fun a => key a = v).Pairwise
        fun a b => decide (key a ≤ key b) = true := by
      refine List.pairwise_filter.mpr (List.pairwise_of_forall fun a b ha hb => ?_)
      rw [decide_eq_true_iff] at *
      omega
    have hsub := List.sublist_mergeSort trans total hequal List.filter_sublist
    have hfilter := hsub.filter fun a => key a = v
    simp only [List.filter_filter, Bool.and_self] at hfilter
    exact (hfilter.eq_of_length (hperm.filter _).length_eq.symm).symm

theorem key_le_of_mem {a b : α} (h : (a :: l).Pairwise fun a b => key a ≤ key b)
    (hb : b ∈ a :: l) : key a ≤ key b := by
  obtain rfl | hb := List.mem_cons.mp hb
  · exact Int.le_refl _
  · exact (List.pairwise_cons.mp h).1 b hb

theorem filter_eq_of_cons {p : α → Bool} {a : α}
    (h : (a :: l₁).filter p = (a :: l₂).filter p) : l₁.filter p = l₂.filter p := by
  cases hp : p a <;> simpa [hp] using h

/-- An item is found among those of its key. -/
theorem mem_iff_of_filter_eq (h : ∀ v : Int, (l₁.filter fun a => key a = v) =
    l₂.filter fun a => key a = v) (a : α) : a ∈ l₁ ↔ a ∈ l₂ := by
  simpa using congrArg (a ∈ ·) (h (key a))

/-- Two lists in ascending order are equal if they have the same items of each key, in the same
order. -/
theorem eq_of_ascending (h₁ : l₁.Pairwise fun a b => key a ≤ key b)
    (h₂ : l₂.Pairwise fun a b => key a ≤ key b)
    (h : ∀ v : Int, (l₁.filter fun a => key a = v) = l₂.filter fun a => key a = v) : l₁ = l₂ := by
  induction l₁ generalizing l₂ with
  | nil =>
    refine (List.eq_nil_iff_forall_not_mem.mpr fun b hb => ?_).symm
    exact List.not_mem_nil ((mem_iff_of_filter_eq h b).mpr hb)
  | cons a l₁ ih =>
    cases l₂ with
    | nil => exact absurd ((mem_iff_of_filter_eq h a).mp List.mem_cons_self) List.not_mem_nil
    | cons b l₂ =>
      -- Each first item is somewhere in the other list, so that neither has the greater key.
      have hab := key_le_of_mem h₁ ((mem_iff_of_filter_eq h b).mpr List.mem_cons_self)
      have hba := key_le_of_mem h₂ ((mem_iff_of_filter_eq h a).mp List.mem_cons_self)
      have hkey : key a = key b := Int.le_antisymm hab hba
      have hfirst := h (key b)
      rw [List.filter_cons_of_pos (by simpa using hkey),
        List.filter_cons_of_pos (by simp)] at hfirst
      obtain ⟨rfl, -⟩ := List.cons.inj hfirst
      exact congrArg (a :: ·) (ih h₁.of_cons h₂.of_cons fun v => filter_eq_of_cons (h v))

/-- There is only one such list. -/
theorem SortedBy.eq (h₁ : SortedBy key l l₁) (h₂ : SortedBy key l l₂) : l₁ = l₂ :=
  eq_of_ascending h₁.ascending h₂.ascending fun v => (h₁.stable v).trans (h₂.stable v).symm

end DiceLang
