import DiceLang.Proofs.Selection
import Mathlib.Data.List.Sort

/-!
# Laws of selections

How selections of the same dice go together. All that a selection settles is which of the kept dice
survive, and it ranks the survivors as it did before (`ThrownDie.ranked_selected`): they are the
first dice in its order, or all but these.

* `ThrownDie.keptValues_selected_perm`: to keep some from one end leaves the same numbers as to drop
  all others from the other end;
* `ThrownDie.splits_selected`: to keep and to drop the same dice splits the kept ones in two;
* `ThrownDie.selected_selected`: a selection after another of the same kind;
* `ThrownDie.select_laws`: these laws, of `select`.
-/

namespace DiceLang

namespace Selection

/-- Chooses the same dice, and drops them instead of the others, or the others instead of them. -/
def complement : Selection → Selection
  | keepHigh => dropHigh
  | keepLow => dropLow
  | dropHigh => keepHigh
  | dropLow => keepLow

/-- Chooses from the other end, and drops instead of keeping, or keeps instead of dropping. -/
def opposite : Selection → Selection
  | keepHigh => dropLow
  | keepLow => dropHigh
  | dropHigh => keepLow
  | dropLow => keepHigh

variable (selection : Selection)

theorem keeps_complement : selection.complement.keeps = !selection.keeps := by
  cases selection <;> rfl

theorem highFirst_complement : selection.complement.highFirst = selection.highFirst := by
  cases selection <;> rfl

theorem keeps_opposite : selection.opposite.keeps = !selection.keeps := by
  cases selection <;> rfl

theorem highFirst_opposite : selection.opposite.highFirst = !selection.highFirst := by
  cases selection <;> rfl

/-- Selections of `n` and of `m`, one after the other, are one of so many: dice that are kept twice
are among the fewer, dice that are dropped add up. -/
def combined (n m : Nat) : Nat := if selection.keeps then min n m else n + m

end Selection

namespace ThrownDie

variable {selection : Selection} {highFirst : Bool} {n m i : Nat} {dice dice' : List ThrownDie}
  {d : ThrownDie} {p : ThrownDie × Nat}

/-! ## The survivors -/

/-- A kept die survives if it is chosen by a selection that keeps what it chooses, or not chosen by
one that drops it. -/
theorem survives_iff : (selected selection n dice)[i]? = some d ∧ d.kept = true ↔
    (dice[i]? = some d ∧ d.kept = true) ∧
      (chosen selection.highFirst n dice).contains i = selection.keeps := by
  constructor
  · rintro ⟨h, hkept⟩
    obtain ⟨hi, hchosen⟩ := of_survives h hkept
    exact ⟨⟨hi, hkept⟩, hchosen⟩
  · rintro ⟨⟨hi, hkept⟩, hchosen⟩
    rw [getElem?_selected hi, hchosen]
    simp [hkept]

theorem mem_survivors_iff (keeps : Bool) :
    p ∈ (if keeps then (ranked highFirst dice).take n else (ranked highFirst dice).drop n) ↔
      p ∈ ranked highFirst dice ∧ (chosen highFirst n dice).contains p.2 = keeps := by
  cases keeps with
  | true =>
    rw [if_pos rfl]
    exact ⟨fun h => ⟨List.mem_of_mem_take h, contains_chosen_of_mem_take h⟩,
      fun ⟨hp, hchosen⟩ => (contains_chosen_iff hp).mp hchosen⟩
  | false =>
    rw [if_neg Bool.false_ne_true]
    refine ⟨fun h => ⟨List.mem_of_mem_drop h, contains_chosen_of_mem_drop h⟩, ?_⟩
    rintro ⟨hp, hleft⟩
    obtain ⟨_, hchosen⟩ | ⟨h, _⟩ := mem_take_or_mem_drop n hp
    · exact absurd (hchosen.symm.trans hleft) (by decide)
    · exact h

/-- The survivors are ranked as before. -/
theorem ranked_selected (selection : Selection) (n : Nat) (dice : List ThrownDie) :
    ranked selection.highFirst (selected selection n dice) =
      if selection.keeps then (ranked selection.highFirst dice).take n
      else (ranked selection.highFirst dice).drop n := by
  -- Both sides are in the order of the selection, so that it is enough to compare their members.
  refine (ranked_pairwise _ _).eq_of_mem_iff ?_ fun p => ?_
  · have hpairs := ranked_pairwise selection.highFirst dice
    split
    · exact hpairs.sublist (List.take_sublist n _)
    · exact hpairs.sublist (List.drop_sublist n _)
  · rw [mem_ranked, survives_iff, mem_survivors_iff, mem_ranked]

/-! ## Keeping from one end, dropping from the other -/

/-- The numbers that the kept dice show. -/
def keptValues (dice : List ThrownDie) : List Int := (dice.filter kept).map value

/-- The same numbers in the order of a selection. -/
def rankedValues (highFirst : Bool) (dice : List ThrownDie) : List Int :=
  (ranked highFirst dice).map fun p => p.1.value

theorem rankedValues_perm (highFirst : Bool) (dice : List ThrownDie) :
    (rankedValues highFirst dice).Perm (keptValues dice) := by
  rw [keptValues, ← map_fst_filter_zipIdx dice 0, List.map_map]
  exact (List.mergeSort_perm _ _).map _

theorem length_rankedValues (highFirst : Bool) (dice : List ThrownDie) :
    (rankedValues highFirst dice).length = dice.countP kept := by
  rw [rankedValues, List.length_map, length_ranked]

/-- What comes before shows no less, or no more. -/
theorem rankedValues_pairwise (highFirst : Bool) (dice : List ThrownDie) :
    (rankedValues highFirst dice).Pairwise fun v w => if highFirst then w ≤ v else v ≤ w := by
  refine List.pairwise_map.mpr ((ranked_pairwise highFirst dice).imp fun {p q} h => ?_)
  unfold Before at h
  cases highFirst <;> simp at h ⊢ <;> omega

/-- From the other end the numbers come the other way round: of equal dice the earlier is first all
the same, but they show one number. -/
theorem rankedValues_not (highFirst : Bool) (dice : List ThrownDie) :
    rankedValues (!highFirst) dice = (rankedValues highFirst dice).reverse := by
  have hlow : (rankedValues false dice).SortedLE := (rankedValues_pairwise false dice).sortedLE
  have hhigh : (rankedValues true dice).SortedGE := (rankedValues_pairwise true dice).sortedGE
  have hperm := (rankedValues_perm false dice).trans (rankedValues_perm true dice).symm
  have heq := hperm.eq_reverse_of_sortedLE_of_sortedGE hlow hhigh
  cases highFirst with
  | true => exact heq
  | false => rw [heq, List.reverse_reverse, Bool.not_false]

theorem keptValues_selected (selection : Selection) (n : Nat) (dice : List ThrownDie) :
    (keptValues (selected selection n dice)).Perm
      (if selection.keeps then (rankedValues selection.highFirst dice).take n
        else (rankedValues selection.highFirst dice).drop n) := by
  refine (rankedValues_perm selection.highFirst _).symm.trans (.of_eq ?_)
  rw [rankedValues, ranked_selected]
  split
  · exact List.map_take
  · exact List.map_drop

/-- Of `a` kept dice, to keep `n` from one end and to drop `a - n` from the other leaves the same
numbers; where there are not `n`, both leave them all. Of equal dice they may leave different ones,
as the earlier is taken first from either end. -/
theorem keptValues_selected_perm (selection : Selection) (n : Nat) (dice : List ThrownDie) :
    (keptValues (selected selection n dice)).Perm
      (keptValues (selected selection.opposite (dice.countP kept - n) dice)) := by
  refine (keptValues_selected selection n dice).trans (.trans ?_ (keptValues_selected _ _ _).symm)
  have hlength := length_rankedValues selection.highFirst dice
  rw [Selection.keeps_opposite, Selection.highFirst_opposite, rankedValues_not]
  cases selection.keeps with
  | true =>
    rw [if_pos rfl, if_neg (by decide), List.drop_reverse, hlength]
    refine (List.Perm.of_eq (List.take_eq_take_iff.mpr ?_)).trans (List.reverse_perm _).symm
    rw [hlength]
    omega
  | false =>
    rw [if_neg Bool.false_ne_true, if_pos (by decide), List.take_reverse, hlength]
    refine (List.Perm.of_eq (List.drop_eq_drop_iff.mpr ?_)).trans (List.reverse_perm _).symm
    rw [hlength]
    omega

/-! ## Keeping and dropping the same dice -/

/-- Each kept die is on one side, on which it is left, and dropped on the other; the dropped dice
are on both as they are. -/
structure Splits (dice left right : List ThrownDie) : Prop where
  length_left : left.length = dice.length
  length_right : right.length = dice.length
  of_kept : ∀ (i : Nat) (d : ThrownDie), dice[i]? = some d → d.kept = true →
    left[i]? = some d ∧ right[i]? = some d.dropped ∨ left[i]? = some d.dropped ∧ right[i]? = some d
  of_dropped : ∀ (i : Nat) (d : ThrownDie), dice[i]? = some d → d.kept = false →
    left[i]? = some d ∧ right[i]? = some d

theorem splits_selected (selection : Selection) (n : Nat) (dice : List ThrownDie) :
    Splits dice (selected selection n dice) (selected selection.complement n dice) where
  length_left := length_selected _ _ _
  length_right := length_selected _ _ _
  of_kept i d hi hkept := by
    rw [getElem?_selected hi, getElem?_selected hi, Selection.highFirst_complement,
      Selection.keeps_complement, hkept]
    cases (chosen selection.highFirst n dice).contains i <;> cases selection.keeps <;> simp
  of_dropped i d hi hdropped := by
    rw [getElem?_selected hi, getElem?_selected hi, hdropped]
    exact ⟨rfl, rfl⟩

/-! ## One selection after another -/

/-- Some of the kept dice are now dropped. -/
structure Thins (dice dice' : List ThrownDie) : Prop where
  length_eq : dice'.length = dice.length
  drops : ∀ (i : Nat) (d : ThrownDie), dice[i]? = some d →
    dice'[i]? = some d ∨ d.kept = true ∧ dice'[i]? = some d.dropped

theorem thins_selected (selection : Selection) (n : Nat) (dice : List ThrownDie) :
    Thins dice (selected selection n dice) :=
  ⟨length_selected selection n dice, fun _ _ => getElem?_selected_or⟩

theorem Thins.trans {dice'' : List ThrownDie} (h : Thins dice dice') (h' : Thins dice' dice'') :
    Thins dice dice'' where
  length_eq := h'.length_eq.trans h.length_eq
  drops i d hi := by
    obtain hi' | ⟨hkept, hi'⟩ := h.drops i d hi
    · exact h'.drops i d hi'
    · obtain hi'' | ⟨hkept', _⟩ := h'.drops i d.dropped hi'
      · exact .inr ⟨hkept, hi''⟩
      · cases hkept'

/-- Which dice survive is all that matters. -/
theorem Thins.eq_of_ranked_eq {left right : List ThrownDie} (hleft : Thins dice left)
    (hright : Thins dice right) (h : ranked highFirst left = ranked highFirst right) :
    left = right := by
  refine List.ext_getElem? fun i => ?_
  by_cases hi : i < dice.length
  · have hd := List.getElem?_eq_getElem hi
    obtain hl | ⟨hkept, hl⟩ := hleft.drops i _ hd <;> obtain hr | ⟨hkept, hr⟩ := hright.drops i _ hd
    · rw [hl, hr]
    · have hsurvives : (dice[i], i) ∈ ranked highFirst left := mem_ranked.mpr ⟨hl, hkept⟩
      rw [h] at hsurvives
      rw [hl, (mem_ranked.mp hsurvives).1]
    · have hsurvives : (dice[i], i) ∈ ranked highFirst right := mem_ranked.mpr ⟨hr, hkept⟩
      rw [← h] at hsurvives
      rw [hr, (mem_ranked.mp hsurvives).1]
    · rw [hl, hr]
  · have hl := hleft.length_eq
    have hr := hright.length_eq
    rw [List.getElem?_eq_none (by omega), List.getElem?_eq_none (by omega)]

theorem selected_selected (selection : Selection) (n m : Nat) (dice : List ThrownDie) :
    selected selection m (selected selection n dice) =
      selected selection (selection.combined n m) dice := by
  have hthins := (thins_selected selection n dice).trans (thins_selected selection m _)
  have hranked : ranked selection.highFirst (selected selection m (selected selection n dice)) =
      ranked selection.highFirst (selected selection (selection.combined n m) dice) := by
    rw [ranked_selected, ranked_selected, ranked_selected, Selection.combined]
    split
    · rw [List.take_take, Nat.min_comm]
    · rw [List.drop_drop]
  exact hthins.eq_of_ranked_eq (thins_selected _ _ _) hranked

/-! ## The laws -/

/-- How `select` of one kind goes together with others, whatever is asked for and whatever the dice
are: with a selection of the rest from the other end, with one that drops what it keeps, and with
another of its own kind. -/
theorem select_laws (selection : Selection) (n m : Nat) (dice : List ThrownDie) :
    (∃ dice₁ dice₂, select selection.word n dice = .ok dice₁ ∧
      select selection.opposite.word (dice.countP kept - n : Nat) dice = .ok dice₂ ∧
      (keptValues dice₁).Perm (keptValues dice₂)) ∧
    (∃ dice₁ dice₂, select selection.word n dice = .ok dice₁ ∧
      select selection.complement.word n dice = .ok dice₂ ∧ Splits dice dice₁ dice₂) ∧
    ∃ dice₁ dice₂, select selection.word n dice = .ok dice₁ ∧
      select selection.word m dice₁ = .ok dice₂ ∧
      select selection.word (selection.combined n m : Nat) dice = .ok dice₂ := by
  refine ⟨⟨_, _, select_eq_selected _ _ _, select_eq_selected _ _ _, ?_⟩,
    ⟨_, _, select_eq_selected _ _ _, select_eq_selected _ _ _, ?_⟩,
    _, _, select_eq_selected _ _ _, select_eq_selected _ _ _, ?_⟩
  · exact keptValues_selected_perm selection n dice
  · exact splits_selected selection n dice
  · rw [selected_selected]
    exact select_eq_selected _ _ _

end ThrownDie

end DiceLang
