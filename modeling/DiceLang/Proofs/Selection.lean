import DiceLang.Proofs.StableSort
import DiceLang.Thrown

/-!
# Selections of dice

A selection puts the kept dice in an order, by value and then by position (`ThrownDie.Before`), and
takes the first of them. It drops these or all the others, and does nothing else.

* `ThrownDie.ranked_pairwise`: the dice in that order;
* `ThrownDie.selected`: the dice after a selection, `getElem?_selected` one of them;
* `ThrownDie.countP_selected`: how many are kept;
* `ThrownDie.select_selects`: what a selection does.
-/

namespace DiceLang

/-- The selection names the dice that it keeps, not those that it drops. -/
def Selection.keeps : Selection → Bool
  | .keepHigh | .keepLow => true
  | .dropHigh | .dropLow => false

/-- The selection names dice of high value. -/
def Selection.highFirst : Selection → Bool
  | .keepHigh | .dropHigh => true
  | .keepLow | .dropLow => false

/-- A die of value `v` may be kept while one of value `w` is dropped. -/
def Selection.Favours : Selection → Int → Int → Prop
  | .keepHigh, v, w | .dropLow, v, w => w ≤ v
  | .keepLow, v, w | .dropHigh, v, w => v ≤ w

namespace ThrownDie

variable {dice : List ThrownDie} {highFirst : Bool}

/-! ## The order of the kept dice -/

/-- The dice that are kept, each with its position. -/
def keptAt (dice : List ThrownDie) : List (ThrownDie × Nat) :=
  dice.zipIdx.filter fun (d, _) => d.kept

/-- The kept dice in the order in which a selection takes them. -/
def ranked (highFirst : Bool) (dice : List ThrownDie) : List (ThrownDie × Nat) :=
  (keptAt dice).mergeSort fun (a, _) (b, _) =>
    if highFirst then b.value ≤ a.value else a.value ≤ b.value

theorem chosen_eq (n : Nat) : chosen highFirst n dice =
    ((ranked highFirst dice).take n).map Prod.snd := rfl

/-- A selection takes the first die before the second: for its value, or of equal values for its
position. -/
def Before (highFirst : Bool) (p q : ThrownDie × Nat) : Prop :=
  (if highFirst then q.1.value < p.1.value else p.1.value < q.1.value) ∨
    p.1.value = q.1.value ∧ p.2 < q.2

theorem not_before_self (p : ThrownDie × Nat) : ¬ Before highFirst p p := by
  cases highFirst <;> simp [Before]

instance : Std.Asymm (Before highFirst) where
  asymm p q := by
    unfold Before
    cases highFirst <;> simp <;> omega

theorem mem_keptAt {p : ThrownDie × Nat} :
    p ∈ keptAt dice ↔ dice[p.2]? = some p.1 ∧ p.1.kept = true := by
  rw [keptAt, List.mem_filter, List.mem_zipIdx_iff_getElem?]

/-- Without their positions these are the kept dice, wherever the count of positions starts. -/
theorem map_fst_filter_zipIdx (dice : List ThrownDie) (k : Nat) :
    ((dice.zipIdx k).filter fun (d, _) => d.kept).map Prod.fst = dice.filter kept := by
  conv => rhs; rw [← List.zipIdx_map_fst k dice, List.filter_map]
  rfl

theorem keptAt_pairwise (dice : List ThrownDie) :
    (keptAt dice).Pairwise fun p q => p.2 < q.2 := by
  refine List.Pairwise.filter _ (List.pairwise_iff_getElem.mpr fun i j hi hj hij => ?_)
  simpa using hij

theorem mem_ranked {p : ThrownDie × Nat} :
    p ∈ ranked highFirst dice ↔ dice[p.2]? = some p.1 ∧ p.1.kept = true := by
  rw [ranked, List.mem_mergeSort, mem_keptAt]

theorem ranked_pairwise (highFirst : Bool) (dice : List ThrownDie) :
    (ranked highFirst dice).Pairwise (Before highFirst) := by
  refine (pairwise_mergeSort_stable ?_ ?_ (keptAt_pairwise dice)).imp fun {p q} h => ?_
  · intro p q r
    cases highFirst <;> simp <;> omega
  · intro p q
    cases highFirst <;> simp <;> omega
  · unfold Before
    cases highFirst <;> simp at h ⊢ <;> omega

theorem length_ranked (highFirst : Bool) (dice : List ThrownDie) :
    (ranked highFirst dice).length = dice.countP kept := by
  rw [ranked, List.length_mergeSort, List.countP_eq_length_filter, ← map_fst_filter_zipIdx dice 0,
    List.length_map, keptAt]

/-! ## The chosen dice -/

variable {n : Nat} {p : ThrownDie × Nat}

/-- What is taken comes before what is left. -/
theorem before_of_mem {p q : ThrownDie × Nat} (hp : p ∈ (ranked highFirst dice).take n)
    (hq : q ∈ (ranked highFirst dice).drop n) : Before highFirst p q := by
  have h := ranked_pairwise highFirst dice
  rw [← List.take_append_drop n (ranked highFirst dice), List.pairwise_append] at h
  exact h.2.2 p hp q hq

theorem contains_chosen_of_mem_take (hp : p ∈ (ranked highFirst dice).take n) :
    (chosen highFirst n dice).contains p.2 = true := by
  rw [chosen_eq, List.contains_iff_mem]
  exact List.mem_map_of_mem hp

theorem contains_chosen_of_mem_drop (hp : p ∈ (ranked highFirst dice).drop n) :
    (chosen highFirst n dice).contains p.2 = false := by
  rw [chosen_eq, ← Bool.not_eq_true, List.contains_iff_mem]
  intro hmem
  obtain ⟨q, hq, hposition⟩ := List.mem_map.mp hmem
  -- There is one die at the position, and it is not both taken and left.
  have hdie := (mem_ranked.mp (List.mem_of_mem_drop hp)).1
  have hdie' := (mem_ranked.mp (List.mem_of_mem_take hq)).1
  rw [hposition, hdie] at hdie'
  obtain rfl : p = q := Prod.ext (Option.some.inj hdie') hposition.symm
  exact not_before_self p (before_of_mem hq hp)

/-- A kept die is taken, and chosen, or it is left. -/
theorem mem_take_or_mem_drop (n : Nat) (hp : p ∈ ranked highFirst dice) :
    (p ∈ (ranked highFirst dice).take n ∧ (chosen highFirst n dice).contains p.2 = true) ∨
      (p ∈ (ranked highFirst dice).drop n ∧ (chosen highFirst n dice).contains p.2 = false) := by
  rw [← List.take_append_drop n (ranked highFirst dice), List.mem_append] at hp
  exact hp.imp (fun h => ⟨h, contains_chosen_of_mem_take h⟩)
    fun h => ⟨h, contains_chosen_of_mem_drop h⟩

theorem contains_chosen_iff (hp : p ∈ ranked highFirst dice) :
    (chosen highFirst n dice).contains p.2 = true ↔ p ∈ (ranked highFirst dice).take n := by
  refine ⟨fun hchosen => ?_, contains_chosen_of_mem_take⟩
  obtain ⟨h, _⟩ | ⟨_, hleft⟩ := mem_take_or_mem_drop n hp
  · exact h
  · exact absurd (hchosen.symm.trans hleft) (by decide)

/-! ## The dice after a selection -/

/-- The dice after a selection of `n`. -/
def selected (selection : Selection) (n : Nat) (dice : List ThrownDie) : List ThrownDie :=
  dice.zipIdx.map fun (d, i) =>
    if d.kept && (chosen selection.highFirst n dice).contains i != selection.keeps then d.dropped
    else d

variable {selection : Selection} {i j : Nat} {d e : ThrownDie}

theorem select_eq_selected (selection : Selection) (n : Nat) (dice : List ThrownDie) :
    select selection.word n dice = .ok (selected selection n dice) := by
  rw [select, if_neg (by omega), Int.toNat_natCast]
  cases selection <;> rfl

theorem length_selected (selection : Selection) (n : Nat) (dice : List ThrownDie) :
    (selected selection n dice).length = dice.length := by
  rw [selected, List.length_map, List.length_zipIdx]

theorem getElem?_selected (h : dice[i]? = some d) : (selected selection n dice)[i]? =
    some (if d.kept && (chosen selection.highFirst n dice).contains i != selection.keeps
      then d.dropped else d) := by
  simp [selected, h]

theorem getElem?_selected_or (h : dice[i]? = some d) : (selected selection n dice)[i]? = some d ∨
    d.kept = true ∧ (selected selection n dice)[i]? = some d.dropped := by
  rw [getElem?_selected h]
  split
  · rename_i hdrop
    exact .inr ⟨(Bool.and_eq_true_iff.mp hdrop).1, rfl⟩
  · exact .inl rfl

/-- A die that survives was kept before, and it is chosen just if the selection keeps what it
chooses. -/
theorem of_survives (h : (selected selection n dice)[i]? = some d) (hkept : d.kept = true) :
    dice[i]? = some d ∧ (chosen selection.highFirst n dice).contains i = selection.keeps := by
  have hlt : i < dice.length := by
    rw [← length_selected selection n dice]
    exact (List.getElem?_eq_some_iff.mp h).1
  rw [getElem?_selected (List.getElem?_eq_getElem hlt), Option.some_inj] at h
  split at h
  · obtain rfl := h
    cases hkept
  · rename_i hspared
    rw [h] at hspared
    refine ⟨h ▸ List.getElem?_eq_getElem hlt, ?_⟩
    simpa [hkept] using hspared

theorem of_newly_dropped (h : dice[j]? = some e) (hkept : e.kept = true)
    (h' : (selected selection n dice)[j]? = some e.dropped) :
    (chosen selection.highFirst n dice).contains j ≠ selection.keeps := by
  rw [getElem?_selected h, Option.some_inj] at h'
  split at h'
  · rename_i hdropped
    simpa [hkept] using hdropped
  · rw [h'] at hkept
    cases hkept

/-- Of the ranked dice, as many are chosen as are asked for, if there are so many. -/
theorem countP_ranked (highFirst : Bool) (n : Nat) (dice : List ThrownDie) (keeps : Bool) :
    (ranked highFirst dice).countP (fun p => (chosen highFirst n dice).contains p.2 == keeps) =
      if keeps then min n (dice.countP kept) else dice.countP kept - min n (dice.countP kept) := by
  have hlength := length_ranked highFirst dice
  conv => lhs; rw [← List.take_append_drop n (ranked highFirst dice), List.countP_append]
  cases keeps with
  | true =>
    rw [List.countP_eq_length.mpr, List.countP_eq_zero.mpr, List.length_take, hlength, if_pos rfl,
      Nat.add_zero]
    · intro p hp
      rw [contains_chosen_of_mem_drop hp]
      decide
    · intro p hp
      rw [contains_chosen_of_mem_take hp]
      decide
  | false =>
    rw [List.countP_eq_zero.mpr, List.countP_eq_length.mpr, List.length_drop, hlength,
      if_neg Bool.false_ne_true, Nat.zero_add]
    · omega
    · intro p hp
      rw [contains_chosen_of_mem_drop hp]
      decide
    · intro p hp
      rw [contains_chosen_of_mem_take hp]
      decide

theorem countP_selected (selection : Selection) (n : Nat) (dice : List ThrownDie) :
    (selected selection n dice).countP kept =
      if selection.keeps then min n (dice.countP kept)
      else dice.countP kept - min n (dice.countP kept) := by
  rw [← countP_ranked selection.highFirst n dice selection.keeps, ranked,
    (List.mergeSort_perm _ _).countP_eq, keptAt, List.countP_filter, selected, List.countP_map]
  refine List.countP_congr fun p _ => ?_
  obtain ⟨d, i⟩ := p
  simp only [Function.comp]
  split
  · rename_i hdropped
    simp_all [dropped]
  · simp_all

/-! ## What a selection does -/

/-- What a selection of `n` makes of dice. -/
structure Selects (selection : Selection) (n : Nat) (dice dice' : List ThrownDie) : Prop where
  length_eq : dice'.length = dice.length
  /-- The dice stay in their places, and nothing happens to one but that it is dropped. -/
  drops : ∀ (i : Nat) (d : ThrownDie), dice[i]? = some d →
    dice'[i]? = some d ∨ d.kept = true ∧ dice'[i]? = some d.dropped
  countP_kept : dice'.countP kept =
    if selection.keeps then min n (dice.countP kept)
    else dice.countP kept - min n (dice.countP kept)
  /-- A die that survives has a better value than one that is now dropped; or it has the same value,
  and the earlier one is that which the selection names. -/
  favours : ∀ (i j : Nat) (d e : ThrownDie), dice'[i]? = some d → d.kept = true →
    dice[j]? = some e → e.kept = true → dice'[j]? = some e.dropped →
      selection.Favours d.value e.value ∧
        (d.value = e.value → if selection.keeps then i < j else j < i)

theorem favours_of_before {p q : ThrownDie × Nat}
    (h : if selection.keeps then Before selection.highFirst p q
      else Before selection.highFirst q p) : selection.Favours p.1.value q.1.value ∧
        (p.1.value = q.1.value → if selection.keeps then p.2 < q.2 else q.2 < p.2) := by
  cases selection <;> simp [Selection.keeps, Selection.highFirst, Before] at h <;>
    simp [Selection.Favours, Selection.keeps] <;> omega

theorem selects_selected (selection : Selection) (n : Nat) (dice : List ThrownDie) :
    Selects selection n dice (selected selection n dice) where
  length_eq := length_selected selection n dice
  drops _ _ := getElem?_selected_or
  countP_kept := countP_selected selection n dice
  favours i j d e hi hd hj he hj' := by
    obtain ⟨hi, hspared⟩ := of_survives hi hd
    have hdropped := of_newly_dropped hj he hj'
    refine favours_of_before (p := (d, i)) (q := (e, j)) ?_
    have hp : (d, i) ∈ ranked selection.highFirst dice := mem_ranked.mpr ⟨hi, hd⟩
    have hq : (e, j) ∈ ranked selection.highFirst dice := mem_ranked.mpr ⟨hj, he⟩
    obtain ⟨hp, hchosen⟩ | ⟨hp, hchosen⟩ := mem_take_or_mem_drop n hp
    · have hkeeps : selection.keeps = true := hspared.symm.trans hchosen
      obtain ⟨_, hchosen⟩ | ⟨hq, _⟩ := mem_take_or_mem_drop n hq
      · exact absurd (hchosen.trans hkeeps.symm) hdropped
      · rw [if_pos hkeeps]
        exact before_of_mem hp hq
    · have hkeeps : selection.keeps = false := hspared.symm.trans hchosen
      obtain ⟨hq, _⟩ | ⟨_, hchosen⟩ := mem_take_or_mem_drop n hq
      · rw [if_neg (by simp [hkeeps])]
        exact before_of_mem hq hp
      · exact absurd (hchosen.trans hkeeps.symm) hdropped

/-- Whatever is asked for and whatever the dice are, a selection has this result. -/
theorem select_selects (selection : Selection) (n : Nat) (dice : List ThrownDie) :
    ∃ dice', select selection.word n dice = .ok dice' ∧ Selects selection n dice dice' :=
  ⟨_, select_eq_selected selection n dice, selects_selected selection n dice⟩

end ThrownDie

end DiceLang
