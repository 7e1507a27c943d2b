import DiceLang.Proofs.Selection

/-!
# Ranks of dice

Which dice a selection chooses depends on where they lie only through their order: a kept die is
chosen if fewer of the kept dice than are asked for come before it in rank
(`ThrownDie.contains_chosen`). A selection can therefore be read die by die
(`ThrownDie.selected_eq`), from what lies on either side of each.

* `mem_take_iff_countP_lt`: the place of an item in a list that is in order;
* `ThrownDie.rank`: how many of the kept dice come before a die;
* `ThrownDie.select_eq`: any selection, of whatever word.
-/

namespace DiceLang

/-- In a list that is in order, an item is among the first `n` if fewer than `n` come before it. -/
theorem mem_take_iff_countP_lt {α : Type} {R : α → α → Prop} [DecidableRel R] [Std.Asymm R]
    {l : List α} (h : l.Pairwise R) {a : α} (ha : a ∈ l) (n : Nat) :
    a ∈ l.take n ↔ l.countP (fun b => R b a) < n := by
  induction l generalizing n with
  | nil => cases ha
  | cons b l ih =>
    obtain ⟨hb, hl⟩ := List.pairwise_cons.mp h
    cases n with
    | zero => simp
    | succ n =>
      obtain rfl | ha' := List.mem_cons.mp ha
      · have hnone : (a :: l).countP (fun c => R c a) = 0 := by
          refine List.countP_eq_zero.mpr fun c hc => ?_
          obtain rfl | hc := List.mem_cons.mp hc
          · simpa using fun hself => Std.Asymm.asymm c c hself hself
          · simpa using Std.Asymm.asymm a c (hb c hc)
        simp [hnone]
      · have hne : a ≠ b := by
          rintro rfl
          exact Std.Asymm.asymm a a (hb a ha') (hb a ha')
        rw [List.take_succ_cons, List.mem_cons, or_iff_right hne, ih hl ha',
          List.countP_cons_of_pos (by simpa using hb a ha'), Nat.succ_lt_succ_iff]

namespace ThrownDie

variable {highFirst : Bool} {n : Nat} {d : ThrownDie} {before after dice : List ThrownDie}

instance : DecidableRel (Before highFirst) := fun p q =>
  inferInstanceAs (Decidable ((if highFirst then q.1.value < p.1.value
    else p.1.value < q.1.value) ∨ p.1.value = q.1.value ∧ p.2 < q.2))

/-! ## Ranks -/

/-- How many of the kept dice come before a die of value `v` that lies between the two lists: on
its left those of equal or better value, on its right those of better value. -/
def rank (highFirst : Bool) (v : Int) (before after : List ThrownDie) : Nat :=
  (before.filter kept).countP (fun e => if highFirst then v ≤ e.value else e.value ≤ v) +
    (after.filter kept).countP fun e => if highFirst then v < e.value else e.value < v

/-- Dropped dice do not count. -/
theorem rank_congr {before' after' : List ThrownDie}
    (hbefore : before.filter kept = before'.filter kept)
    (hafter : after.filter kept = after'.filter kept) (highFirst : Bool) (v : Int) :
    rank highFirst v before after = rank highFirst v before' after' := by
  rw [rank, rank, hbefore, hafter]

/-- Where the position does not matter, the kept dice may be counted without theirs. -/
theorem countP_filter_zipIdx {P : ThrownDie × Nat → Bool} {Q : ThrownDie → Bool} {k : Nat}
    (h : ∀ q ∈ dice.zipIdx k, P q = Q q.1) :
    ((dice.zipIdx k).filter fun (d, _) => d.kept).countP P = (dice.filter kept).countP Q := by
  rw [← map_fst_filter_zipIdx dice k, List.countP_map]
  refine List.countP_congr fun q hq => ?_
  rw [h q (List.mem_filter.mp hq).1]
  rfl

/-- A die comes before another if its value is better, or equal where it lies on the left. -/
theorem countP_before (highFirst : Bool) (hkept : d.kept = true)
    (before after : List ThrownDie) : (ranked highFirst (before ++ d :: after)).countP
      (fun q => Before highFirst q (d, before.length)) = rank highFirst d.value before after := by
  rw [ranked, (List.mergeSort_perm _ _).countP_eq, keptAt, List.zipIdx_append, List.filter_append,
    List.countP_append, Nat.zero_add, List.zipIdx_cons, List.filter_cons_of_pos (by exact hkept),
    List.countP_cons_of_neg (by simpa using not_before_self _), rank]
  congr 1
  · refine countP_filter_zipIdx fun q hq => ?_
    have hposition := (List.mem_zipIdx hq).2.1
    rw [Bool.eq_iff_iff, decide_eq_true_iff]
    unfold Before
    cases highFirst <;> simp <;> omega
  · refine countP_filter_zipIdx fun q hq => ?_
    have hposition := (List.mem_zipIdx hq).1
    rw [Bool.eq_iff_iff, decide_eq_true_iff]
    unfold Before
    cases highFirst <;> simp <;> omega

/-- A kept die is chosen if fewer than are asked for come before it. -/
theorem contains_chosen (highFirst : Bool) (n : Nat) (hkept : d.kept = true)
    (before after : List ThrownDie) :
    (chosen highFirst n (before ++ d :: after)).contains before.length =
      decide (rank highFirst d.value before after < n) := by
  have hmem : (d, before.length) ∈ ranked highFirst (before ++ d :: after) :=
    mem_ranked.mpr ⟨by simp, hkept⟩
  rw [Bool.eq_iff_iff, contains_chosen_iff hmem,
    mem_take_iff_countP_lt (ranked_pairwise highFirst _) hmem, countP_before highFirst hkept,
    decide_eq_true_iff]

/-! ## Selections, die by die -/

/-- The dice after a selection of `n`, given those that lie to the left of them. -/
def selectedAfter (selection : Selection) (n : Nat) : (before : List ThrownDie) →
    List ThrownDie → List ThrownDie
  | _, [] => []
  | before, d :: after =>
    (if d.kept && decide (rank selection.highFirst d.value before after < n) != selection.keeps
      then d.dropped else d) :: selectedAfter selection n (before ++ [d]) after

theorem map_zipIdx_eq_selectedAfter (selection : Selection) (n : Nat)
    (before after : List ThrownDie) :
    (after.zipIdx before.length).map (fun (d, i) =>
      if d.kept && (chosen selection.highFirst n (before ++ after)).contains i != selection.keeps
        then d.dropped else d) = selectedAfter selection n before after := by
  induction after generalizing before with
  | nil => rfl
  | cons d after ih =>
    rw [List.zipIdx_cons, List.map_cons, selectedAfter]
    congr 1
    · by_cases hkept : d.kept = true
      · simp only [contains_chosen selection.highFirst n hkept]
      · simp [hkept]
    · have hrest := ih (before ++ [d])
      rwa [List.length_append, List.append_assoc] at hrest

theorem selected_eq (selection : Selection) (n : Nat) (dice : List ThrownDie) :
    selected selection n dice = selectedAfter selection n [] dice :=
  map_zipIdx_eq_selectedAfter selection n [] dice

end ThrownDie

/-- What a modifier's word selects: all words but four drop the lowest. -/
def ModifierWord.selection : ModifierWord → Selection
  | .keepHigh => .keepHigh
  | .keepLow => .keepLow
  | .dropHigh => .dropHigh
  | .dropLow | .keepWhere | .dropWhere | .reroll | .rerollUntil | .explode => .dropLow

theorem ThrownDie.select_eq (word : ModifierWord) {n : Int} (hn : 0 ≤ n) (dice : List ThrownDie) :
    select word n dice = .ok (selected word.selection n.toNat dice) := by
  rw [select, if_neg (Int.not_lt.mpr hn)]
  cases word <;> rfl

end DiceLang
