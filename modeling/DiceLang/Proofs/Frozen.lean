import DiceLang.Proofs.Passes
import DiceLang.Proofs.Path
import DiceLang.Proofs.Rank

/-!
# Dropped dice are frozen

No pass touches a die that is dropped, and none draws for it. Taken away beforehand, the dropped
dice are missing from the result, in their places, and nothing else changes: the same faces are
drawn, and the same becomes of the other dice.

* `Interleaves`: a list made of two, each in its order;
* `Pass.apply_frozen`: one pass;
* `Pass.applyAll_frozen`, `Pass.run_frozen`: any passes, and their runs.
-/

namespace DiceLang

open Chance (Path)

/-- `all` holds the items of `xs` and those of `ys`, each in their order. -/
inductive Interleaves {α : Type} : (xs ys all : List α) → Prop
  | nil : Interleaves [] [] []
  | left (x : α) {xs ys all : List α} : Interleaves xs ys all →
      Interleaves (x :: xs) ys (x :: all)
  | right (y : α) {xs ys all : List α} : Interleaves xs ys all →
      Interleaves xs (y :: ys) (y :: all)

namespace Interleaves

variable {α β : Type} {xs ys all : List α}

theorem filter_not (p : α → Bool) (l : List α) :
    Interleaves (l.filter fun a => !p a) (l.filter p) l := by
  induction l with
  | nil => exact .nil
  | cons a l ih =>
    cases h : p a with
    | true =>
      rw [List.filter_cons_of_neg (by simp [h]), List.filter_cons_of_pos h]
      exact ih.right a
    | false =>
      rw [List.filter_cons_of_pos (by simp [h]), List.filter_cons_of_neg (by simp [h])]
      exact ih.left a

theorem filter_eq (h : Interleaves xs ys all) {p : α → Bool} (hxs : ∀ x ∈ xs, p x = false) :
    all.filter p = ys.filter p := by
  induction h with
  | nil => rfl
  | left x _ ih =>
    obtain ⟨hx, hxs⟩ := List.forall_mem_cons.mp hxs
    rw [List.filter_cons_of_neg (by simp [hx]), ih hxs]
  | right y _ ih => rw [List.filter_cons, List.filter_cons, ih hxs]

theorem append_right (h : Interleaves xs ys all) (zs : List α) :
    Interleaves xs (zs ++ ys) (zs ++ all) := by
  induction zs with
  | nil => exact h
  | cons z zs ih => exact ih.right z

theorem map (h : Interleaves xs ys all) (f : α → β) :
    Interleaves (xs.map f) (ys.map f) (all.map f) := by
  induction h with
  | nil => exact .nil
  | left x _ ih => exact ih.left (f x)
  | right y _ ih => exact ih.right (f y)

end Interleaves

/-! ## One pass -/

namespace ThrownDie

variable {frozen others dice dice' : List ThrownDie} {drawn : List Int}

/-- A selection judges a die by the kept dice on either side of it. -/
theorem selectedAfter_frozen (h : Interleaves frozen others dice)
    (hfrozen : ∀ d ∈ frozen, d.kept = false) (selection : Selection) (n : Nat)
    {before before' : List ThrownDie} (hbefore : before.filter kept = before'.filter kept) :
    Interleaves frozen (selectedAfter selection n before' others)
      (selectedAfter selection n before dice) := by
  induction h generalizing before before' with
  | nil => exact .nil
  | left d h ih =>
    obtain ⟨hd, hfrozen⟩ := List.forall_mem_cons.mp hfrozen
    rw [selectedAfter, if_neg (by simp [hd])]
    refine (ih hfrozen ?_).left d
    rw [List.filter_append, hbefore, List.filter_cons_of_neg (by simp [hd])]
    exact List.append_nil _
  | right d h ih =>
    rw [selectedAfter, selectedAfter, rank_congr hbefore (h.filter_eq hfrozen)]
    refine (ih hfrozen ?_).right _
    rw [List.filter_append, List.filter_append, hbefore]

theorem filter_frozen (h : Interleaves frozen others dice)
    (hfrozen : ∀ d ∈ frozen, d.kept = false) (keep : Bool) (hits : Int → Bool) :
    Interleaves frozen (filter keep hits others) (filter keep hits dice) := by
  have hsame : filter keep hits frozen = frozen := by
    refine (List.map_congr_left fun d hd => ?_).trans (List.map_id frozen)
    simp [hfrozen d hd]
  conv => arg 1; rw [← hsame]
  exact h.map _

/-- One computation for each die, which leaves the frozen ones as they are. -/
theorem path_flatMapM_frozen {f : ThrownDie → Throw (List ThrownDie)}
    (hf : ∀ d, d.kept = false → f d = .done [d]) (h : Interleaves frozen others dice)
    (hfrozen : ∀ d ∈ frozen, d.kept = false)
    (hpath : Path (dice.flatMapM f) drawn (.value dice')) : ∃ others',
      Path (others.flatMapM f) drawn (.value others') ∧ Interleaves frozen others' dice' := by
  induction h generalizing drawn dice' with
  | nil =>
    obtain ⟨rfl, hdice'⟩ := Chance.path_done.mp hpath
    obtain rfl := Chance.Ending.value.inj hdice'
    exact ⟨[], .done [], .nil⟩
  | left d h ih =>
    obtain ⟨hd, hfrozen⟩ := List.forall_mem_cons.mp hfrozen
    rw [List.flatMapM_cons, hf d hd, Chance.done_bind, bind_pure_comp,
      Chance.path_map_value] at hpath
    obtain ⟨rest, hrest, rfl⟩ := hpath
    obtain ⟨others', hothers', hrest'⟩ := ih hfrozen hrest
    exact ⟨others', hothers', hrest'.left d⟩
  | right d h ih =>
    rw [List.flatMapM_cons, Chance.path_bind_value] at hpath
    obtain ⟨own, first, last, rfl, hown, hpath⟩ := hpath
    rw [bind_pure_comp, Chance.path_map_value] at hpath
    obtain ⟨rest, hrest, rfl⟩ := hpath
    obtain ⟨others', hothers', hrest'⟩ := ih hfrozen hrest
    refine ⟨own ++ others', ?_, hrest'.append_right own⟩
    rw [List.flatMapM_cons, Chance.path_bind_value]
    refine ⟨own, first, last, rfl, hown, ?_⟩
    rw [bind_pure_comp, Chance.path_map_value]
    exact ⟨others', hothers', rfl⟩

theorem mapM_eq_flatMapM (f : ThrownDie → Throw ThrownDie) (dice : List ThrownDie) :
    dice.mapM f = dice.flatMapM fun d => List.singleton <$> f d := by
  induction dice with
  | nil => rfl
  | cons d dice ih =>
    rw [List.mapM_cons, List.flatMapM_cons, ih, bind_map_left]
    rfl

end ThrownDie

open ThrownDie (kept)

variable {frozen others dice dice' : List ThrownDie} {drawn : List Int}

theorem Pass.apply_frozen (pass : Pass) (h : Interleaves frozen others dice)
    (hfrozen : ∀ d ∈ frozen, d.kept = false)
    (hpath : Path (pass.apply dice) drawn (.value dice')) : ∃ others',
      Path (pass.apply others) drawn (.value others') ∧ Interleaves frozen others' dice' := by
  cases pass with
  | select word n =>
    rw [Pass.apply] at hpath ⊢
    by_cases hn : 0 ≤ n
    · rw [ThrownDie.select_eq word hn, Chance.liftM_ok] at hpath ⊢
      obtain ⟨rfl, hdice'⟩ := Chance.path_done.mp hpath
      obtain rfl := Chance.Ending.value.inj hdice'
      refine ⟨_, .done _, ?_⟩
      rw [ThrownDie.selected_eq, ThrownDie.selected_eq]
      exact ThrownDie.selectedAfter_frozen h hfrozen word.selection n.toNat rfl
    · rw [ThrownDie.select, if_pos (Int.not_le.mp hn), Chance.liftM_error] at hpath
      cases hpath
  | filter keep hits =>
    obtain ⟨rfl, hdice'⟩ := Chance.path_done.mp hpath
    obtain rfl := Chance.Ending.value.inj hdice'
    exact ⟨_, .done _, ThrownDie.filter_frozen h hfrozen keep hits⟩
  | reroll untilClear hits cap =>
    simp only [Pass.apply, ThrownDie.reroll, ThrownDie.mapM_eq_flatMapM] at hpath ⊢
    refine ThrownDie.path_flatMapM_frozen (fun d hd => ?_) h hfrozen hpath
    simp [ThrownDie.rerollOne, hd]
    rfl
  | explode hits cap =>
    refine ThrownDie.path_flatMapM_frozen (fun d hd => ?_) h hfrozen hpath
    simp [ThrownDie.explodeOne, hd]

/-! ## Any passes -/

/-- Passes over dice draw the same and do the same with the others where the frozen ones are
missing. -/
theorem Pass.applyAll_frozen (passes : List Pass) (h : Interleaves frozen others dice)
    (hfrozen : ∀ d ∈ frozen, d.kept = false)
    (hpath : Path (Pass.applyAll passes dice) drawn (.value dice')) : ∃ others',
      Path (Pass.applyAll passes others) drawn (.value others') ∧
        Interleaves frozen others' dice' := by
  induction passes generalizing dice others drawn with
  | nil =>
    obtain ⟨rfl, hdice'⟩ := Chance.path_done.mp hpath
    obtain rfl := Chance.Ending.value.inj hdice'
    exact ⟨others, .done others, h⟩
  | cons pass passes ih =>
    obtain ⟨between, first, last, rfl, hfirst, hlast⟩ := Chance.path_bind_value.mp hpath
    obtain ⟨othersBetween, hfirst', hbetween⟩ := pass.apply_frozen h hfrozen hfirst
    obtain ⟨others', hlast', hresult⟩ := ih hbetween hlast
    exact ⟨others', Chance.path_bind_value.mpr ⟨_, first, last, rfl, hfirst', hlast'⟩, hresult⟩

/-- Where a run makes any passes over any dice, the dice that were dropped lie among the result as
they were, in their order. A run that starts without them draws the same faces, and comes to what is
left of the result. -/
theorem Pass.run_frozen {passes : List Pass} {dice dice' : List ThrownDie} {σ : Type}
    {next? : σ → Option (Int × σ)} {source rest : σ}
    (hrun : (Pass.applyAll passes dice).run next? source = (.value dice', rest)) :
    ∃ drawn others,
      Chance.Takes next? source drawn rest ∧
      Path (Pass.applyAll passes dice) drawn (.value dice') ∧
      Path (Pass.applyAll passes (dice.filter kept)) drawn (.value others) ∧
      (Pass.applyAll passes (dice.filter kept)).run next? source = (.value others, rest) ∧
      Interleaves (dice.filter fun d => !d.kept) others dice' := by
  obtain ⟨drawn, hpath, htakes⟩ := Chance.exists_path_of_run hrun nofun
  obtain ⟨others, hothers, hresult⟩ :=
    Pass.applyAll_frozen passes (.filter_not kept dice) (by simp) hpath
  exact ⟨drawn, others, htakes, hpath, hothers, hothers.run htakes, hresult⟩

/-- Between two dropped dice, a six and a one, another six explodes and adds a six and a one. Of the
ones only this is rerolled, and then all but the sixes are dropped. -/
theorem Pass.run_frozen_rerolled : ∃ dice' others,
    (Pass.applyAll [.explode (· == 6) 3, .reroll true (· == 1) 3, .filter true (· == 6)]
        [⟨6, [], false, false⟩, ⟨6, [], true, false⟩, ⟨1, [3], false, true⟩]).run
      (fun faces => faces.head?.map (·, faces.tail)) [6, 1, 2, 5] = (.value dice', [5]) ∧
    dice' = [⟨6, [], false, false⟩, ⟨6, [], true, true⟩, ⟨6, [], true, true⟩,
      ⟨2, [1], false, false⟩, ⟨1, [3], false, true⟩] ∧
    (Pass.applyAll [.explode (· == 6) 3, .reroll true (· == 1) 3, .filter true (· == 6)]
        [⟨6, [], true, false⟩]).run
      (fun faces => faces.head?.map (·, faces.tail)) [6, 1, 2, 5] = (.value others, [5]) ∧
    Interleaves [⟨6, [], false, false⟩, ⟨1, [3], false, true⟩] others dice' := by
  have hrun : (Pass.applyAll [.explode (· == 6) 3, .reroll true (· == 1) 3, .filter true (· == 6)]
      [⟨6, [], false, false⟩, ⟨6, [], true, false⟩, ⟨1, [3], false, true⟩]).run
        (fun faces => faces.head?.map (·, faces.tail)) [6, 1, 2, 5] =
      (.value [⟨6, [], false, false⟩, ⟨6, [], true, true⟩, ⟨6, [], true, true⟩,
        ⟨2, [1], false, false⟩, ⟨1, [3], false, true⟩], [5]) := rfl
  obtain ⟨_, others, _, _, _, hrun', hresult⟩ := Pass.run_frozen hrun
  exact ⟨_, others, hrun, rfl, hrun', hresult⟩

end DiceLang
