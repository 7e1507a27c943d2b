import DiceLang.Proofs.Path
import DiceLang.Thrown

/-!
# Streaks

A die that is rerolled until it is clear and a die that explodes draw the same faces: one after
another as long as they match, up to the first that does not (`ThrownDie.drawsUntilClear`). They are
told apart only by what becomes of the faces, a history or new dice. If as many faces as the cap
allows have been drawn and all of them match, the die is stuck.

* `ThrownDie.path_facesFor_value`, `ThrownDie.path_facesFor_failed`: the faces drawn for a die;
* `ThrownDie.reroll_runsTo`: the runs of a reroll;
* `ThrownDie.explode_runsTo`: the runs of an explosion.
-/

namespace DiceLang

open Chance (Path ComesTo allDrawn)

namespace ThrownDie

variable {hits : Int → Bool} {cap left : Nat} {v : Int} {d : ThrownDie} {dice : List ThrownDie}
  {drawn faces : List Int} {e e' : EvalError}

/-- The die is kept and its value matches. -/
def Matches (hits : Int → Bool) (d : ThrownDie) : Prop := d.kept = true ∧ hits d.value = true

theorem matches_iff : (d.kept && hits d.value) = true ↔ d.Matches hits := Bool.and_eq_true_iff

/-- Faces that match and then one that does not, at most `cap` in all. -/
structure Streak (hits : Int → Bool) (cap : Nat) (matching : List Int) (last : Int) : Prop where
  hits_of_mem : ∀ v ∈ matching, hits v = true
  clear : hits last = false
  length_lt : matching.length < cap

/-- As many faces as the cap allows, and all of them match. -/
structure Stuck (hits : Int → Bool) (cap : Nat) (drawn : List Int) : Prop where
  hits_of_mem : ∀ v ∈ drawn, hits v = true
  length_eq : drawn.length = cap

theorem not_streak_zero {matching : List Int} {last : Int} : ¬ Streak hits 0 matching last :=
  fun h => Nat.not_lt_zero _ h.length_lt

theorem streak_succ_nil {last : Int} : Streak hits (left + 1) [] last ↔ hits last = false :=
  ⟨Streak.clear, fun h => ⟨List.forall_mem_nil _, h, Nat.succ_pos left⟩⟩

theorem streak_succ_cons {matching : List Int} {last : Int} :
    Streak hits (left + 1) (v :: matching) last ↔
      hits v = true ∧ Streak hits left matching last := by
  constructor
  · rintro ⟨hmatching, hlast, hlength⟩
    obtain ⟨hv, hmatching⟩ := List.forall_mem_cons.mp hmatching
    exact ⟨hv, hmatching, hlast, Nat.lt_of_succ_lt_succ hlength⟩
  · rintro ⟨hv, hmatching, hlast, hlength⟩
    exact ⟨List.forall_mem_cons.mpr ⟨hv, hmatching⟩, hlast, Nat.succ_lt_succ hlength⟩

theorem stuck_zero : Stuck hits 0 drawn ↔ drawn = [] :=
  ⟨fun h => List.length_eq_zero_iff.mp h.length_eq, fun h => h ▸ ⟨List.forall_mem_nil _, rfl⟩⟩

theorem stuck_succ : Stuck hits (left + 1) drawn ↔
    ∃ v rest, drawn = v :: rest ∧ hits v = true ∧ Stuck hits left rest := by
  constructor
  · rintro ⟨hdrawn, hlength⟩
    obtain ⟨v, rest, rfl⟩ := List.exists_cons_of_length_eq_add_one hlength
    obtain ⟨hv, hrest⟩ := List.forall_mem_cons.mp hdrawn
    exact ⟨v, rest, rfl, hv, hrest, Nat.succ.inj hlength⟩
  · rintro ⟨v, rest, rfl, hv, hrest, hlength⟩
    exact ⟨List.forall_mem_cons.mpr ⟨hv, hrest⟩, congrArg Nat.succ hlength⟩

/-! ## The faces drawn for a die -/

/-- Draws faces after one that shows `v`, up to the first that does not match, `left` at most. -/
def drawsUntilClear (hits : Int → Bool) (e : EvalError) : (left : Nat) → (v : Int) →
    Throw (List Int)
  | 0, v => if hits v then .failed e else .done []
  | left + 1, v =>
    if hits v then .draw fun face => (face :: ·) <$> drawsUntilClear hits e left face
    else .done []

theorem drawsUntilClear_of_clear (h : hits v = false) :
    drawsUntilClear hits e left v = .done [] := by
  cases left <;> simp [drawsUntilClear, h]

theorem path_drawsUntilClear_value (hv : hits v = true) :
    Path (drawsUntilClear hits e left v) drawn (.value faces) ↔
      ∃ matching last, Streak hits left matching last ∧ drawn = matching ++ [last] ∧
        faces = drawn := by
  induction left generalizing v drawn faces with
  | zero => simp [drawsUntilClear, hv, not_streak_zero]
  | succ left ih =>
    simp only [drawsUntilClear, hv, if_true, Chance.path_draw, Chance.path_map_value]
    constructor
    · rintro ⟨face, _, rfl, _, hpath, rfl⟩
      by_cases hface : hits face = true
      · obtain ⟨matching, last, hstreak, rfl, rfl⟩ := (ih hface).mp hpath
        exact ⟨face :: matching, last, streak_succ_cons.mpr ⟨hface, hstreak⟩, rfl, rfl⟩
      · rw [Bool.not_eq_true] at hface
        rw [drawsUntilClear_of_clear hface, Chance.path_done] at hpath
        obtain ⟨rfl, hfaces⟩ := hpath
        exact ⟨[], face, streak_succ_nil.mpr hface, rfl, by rw [Chance.Ending.value.inj hfaces]⟩
    · rintro ⟨matching, last, hstreak, rfl, rfl⟩
      cases matching with
      | nil =>
        refine ⟨last, [], rfl, [], ?_, rfl⟩
        rw [drawsUntilClear_of_clear (streak_succ_nil.mp hstreak)]
        exact .done []
      | cons face matching =>
        obtain ⟨hface, hstreak⟩ := streak_succ_cons.mp hstreak
        exact ⟨face, _, rfl, _, (ih hface).mpr ⟨matching, last, hstreak, rfl, rfl⟩, rfl⟩

theorem path_drawsUntilClear_failed : Path (drawsUntilClear hits e left v) drawn (.failed e') ↔
    e' = e ∧ hits v = true ∧ Stuck hits left drawn := by
  induction left generalizing v drawn with
  | zero => by_cases hv : hits v = true <;> simp [drawsUntilClear, hv, stuck_zero, and_comm]
  | succ left ih =>
    by_cases hv : hits v = true
    · simp only [drawsUntilClear, hv, if_true, Chance.path_draw, Chance.path_map_failed, ih,
        stuck_succ]
      constructor
      · rintro ⟨face, rest, rfl, rfl, hface, hstuck⟩
        exact ⟨rfl, trivial, face, rest, rfl, hface, hstuck⟩
      · rintro ⟨rfl, -, face, rest, rfl, hface, hstuck⟩
        exact ⟨face, rest, rfl, rfl, hface, hstuck⟩
    · simp [drawsUntilClear, hv]

/-- The faces drawn for one die: none if it is dropped or does not match. -/
def facesFor (hits : Int → Bool) (e : EvalError) (cap : Nat) (d : ThrownDie) : Throw (List Int) :=
  if d.kept then drawsUntilClear hits e cap d.value else .done []

theorem facesFor_of_not_matches (h : ¬ d.Matches hits) : facesFor hits e cap d = .done [] := by
  by_cases hkept : d.kept = true
  · have hclear : hits d.value = false := by
      rw [← Bool.not_eq_true]
      exact fun hhits => h ⟨hkept, hhits⟩
    rw [facesFor, if_pos hkept, drawsUntilClear_of_clear hclear]
  · rw [facesFor, if_neg hkept]

theorem path_facesFor_value : Path (facesFor hits e cap d) drawn (.value faces) ↔
    ¬ d.Matches hits ∧ drawn = [] ∧ faces = [] ∨ d.Matches hits ∧ ∃ matching last,
      Streak hits cap matching last ∧ drawn = matching ++ [last] ∧ faces = drawn := by
  by_cases h : d.Matches hits
  · rw [facesFor, if_pos h.1, path_drawsUntilClear_value h.2]
    simp [h]
  · simp [facesFor_of_not_matches h, h]

theorem path_facesFor_failed : Path (facesFor hits e cap d) drawn (.failed e') ↔
    e' = e ∧ d.Matches hits ∧ Stuck hits cap drawn := by
  by_cases h : d.Matches hits
  · rw [facesFor, if_pos h.1, path_drawsUntilClear_failed]
    simp [h, h.2]
  · simp [facesFor_of_not_matches h, h]

section

variable {β : Type} {b : β}

/-- What is made of a die is made of the faces that are drawn for it. -/
theorem path_map_facesFor {g : List Int → β} :
    Path (g <$> facesFor hits e cap d) drawn (.value b) ↔
      ¬ d.Matches hits ∧ drawn = [] ∧ b = g [] ∨
        d.Matches hits ∧ ∃ matching last, Streak hits cap matching last ∧
          drawn = matching ++ [last] ∧ b = g (matching ++ [last]) := by
  simp only [Chance.path_map_value, path_facesFor_value]
  constructor
  · rintro ⟨_, ⟨h, rfl, rfl⟩ | ⟨h, matching, last, hstreak, rfl, rfl⟩, rfl⟩
    · exact .inl ⟨h, rfl, rfl⟩
    · exact .inr ⟨h, matching, last, hstreak, rfl, rfl⟩
  · rintro (⟨h, rfl, rfl⟩ | ⟨h, matching, last, hstreak, rfl, rfl⟩)
    · exact ⟨[], .inl ⟨h, rfl, rfl⟩, rfl⟩
    · exact ⟨_, .inr ⟨h, matching, last, hstreak, rfl, rfl⟩, rfl⟩

/-- On the way through the dice one of them is stuck, after those before it have come to the results
that `R` tells of. -/
def GetsStuck (R : ThrownDie → β × List Int → Prop) (hits : Int → Bool) (cap : Nat)
    (dice : List ThrownDie) (drawn : List Int) : Prop :=
  ∃ before d after results stuck, dice = before ++ d :: after ∧ List.Forall₂ R before results ∧
    d.Matches hits ∧ Stuck hits cap stuck ∧ drawn = allDrawn results ++ stuck

theorem getsStuck_iff {R : ThrownDie → β × List Int → Prop} {g : ThrownDie → List Int → β} :
    (∃ before d after results own, dice = before ++ d :: after ∧ List.Forall₂ R before results ∧
      Path (g d <$> facesFor hits e cap d) own (.failed e') ∧ drawn = allDrawn results ++ own) ↔
      e' = e ∧ GetsStuck R hits cap dice drawn := by
  simp only [Chance.path_map_failed, path_facesFor_failed]
  constructor
  · rintro ⟨before, d, after, results, own, hdice, hresults, ⟨rfl, hd, hstuck⟩, hdrawn⟩
    exact ⟨rfl, before, d, after, results, own, hdice, hresults, hd, hstuck, hdrawn⟩
  · rintro ⟨rfl, before, d, after, results, own, hdice, hresults, hd, hstuck, hdrawn⟩
    exact ⟨before, d, after, results, own, hdice, hresults, ⟨rfl, hd, hstuck⟩, hdrawn⟩

end

/-! ## Rerolls -/

/-- The die after rerolls that show these faces. -/
def rerolledBy (d : ThrownDie) (faces : List Int) : ThrownDie := faces.foldl rerolled d

theorem rerolledBy_concat (d : ThrownDie) (matching : List Int) (last : Int) :
    d.rerolledBy (matching ++ [last]) =
      { d with value := last, discarded := d.discarded ++ d.value :: matching } := by
  induction matching generalizing d with
  | nil => rfl
  | cons face matching ih =>
    refine (ih (d.rerolled face)).trans ?_
    simp [rerolled]

theorem rerollUntilClear_eq (hits : Int → Bool) (cap left : Nat) (d : ThrownDie) :
    rerollUntilClear hits cap left d =
      d.rerolledBy <$> drawsUntilClear hits (.stillMatching cap) left d.value := by
  induction left generalizing d with
  | zero =>
    rw [rerollUntilClear, drawsUntilClear]
    split <;> rfl
  | succ left ih =>
    rw [rerollUntilClear, drawsUntilClear]
    split
    · simp only [ih, Chance.map_draw, Functor.map_map]
      rfl
    · rfl

theorem rerollOne_eq (hits : Int → Bool) (cap : Nat) (d : ThrownDie) :
    rerollOne true hits cap d = d.rerolledBy <$> facesFor hits (.stillMatching cap) cap d := by
  by_cases h : d.Matches hits
  · rw [rerollOne, if_pos (matches_iff.mpr h), if_pos rfl, facesFor, if_pos h.1]
    exact rerollUntilClear_eq hits cap cap d
  · rw [rerollOne, if_neg (h ∘ matches_iff.mp), facesFor_of_not_matches h]
    rfl

/-- A die that is rerolled until it is clear, and the faces drawn for it: a kept die that matches
ends on the last of them, and remembers all that it has shown before. -/
inductive Cleared (hits : Int → Bool) (cap : Nat) : ThrownDie → ThrownDie × List Int → Prop
  | spared {d : ThrownDie} : ¬ d.Matches hits → Cleared hits cap d (d, [])
  | rerolled {d : ThrownDie} {matching : List Int} {last : Int} : d.Matches hits →
      Streak hits cap matching last → Cleared hits cap d
        ({ d with value := last, discarded := d.discarded ++ d.value :: matching },
          matching ++ [last])

/-- A die that is rerolled once, and the face drawn for it: it may match or not. -/
inductive RerolledOnce (hits : Int → Bool) : ThrownDie → ThrownDie × List Int → Prop
  | spared {d : ThrownDie} : ¬ d.Matches hits → RerolledOnce hits d (d, [])
  | rerolled {d : ThrownDie} (face : Int) : d.Matches hits → RerolledOnce hits d
      ({ d with value := face, discarded := d.discarded ++ [d.value] }, [face])

theorem rerollOne_comesTo (hits : Int → Bool) (cap : Nat) :
    ComesTo (rerollOne true hits cap) (Cleared hits cap) := by
  rintro d ⟨d', own⟩
  rw [rerollOne_eq, path_map_facesFor]
  constructor
  · rintro (⟨h, rfl, rfl⟩ | ⟨h, matching, last, hstreak, rfl, rfl⟩)
    · exact .spared h
    · rw [rerolledBy_concat]
      exact .rerolled h hstreak
  · rintro (h | ⟨h, hstreak⟩)
    · exact .inl ⟨h, rfl, rfl⟩
    · exact .inr ⟨h, _, _, hstreak, rfl, (rerolledBy_concat d _ _).symm⟩

theorem rerollOne_once_comesTo (hits : Int → Bool) (cap : Nat) :
    ComesTo (rerollOne false hits cap) (RerolledOnce hits) := by
  rintro d ⟨d', own⟩
  by_cases h : d.Matches hits
  · rw [rerollOne, if_pos (matches_iff.mpr h), if_neg Bool.false_ne_true]
    constructor
    · intro hpath
      obtain ⟨face, _, rfl, hpath⟩ := Chance.path_draw.mp hpath
      obtain ⟨rfl, hd'⟩ := Chance.path_done.mp hpath
      obtain rfl := Chance.Ending.value.inj hd'
      exact .rerolled face h
    · rintro (hspared | face)
      · exact absurd h hspared
      · exact .draw face (.done _)
  · rw [rerollOne, if_neg (h ∘ matches_iff.mp)]
    constructor
    · intro hpath
      obtain ⟨rfl, hd'⟩ := Chance.path_done.mp hpath
      obtain rfl := Chance.Ending.value.inj hd'
      exact .spared h
    · rintro (_ | ⟨_, hmatches⟩)
      · exact .done d
      · exact absurd hmatches h

theorem rerollOne_once_not_failed : ¬ Path (rerollOne false hits cap d) drawn (.failed e) := by
  unfold rerollOne
  split <;> simp

theorem path_reroll_value {untilClear : Bool} {R : ThrownDie → ThrownDie × List Int → Prop}
    {dice' : List ThrownDie} (h : ComesTo (rerollOne untilClear hits cap) R) :
    Path (reroll untilClear hits cap dice) drawn (.value dice') ↔ dice'.length = dice.length ∧
      ∃ results, List.Forall₂ R dice results ∧ dice' = results.map Prod.fst ∧
        drawn = allDrawn results := by
  rw [reroll, Chance.path_mapM_value h]
  constructor
  · rintro ⟨results, hresults, rfl, rfl⟩
    refine ⟨?_, results, hresults, rfl, rfl⟩
    rw [List.length_map, hresults.length_eq]
  · exact And.right

/-- The runs of a reroll. Until they are clear, the kept dice that match are rerolled one after the
other; the run fails just where one of them gets stuck, and otherwise its draws are those of the
dice, in order. Once only, a face is drawn for each of these dice, and nothing fails. -/
theorem reroll_runsTo (hits : Int → Bool) (cap : Nat) (dice : List ThrownDie) {σ : Type}
    (next? : σ → Option (Int × σ)) (source : σ) :
    (reroll true hits cap dice).RunsTo next? source
      (fun dice' drawn => dice'.length = dice.length ∧ ∃ results,
        List.Forall₂ (Cleared hits cap) dice results ∧ dice' = results.map Prod.fst ∧
          drawn = allDrawn results)
      (fun e drawn => e = .stillMatching cap ∧ e.kind = .rerollCapExceeded ∧
        GetsStuck (Cleared hits cap) hits cap dice drawn) ∧
    (reroll false hits cap dice).RunsTo next? source
      (fun dice' drawn => dice'.length = dice.length ∧ ∃ results,
        List.Forall₂ (RerolledOnce hits) dice results ∧ dice' = results.map Prod.fst ∧
          drawn = allDrawn results)
      fun _ _ => False := by
  constructor
  · refine Chance.runsTo_of_path (fun dice' drawn => ?_) (fun e drawn => ?_) next? source
    · exact path_reroll_value (rerollOne_comesTo hits cap)
    · rw [reroll, Chance.path_mapM_failed (rerollOne_comesTo hits cap)]
      simp only [rerollOne_eq, getsStuck_iff]
      constructor
      · rintro ⟨rfl, hstuck⟩
        exact ⟨rfl, rfl, hstuck⟩
      · rintro ⟨rfl, -, hstuck⟩
        exact ⟨rfl, hstuck⟩
  · refine Chance.runsTo_of_path (fun dice' drawn => ?_) (fun e drawn => ?_) next? source
    · exact path_reroll_value (rerollOne_once_comesTo hits cap)
    · rw [reroll, Chance.path_mapM_failed (rerollOne_once_comesTo hits cap)]
      simp [rerollOne_once_not_failed]

/-- With a cap of two, two matching faces are one too many, though the next would be clear. -/
example : (reroll true (· == 1) 2 [⟨1, [], true, false⟩]).run
    (fun faces => faces.head?.map (·, faces.tail)) [1, 1, 5] =
      (.failed (.stillMatching 2), [5]) := rfl

/-! ## Explosions -/

/-- The die and the dice that it adds when these faces are drawn. -/
def explodedInto : ThrownDie → List Int → List ThrownDie
  | d, [] => [d]
  | d, face :: faces => { d with exploded := true } :: explodedInto { value := face } faces

theorem explodedInto_concat (d : ThrownDie) (matching : List Int) (last : Int) :
    d.explodedInto (matching ++ [last]) = { d with exploded := true } ::
      (matching.map (fun v => { value := v, exploded := true }) ++ [{ value := last }]) := by
  induction matching generalizing d with
  | nil => rfl
  | cons face matching ih => exact congrArg _ (ih { value := face })

theorem chain_eq (hits : Int → Bool) (cap left : Nat) (d : ThrownDie) : chain hits cap left d =
    d.explodedInto <$> drawsUntilClear hits (.stillExploding cap) left d.value := by
  induction left generalizing d with
  | zero =>
    rw [chain, drawsUntilClear]
    split <;> rfl
  | succ left ih =>
    rw [chain, drawsUntilClear]
    split
    · simp only [ih, Chance.map_draw, Functor.map_map]
      rfl
    · rfl

theorem explodeOne_eq (hits : Int → Bool) (cap : Nat) (d : ThrownDie) :
    explodeOne hits cap d = d.explodedInto <$> facesFor hits (.stillExploding cap) cap d := by
  unfold explodeOne facesFor
  split
  · exact chain_eq hits cap cap d
  · rfl

/-- A die that explodes, and the faces drawn for it: a kept die that matches is marked, and the
faces lie next to it as new dice, all but the last marked as well. -/
inductive Exploded (hits : Int → Bool) (cap : Nat) : ThrownDie → List ThrownDie × List Int → Prop
  | spared {d : ThrownDie} : ¬ d.Matches hits → Exploded hits cap d ([d], [])
  | exploded {d : ThrownDie} {matching : List Int} {last : Int} : d.Matches hits →
      Streak hits cap matching last → Exploded hits cap d
        ({ d with exploded := true } :: (matching.map (fun v => ⟨v, [], true, true⟩) ++
          [⟨last, [], true, false⟩]), matching ++ [last])

theorem explodeOne_comesTo (hits : Int → Bool) (cap : Nat) :
    ComesTo (explodeOne hits cap) (Exploded hits cap) := by
  rintro d ⟨dice, own⟩
  rw [explodeOne_eq, path_map_facesFor]
  constructor
  · rintro (⟨h, rfl, rfl⟩ | ⟨h, matching, last, hstreak, rfl, rfl⟩)
    · exact .spared h
    · rw [explodedInto_concat]
      exact .exploded h hstreak
  · rintro (h | ⟨h, hstreak⟩)
    · exact .inl ⟨h, rfl, rfl⟩
    · exact .inr ⟨h, _, _, hstreak, rfl, (explodedInto_concat d _ _).symm⟩

/-- Each die adds as many as faces are drawn for it. -/
theorem Exploded.length_eq {r : List ThrownDie × List Int} (h : Exploded hits cap d r) :
    r.1.length = 1 + r.2.length := by
  cases h with
  | spared => rfl
  | exploded => simp; omega

theorem length_flatMap_of_exploded {results : List (List ThrownDie × List Int)}
    (h : List.Forall₂ (Exploded hits cap) dice results) :
    (results.flatMap Prod.fst).length = dice.length + (allDrawn results).length := by
  induction h with
  | nil => rfl
  | cons hd _ ih =>
    have hlength := hd.length_eq
    simp only [allDrawn, List.flatMap_cons, List.length_append, List.length_cons] at ih ⊢
    omega

/-- The runs of an explosion. The kept dice that match explode one after the other; the run fails
just where one of them gets stuck, and otherwise its draws are those of the dice, in order, and
there is a new die for each of them. -/
theorem explode_runsTo (hits : Int → Bool) (cap : Nat) (dice : List ThrownDie) {σ : Type}
    (next? : σ → Option (Int × σ)) (source : σ) :
    (explode hits cap dice).RunsTo next? source
      (fun dice' drawn => dice'.length = dice.length + drawn.length ∧ ∃ results,
        List.Forall₂ (Exploded hits cap) dice results ∧ dice' = results.flatMap Prod.fst ∧
          drawn = allDrawn results)
      (fun e drawn => e = .stillExploding cap ∧ e.kind = .rerollCapExceeded ∧
        GetsStuck (Exploded hits cap) hits cap dice drawn) := by
  refine Chance.runsTo_of_path (fun dice' drawn => ?_) (fun e drawn => ?_) next? source
  · rw [explode, Chance.path_flatMapM_value (explodeOne_comesTo hits cap)]
    constructor
    · rintro ⟨results, hresults, rfl, rfl⟩
      exact ⟨length_flatMap_of_exploded hresults, results, hresults, rfl, rfl⟩
    · exact And.right
  · rw [explode, Chance.path_flatMapM_failed (explodeOne_comesTo hits cap)]
    simp only [explodeOne_eq, getsStuck_iff]
    constructor
    · rintro ⟨rfl, hstuck⟩
      exact ⟨rfl, rfl, hstuck⟩
    · rintro ⟨rfl, -, hstuck⟩
      exact ⟨rfl, hstuck⟩

end ThrownDie

end DiceLang
