import DiceLang.Proofs.Faces
import DiceLang.Proofs.Passes
import DiceLang.Supply

/-!
# Conservation

The dice of a set show, and have shown, the faces that were drawn for them: no draw is lost, none
counts twice, and nothing is shown that was not drawn. What else is drawn on the way, for the count,
for the die or for the numbers of the modifiers, is not among them; so that the set has to be thrown
with an account of the draws for its own die (`throwSetDrawn`), which is the same throw
(`throwSetDrawn_dice`).

* `Die.throw_accounts`: dice thrown with a die show its faces;
* `throwSetDrawn_ensures`: the dice of a set, with whatever modifiers;
* `throwSet_conserves`: what a run shows is what it drew.
-/

namespace DiceLang

open ThrownDie (shownBy)

variable {α β : Type} {die : Die Int}

/-- What is drawn for dice are faces of the die. -/
theorem Die.throw_accounts (hdie : die.Throwable) {P : α → List Int → Prop}
    {t : ThrownDie.Throw α} (h : t.Accounts die.Shows P) :
    (die.throw t.withDrawn).Ensures (fun _ => True) fun r =>
      P r.1 r.2 ∧ ∀ n ∈ r.2, die.Shows n :=
  .adapt (h.and (.drawn t)) fun raw _ => hdie.shows_face raw

/-! ## Throws with an account of the draws -/

/-- A set of dice with its die and with the faces that were drawn for it. -/
structure ThrownSet where
  dice : Traced (List ThrownDie)
  die : Die Int
  drawn : List Int

section

variable (limits : Limits)

/-- `modify`, which also gives the faces that it drew for the dice. -/
def modifyDrawn : List (Modifier Expr) → Die Int → List ThrownDie →
    Eval ((List ThrownDie × List (Modifier String)) × List Int)
  | [], _, dice => return ((dice, []), [])
  | m :: ms, die, dice => do
    let m ← evaluateModifier limits m
    let (dice, drawn) ←
      die.throw ((m.map Traced.value).apply limits.rerollCap die.highest dice).withDrawn
    let ((dice, traces), more) ← modifyDrawn ms die dice
    return ((dice, m.map Traced.trace :: traces), drawn ++ more)

/-- `throwSet`, which also gives the die and the faces that it drew for the dice. -/
def throwSetDrawn (count : Eval (Traced Int)) (die : Eval (Die (Traced Int)))
    (ms : List (Modifier Expr)) : Eval ThrownSet := do
  let count ← count
  checkDice limits count.value
  let die ← die
  let faces := die.map Traced.value
  let (thrown, drawn) ← faces.throw (ThrownDie.throwDice count.value.toNat).withDrawn
  let ((dice, modifiers), more) ← modifyDrawn limits ms faces thrown
  return ⟨⟨dice, Written.dice count.trace (die.map Traced.trace) modifiers
    ++ record (dice.map ThrownDie.fragment)⟩, faces, drawn ++ more⟩

/-! ### They are the same throws -/

/-- A computation that gives more than another is the same but for that, if its steps are. -/
theorem Eval.map_bind_eq {α' β' : Type} {p : α' → α} {q : β' → β} {x' : Eval α'} {x : Eval α}
    {f' : α' → Eval β'} {f : α → Eval β} (hx : p <$> x' = x) (hf : ∀ a, q <$> f' a = f (p a)) :
    q <$> (x' >>= f') = x >>= f := by
  subst hx
  rw [map_bind, bind_map_left]
  exact bind_congr hf

theorem Die.throw_map (die : Die Int) (f : α → β) (t : ThrownDie.Throw α) :
    die.throw (f <$> t) = f <$> die.throw t := by
  induction t with
  | done a => rfl
  | failed e => rfl
  | draw next ih => exact congrArg Chance.draw (funext fun raw => ih (die.face raw))

theorem Die.throw_withDrawn (die : Die Int) (t : ThrownDie.Throw α) :
    Prod.fst <$> die.throw t.withDrawn = die.throw t := by
  rw [← Die.throw_map, Chance.fst_withDrawn]

theorem modifyDrawn_fst (ms : List (Modifier Expr)) (die : Die Int) (dice : List ThrownDie) :
    Prod.fst <$> modifyDrawn limits ms die dice = modify limits ms die dice := by
  induction ms generalizing dice with
  | nil => rfl
  | cons m ms ih =>
    refine Eval.map_bind_eq (id_map _) fun m => ?_
    refine Eval.map_bind_eq (die.throw_withDrawn _) fun r => ?_
    exact Eval.map_bind_eq (ih r.1) fun s => rfl

/-- The dice that are thrown with an account are those that are thrown without it. -/
theorem throwSetDrawn_dice (count : Eval (Traced Int)) (die : Eval (Die (Traced Int)))
    (ms : List (Modifier Expr)) : ThrownSet.dice <$> throwSetDrawn limits count die ms =
      throwSet limits count die (modify limits ms) := by
  refine Eval.map_bind_eq (id_map _) fun count => ?_
  refine Eval.map_bind_eq (id_map _) fun _ => ?_
  refine Eval.map_bind_eq (id_map _) fun die => ?_
  refine Eval.map_bind_eq (Die.throw_withDrawn _ _) fun r => ?_
  exact Eval.map_bind_eq (modifyDrawn_fst limits ms _ r.1) fun s => rfl

end

/-! ## What is shown is what was drawn -/

variable {limits : Limits}

/-- Modifiers add the faces that they draw, and these are faces of the die. -/
theorem modifyDrawn_ensures (hdie : die.Throwable) (ms : List (Modifier Expr))
    (dice : List ThrownDie) : (modifyDrawn limits ms die dice).Ensures (fun _ => True) fun r =>
      (shownBy r.1.1).Perm (shownBy dice ++ r.2) ∧ ∀ n ∈ r.2, die.Shows n := by
  induction ms generalizing dice with
  | nil => exact .pure ⟨.of_eq (List.append_nil _).symm, List.forall_mem_nil _⟩
  | cons m ms ih =>
    refine .bind (.of_true _) fun m _ => ?_
    refine .bind (Die.throw_accounts hdie (Modifier.apply_accounts _ _ _ dice)) fun r hr => ?_
    refine (ih r.1).bind fun s hs => .pure ⟨?_, List.forall_mem_append.mpr ⟨hr.2, hs.2⟩⟩
    rw [← List.append_assoc]
    exact hs.1.trans (hr.1.append_right s.2)

theorem throwSetDrawn_ensures {count : Eval (Traced Int)} {die : Eval (Die (Traced Int))}
    (hdie : die.Ensures (fun _ => True) fun d => (d.map Traced.value).Throwable)
    (ms : List (Modifier Expr)) : (throwSetDrawn limits count die ms).Ensures (fun _ => True)
      fun s => (shownBy s.dice.value).Perm s.drawn ∧ ∀ n ∈ s.drawn, s.die.Shows n := by
  refine .bind (.of_true _) fun count _ => .bind (.of_true _) fun _ _ => ?_
  refine hdie.bind fun die hdie => ?_
  refine .bind (Die.throw_accounts hdie (ThrownDie.throwDice_accounts _)) fun r hr => ?_
  refine (modifyDrawn_ensures hdie ms r.1).bind fun s hs => .pure
    ⟨hs.1.trans (hr.1.append_right s.2), List.forall_mem_append.mpr ⟨hr.2, hs.2⟩⟩

/-- Where a run throws a set of dice, they show and have shown just the faces that it drew for them,
each as often, and these are faces of the die. Where a run makes any passes over any dice, the dice
show and have shown what they did before, and just what the run took from the source. -/
theorem throwSet_conserves (limits : Limits) :
    (∀ (count : Option Expr) (d : Die Expr) (ms : List (Modifier Expr)) (σ : Type)
      (next? : σ → Option (Nat × σ)) (source rest : σ) (dice : Traced (List ThrownDie)),
      (throwSet limits (evaluateCount limits count) (evaluateDie limits d)
          (modify limits ms)).run next? source = (.value dice, rest) →
        ∃ die drawn, (throwSetDrawn limits (evaluateCount limits count) (evaluateDie limits d)
            ms).run next? source = (.value ⟨dice, die, drawn⟩, rest) ∧
          (shownBy dice.value).Perm drawn ∧ ∀ n ∈ shownBy dice.value, die.Shows n) ∧
    (∀ (passes : List Pass) (dice : List ThrownDie) (σ : Type) (next? : σ → Option (Int × σ))
      (source rest : σ) (dice' : List ThrownDie),
      (Pass.applyAll passes dice).run next? source = (.value dice', rest) →
        ∃ drawn, Chance.Takes next? source drawn rest ∧
          (shownBy dice').Perm (shownBy dice ++ drawn)) := by
  refine ⟨fun count d ms σ next? source rest dice hrun => ?_,
    fun passes dice σ next? source rest dice' hrun => ?_⟩
  · rw [← throwSetDrawn_dice] at hrun
    obtain ⟨s, hset, rfl⟩ := Chance.exists_run_of_map hrun
    obtain ⟨hperm, hshows⟩ :=
      (throwSetDrawn_ensures (evaluateDie_throwable limits d) ms).of_run hset
    exact ⟨s.die, s.drawn, hset, hperm, fun n hn => hshows n (hperm.mem_iff.mp hn)⟩
  · obtain ⟨drawn, hdrawn, htakes⟩ := Chance.exists_run_withDrawn hrun
    exact ⟨drawn, htakes, (Pass.applyAll_accounts passes dice).of_run hdrawn⟩

/-- Two dice, of which one is rerolled and the other explodes; and a die with a history that
explodes before all but the sixes are dropped. -/
theorem throwSet_conserves_exploding :
    (∃ dice rest die drawn, (throwSetDrawn {} (evaluateCount {} (some (.int 2)))
        (evaluateDie {} (.numbered (.int 6))) [.reroll true ⟨.eq, .int 1⟩, .explode none]).run
          Source.next? (.script [0, 5, 3, 2]) = (.value ⟨dice, die, drawn⟩, rest) ∧
        shownBy dice.value = [1, 4, 6, 3] ∧ (shownBy dice.value).Perm drawn) ∧
    ∃ dice drawn, (Pass.applyAll [.explode (· == 6) 3, .filter true (· == 6)]
        [⟨6, [1], true, false⟩]).run (fun faces => faces.head?.map (·, faces.tail)) [2, 5] =
          (.value dice, [5]) ∧ (shownBy dice).Perm ([1, 6] ++ drawn) := by
  have hset : (throwSet {} (evaluateCount {} (some (.int 2)))
      (evaluateDie {} (.numbered (.int 6))) (modify {}
        [.reroll true ⟨.eq, .int 1⟩, .explode none])).run Source.next? (.script [0, 5, 3, 2]) =
      (.value ⟨[⟨4, [1], true, false⟩, ⟨6, [], true, true⟩, ⟨3, [], true, false⟩],
        "2d6rr=1!! [~~1~~ 4, 6!, 3]"⟩, .script []) := rfl
  have hpasses : (Pass.applyAll [.explode (· == 6) 3, .filter true (· == 6)]
      [⟨6, [1], true, false⟩]).run (fun faces => faces.head?.map (·, faces.tail)) [2, 5] =
        (.value [⟨6, [1], true, true⟩, ⟨2, [], false, false⟩], [5]) := rfl
  obtain ⟨hconserved, hadded⟩ := throwSet_conserves {}
  obtain ⟨die, drawn, hrun, hperm, _⟩ := hconserved _ _ _ _ _ _ _ _ hset
  obtain ⟨drawn', _, hperm'⟩ := hadded _ _ _ _ _ _ _ hpasses
  exact ⟨⟨_, _, die, drawn, hrun, rfl, hperm⟩, _, drawn', hpasses, hperm'⟩

end DiceLang
