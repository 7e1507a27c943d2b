import DiceLang.Proofs.Conservation
import DiceLang.Proofs.Repetition
import Mathlib.Algebra.Order.Ring.Int

/-!
# Sizes stay bounded

The caps of rerolls and explosions hold for one die and one modifier. Over a set of dice they
multiply: a die becomes as many as a modifier lets it, and each of these as many again, while the
values that a die has had before add up (`ThrownDie.Within`). The length of a list is bounded
wherever one is made from nothing.

* `Pass.apply_within`, `modifyDrawn_within`: what one pass and what all modifiers of a set may add;
* `throwSet_bounded`: the sizes of repetitions, of ranges and of sets of dice.
-/

namespace DiceLang

open Chance

variable {α β ι ε : Type} {F : ι → Prop}

/-! ## One result for each item of a list -/

theorem Chance.Ensures.mapM_length (f : α → Chance ι ε β) (as : List α) :
    (as.mapM f).Ensures F fun bs => bs.length = as.length := by
  induction as with
  | nil =>
    rw [List.mapM_nil]
    exact .pure rfl
  | cons a as ih =>
    rw [List.mapM_cons]
    exact .bind (.of_true _) fun b _ => ih.bind fun bs hbs => .pure (congrArg Nat.succ hbs)

theorem Chance.Ensures.flatMapM_length {f : α → Chance ι ε (List β)} {n : Nat}
    (h : ∀ a, (f a).Ensures F fun bs => bs.length ≤ n) (as : List α) :
    (as.flatMapM f).Ensures F fun bs => bs.length ≤ as.length * n := by
  induction as with
  | nil =>
    rw [List.flatMapM_nil]
    exact .pure (Nat.zero_le _)
  | cons a as ih =>
    rw [List.flatMapM_cons]
    refine (h a).bind fun bs hbs => ih.bind fun bs' hbs' => .pure ?_
    rw [List.length_append, List.length_cons, Nat.succ_mul]
    omega

namespace ThrownDie

variable {F : Int → Prop} {d : ThrownDie} {dice : List ThrownDie} {n k : Nat}

/-- There are `n` dice at most, and each has had `k` values before at most. -/
structure Within (n k : Nat) (dice : List ThrownDie) : Prop where
  length_le : dice.length ≤ n
  discarded_le : ∀ d ∈ dice, d.discarded.length ≤ k

theorem Within.mono {n' k' : Nat} (h : Within n k dice) (hn : n ≤ n') (hk : k ≤ k') :
    Within n' k' dice :=
  ⟨Nat.le_trans h.length_le hn, fun d hd => Nat.le_trans (h.discarded_le d hd) hk⟩

theorem within_singleton (h : d.discarded.length ≤ k) : Within (n + 1) k [d] :=
  ⟨Nat.succ_le_succ (Nat.zero_le n), List.forall_mem_singleton.mpr h⟩

theorem length_shownBy_le (h : ∀ d ∈ dice, d.discarded.length ≤ k) :
    (shownBy dice).length ≤ dice.length * (1 + k) := by
  induction dice with
  | nil => exact Nat.zero_le _
  | cons d dice ih =>
    obtain ⟨hd, hdice⟩ := List.forall_mem_cons.mp h
    have hrest := ih hdice
    rw [shownBy_cons, shown, List.length_append, List.length_append, List.length_singleton,
      List.length_cons, Nat.succ_mul]
    omega

theorem Within.length_shownBy_le (h : Within n k dice) : (shownBy dice).length ≤ n * (1 + k) :=
  Nat.le_trans (ThrownDie.length_shownBy_le h.discarded_le) (Nat.mul_le_mul_right _ h.length_le)

theorem throwDice_within (n : Nat) : (throwDice n).Ensures F (Within n 0) := by
  have hdice : (throwDice n).EndsIn F (fun _ => True) fun dice => ∀ d ∈ dice, d.discarded = [] :=
    .mapM fun _ _ => EndsIn.outcome.bind fun _ _ => .pure rfl
  refine (hdice.ensures.and (.mapM_length _ _)).imp fun dice hdice => ?_
  obtain ⟨hdiscarded, hlength⟩ := hdice
  refine ⟨?_, fun d hd => ?_⟩
  · rw [hlength, List.length_range]
  · rw [hdiscarded d hd, List.length_nil]

/-! ## Passes -/

theorem select_within {word : ModifierWord} {m : Int} {dice' : List ThrownDie}
    (h : Within n k dice) (hselect : select word m dice = .ok dice') : Within n k dice' := by
  obtain ⟨drops, rfl⟩ := select_eq_ok hselect
  refine ⟨by simpa using h.length_le, fun d hd => ?_⟩
  obtain ⟨p, hp, rfl⟩ := List.mem_map.mp hd
  have hle := h.discarded_le p.1 (List.fst_mem_of_mem_zipIdx hp)
  split <;> exact hle

theorem filter_within {keep : Bool} {hits : Int → Bool} (h : Within n k dice) :
    Within n k (filter keep hits dice) := by
  refine ⟨by simpa [filter] using h.length_le, fun d hd => ?_⟩
  obtain ⟨d', hd', rfl⟩ := List.mem_map.mp hd
  have hle := h.discarded_le d' hd'
  split <;> exact hle

theorem rerollUntilClear_discarded (hits : Int → Bool) (cap left : Nat) (d : ThrownDie) :
    (rerollUntilClear hits cap left d).Ensures F fun d' =>
      d'.discarded.length ≤ d.discarded.length + left := by
  induction left generalizing d with
  | zero => exact .ite (fun _ => trivial) fun _ => Nat.le_refl _
  | succ left ih =>
    refine .ite (fun _ face _ => ?_) fun _ => Nat.le_add_right _ _
    refine (ih (d.rerolled face)).imp fun d' h => ?_
    rw [rerolled, List.length_append, List.length_singleton] at h
    omega

theorem rerollOne_discarded (untilClear : Bool) (hits : Int → Bool) (cap : Nat) (d : ThrownDie) :
    (rerollOne untilClear hits cap d).Ensures F fun d' =>
      d'.discarded.length ≤ d.discarded.length + if untilClear then cap else 1 := by
  refine .ite (fun _ => .ite (fun hclear => ?_) fun honce face _ => ?_)
    fun _ => Nat.le_add_right _ _
  · rw [if_pos hclear]
    exact rerollUntilClear_discarded hits cap cap d
  · rw [if_neg honce]
    exact Nat.le_of_eq (List.length_append ..)

/-- A die makes one more for each time it explodes, and the new ones have no history. -/
theorem chain_within (hits : Int → Bool) (cap left : Nat) (h : d.discarded.length ≤ k) :
    (chain hits cap left d).Ensures F (Within (left + 1) k) := by
  induction left generalizing d with
  | zero => exact .ite (fun _ => trivial) fun _ => within_singleton h
  | succ left ih =>
    refine .ite (fun _ face _ => ?_) fun _ => within_singleton h
    refine (ih (d := { value := face }) (Nat.zero_le k)).map fun dice hdice => ?_
    exact ⟨Nat.succ_le_succ hdice.length_le, List.forall_mem_cons.mpr ⟨h, hdice.discarded_le⟩⟩

theorem explodeOne_within (hits : Int → Bool) (cap : Nat) (h : d.discarded.length ≤ k) :
    (explodeOne hits cap d).Ensures F (Within (cap + 1) k) :=
  .ite (fun _ => chain_within hits cap cap h) fun _ => within_singleton h

end ThrownDie

/-! ## Passes -/

open ThrownDie (Within)

/-- How many dice the pass may make of one. -/
def Pass.spread : Pass → Nat
  | .select _ _ => 1
  | .filter _ _ => 1
  | .reroll _ _ _ => 1
  | .explode _ cap => cap + 1

/-- How many values the pass may add to the history of a die. -/
def Pass.history : Pass → Nat
  | .select _ _ => 0
  | .filter _ _ => 0
  | .reroll untilClear _ cap => if untilClear then cap else 1
  | .explode _ _ => 0

/-- What one pass adds. -/
theorem Pass.apply_within {F : Int → Prop} {n k : Nat} {dice : List ThrownDie} (pass : Pass)
    (h : Within n k dice) :
    (pass.apply dice).Ensures F (Within (n * pass.spread) (k + pass.history)) := by
  cases pass with
  | select word m =>
    rw [spread, Nat.mul_one]
    refine (EndsIn.liftM (E := fun _ => True) (fun _ _ => trivial) fun dice' hselect => ?_).ensures
    exact ThrownDie.select_within h hselect
  | filter keep hits =>
    rw [spread, Nat.mul_one]
    exact ThrownDie.filter_within h
  | reroll untilClear hits cap =>
    rw [spread, Nat.mul_one]
    have hdiscarded : (ThrownDie.reroll untilClear hits cap dice).EndsIn F (fun _ => True)
        fun dice' => ∀ d ∈ dice', d.discarded.length ≤ k + if untilClear then cap else 1 := by
      refine .mapM fun d hd => Ensures.iff_endsIn.mp ?_
      refine (ThrownDie.rerollOne_discarded untilClear hits cap d).imp fun d' h' => ?_
      exact Nat.le_trans h' (Nat.add_le_add_right (h.discarded_le d hd) _)
    refine (hdiscarded.ensures.and (.mapM_length _ dice)).imp fun dice' h' => ⟨?_, h'.1⟩
    rw [h'.2]
    exact h.length_le
  | explode hits cap =>
    have hdiscarded : (ThrownDie.explode hits cap dice).EndsIn F (fun _ => True)
        fun dice' => ∀ d ∈ dice', d.discarded.length ≤ k := by
      refine .flatMapM fun d hd => Ensures.iff_endsIn.mp ?_
      exact (ThrownDie.explodeOne_within hits cap (h.discarded_le d hd)).imp
        fun _ h' => h'.discarded_le
    have hlength : (ThrownDie.explode hits cap dice).Ensures F
        fun dice' => dice'.length ≤ dice.length * (cap + 1) :=
      .flatMapM_length (fun d => (ThrownDie.explodeOne_within hits cap (Nat.le_refl _)).imp
        fun _ h' => h'.length_le) dice
    refine (hdiscarded.ensures.and hlength).imp fun dice' h' => ⟨?_, h'.1⟩
    exact Nat.le_trans h'.2 (Nat.mul_le_mul_right _ h.length_le)

/-! ## Modifiers -/

def Modifier.explodes : Modifier ε → Bool
  | .select _ _ => false
  | .filter _ _ => false
  | .reroll _ _ => false
  | .explode _ => true

def Modifier.rerolls : Modifier ε → Bool
  | .select _ _ => false
  | .filter _ _ => false
  | .reroll _ _ => true
  | .explode _ => false

theorem Modifier.spread_pass (cap : Nat) (highest : Int) (m : Modifier Int) :
    (m.pass cap highest).spread = if m.explodes then cap + 1 else 1 := by
  cases m with
  | select | filter | reroll => rfl
  | explode c? => cases c? <;> rfl

theorem Modifier.history_pass_le {cap : Nat} (hcap : 0 < cap) (highest : Int) (m : Modifier Int) :
    (m.pass cap highest).history ≤ if m.rerolls then cap else 0 := by
  cases m with
  | select | filter => exact Nat.le_refl 0
  | reroll untilClear condition => cases untilClear with
    | true => exact Nat.le_refl cap
    | false => exact hcap
  | explode c? => cases c? <;> exact Nat.le_refl 0

@[simp] theorem Modifier.explodes_map (f : α → β) (m : Modifier α) :
    (m.map f).explodes = m.explodes := by
  cases m <;> rfl

@[simp] theorem Modifier.rerolls_map (f : α → β) (m : Modifier α) :
    (m.map f).rerolls = m.rerolls := by
  cases m <;> rfl

variable (limits : Limits)

/-- To evaluate the numbers of a modifier does not change what it does. -/
theorem evaluateModifier_kind : (m : Modifier Expr) → (evaluateModifier limits m).Ensures
    (fun _ => True) fun m' => m'.explodes = m.explodes ∧ m'.rerolls = m.rerolls
  | .select _ _ => .bind (.of_true _) fun _ _ => .pure ⟨rfl, rfl⟩
  | .filter _ _ => .bind (.of_true _) fun _ _ => .pure ⟨rfl, rfl⟩
  | .reroll _ _ => .bind (.of_true _) fun _ _ => .pure ⟨rfl, rfl⟩
  | .explode none => .pure ⟨rfl, rfl⟩
  | .explode (some _) => .bind (.of_true _) fun _ _ => .pure ⟨rfl, rfl⟩

variable {limits}

theorem Modifier.apply_within {F : Int → Prop} {cap n k : Nat} {dice : List ThrownDie}
    (hcap : 0 < cap) (highest : Int) (m : Modifier Int) (h : Within n k dice) :
    (m.apply cap highest dice).Ensures F
      (Within (n * if m.explodes then cap + 1 else 1) (k + if m.rerolls then cap else 0)) := by
  rw [Modifier.apply_eq, ← Modifier.spread_pass cap highest m]
  refine (Pass.apply_within _ h).imp fun dice' h' => h'.mono (Nat.le_refl _) ?_
  exact Nat.add_le_add_left (Modifier.history_pass_le hcap highest m) k

theorem Die.throw_withDrawn_ensures (die : Die Int) {P : α → Prop} {t : ThrownDie.Throw α}
    (h : t.Ensures (fun _ => True) P) :
    (die.throw t.withDrawn).Ensures (fun _ => True) fun r => P r.1 :=
  (Accounts.of_ensures h).adapt fun _ _ => trivial

/-- Each modifier that explodes makes that many times as many dice, each that rerolls adds that much
to their histories. -/
theorem modifyDrawn_within {die : Die Int} (hcap : 0 < limits.rerollCap) (ms : List (Modifier Expr))
    {n k : Nat} {dice : List ThrownDie} (h : Within n k dice) :
    (modifyDrawn limits ms die dice).Ensures (fun _ => True) fun r =>
      Within (n * (limits.rerollCap + 1) ^ ms.countP Modifier.explodes)
        (k + ms.countP Modifier.rerolls * limits.rerollCap) r.1.1 := by
  induction ms generalizing n k dice with
  | nil =>
    refine .pure (h.mono ?_ (Nat.le_add_right _ _))
    rw [List.countP_nil, Nat.pow_zero, Nat.mul_one]
  | cons m ms ih =>
    -- the other modifiers start from dice that are within what this one makes of the bounds
    refine (evaluateModifier_kind limits m).bind fun m' hm => ?_
    have hpass := Die.throw_withDrawn_ensures die
      (Modifier.apply_within hcap die.highest (m'.map Traced.value) h)
    refine hpass.bind fun r hr => (ih hr).bind fun s hs => .pure (hs.mono ?_ ?_)
    · rw [Modifier.explodes_map, hm.1, List.countP_cons]
      split <;> simp [Nat.pow_succ, Nat.mul_assoc, Nat.mul_comm]
    · rw [Modifier.rerolls_map, hm.2, List.countP_cons]
      split <;> simp [Nat.add_mul, Nat.add_assoc, Nat.add_comm]

/-! ## Sets of dice and lists -/

theorem checkDice_eq_ok {count : Int} (h : checkDice limits count = .ok ()) :
    0 ≤ count ∧ count ≤ limits.maxDice := by
  unfold checkDice at h
  split at h
  · cases h
  · split at h
    · cases h
    · omega

/-- What a set of `count` dice with these modifiers may come to at most. -/
structure ThrownSet.Bounded (limits : Limits) (count : Int) (ms : List (Modifier Expr))
    (s : ThrownSet) : Prop where
  count_nonneg : 0 ≤ count
  count_le : count ≤ limits.maxDice
  dice : Within (count.toNat * (limits.rerollCap + 1) ^ ms.countP Modifier.explodes)
    (ms.countP Modifier.rerolls * limits.rerollCap) s.dice.value

/-- A set of dice whose count has come to `count`. -/
theorem throwSetDrawn_bounded (hcap : 0 < limits.rerollCap) (count : Traced Int)
    (die : Eval (Die (Traced Int))) (ms : List (Modifier Expr)) :
    (throwSetDrawn limits (pure count) die ms).Ensures (fun _ => True)
      (ThrownSet.Bounded limits count.value ms) := by
  refine .bind (P := (· = count)) (.pure rfl) fun count' hcount => ?_
  subst hcount
  refine (Eval.ensures_liftM fun _ h => checkDice_eq_ok h).bind fun _ hcount => ?_
  refine .bind (.of_true _) fun die _ => ?_
  refine (Die.throw_withDrawn_ensures _ (ThrownDie.throwDice_within _)).bind fun r hr => ?_
  refine (modifyDrawn_within hcap ms hr).bind fun s hs => .pure ⟨hcount.1, hcount.2, ?_⟩
  rwa [Nat.zero_add] at hs

theorem Builtin.length_between_le {args : Arguments Builtin.between.parameters}
    {elements : List Element} (h : Builtin.between.apply limits args = .ok elements) :
    elements.length ≤ limits.maxListLength := by
  obtain ⟨low, high, ⟨⟩⟩ := args
  simp only [Builtin.apply] at h
  split at h
  · cases h
  · obtain rfl := Except.ok.inj h
    rw [Builtin.range, List.length_map, List.length_range]
    omega

theorem callFunction_between {given : Nat}
    {arguments : (ks : List Kind) → given = ks.length → Eval (Arguments ks × List String)} :
    (callFunction limits "between" given arguments).Ensures (fun _ => True) fun t =>
      ∃ elements, t.value = .list elements ∧ elements.length ≤ limits.maxListLength := by
  refine .bind (P := (· = Builtin.between)) rfl fun f hf => ?_
  subst hf
  split
  · refine .bind (.of_true _) fun r _ => ?_
    refine (Eval.ensures_liftM fun elements h => Builtin.length_between_le h).bind
      fun elements helements => ?_
    exact .bind (P := (· = Value.list elements)) rfl fun v hv => .pure ⟨elements, hv, helements⟩
  · trivial

/-- The list of a repetition or of a range is never too long. The dice of a set are no more than the
explosions make of its count, each has had no more values before than the rerolls let it, and so no
more faces are drawn for them than that. The cap is positive, as it does not bound a single reroll.
-/
theorem throwSet_bounded (limits : Limits) {σ : Type} (next? : σ → Option (Nat × σ))
    (source rest : σ) :
    (∀ (count inner : Expr) (t : Traced Value),
      ((Expr.repeated count inner).evaluate limits).run next? source = (.value t, rest) →
        ∃ elements, t.value = .list elements ∧ elements.length ≤ limits.maxListLength) ∧
    (∀ (args : List Expr) (t : Traced Value),
      ((Expr.call "between" args).evaluate limits).run next? source = (.value t, rest) →
        ∃ elements, t.value = .list elements ∧ elements.length ≤ limits.maxListLength) ∧
    (0 < limits.rerollCap → ∀ (count : Option Expr) (d : Die Expr) (ms : List (Modifier Expr))
      (dice : Traced (List ThrownDie)),
      (throwSet limits (evaluateCount limits count) (evaluateDie limits d)
          (modify limits ms)).run next? source = (.value dice, rest) →
        ∃ (c : Nat) (trace : String) (mid : σ) (die : Die Int) (drawn : List Int),
          (evaluateCount limits count).run next? source = (.value ⟨c, trace⟩, mid) ∧
          c ≤ limits.maxDice ∧
          (throwSetDrawn limits (evaluateCount limits count) (evaluateDie limits d) ms).run next?
            source = (.value ⟨dice, die, drawn⟩, rest) ∧
          dice.value.length ≤ c * (limits.rerollCap + 1) ^ ms.countP Modifier.explodes ∧
          (∀ d ∈ dice.value,
            d.discarded.length ≤ ms.countP Modifier.rerolls * limits.rerollCap) ∧
          drawn.length ≤ c * (limits.rerollCap + 1) ^ ms.countP Modifier.explodes *
            (1 + ms.countP Modifier.rerolls * limits.rerollCap)) := by
  refine ⟨fun count inner t hrun => ?_, fun args t hrun => ?_,
    fun hcap count d ms dice hrun => ?_⟩
  · obtain ⟨c, mid, -, hrepeats⟩ := Expr.run_repeated_iff.mp hrun
    obtain ⟨elements, ht, hlength, -⟩ := hrepeats.rounds
    exact ⟨elements, ht, hlength⟩
  · exact Ensures.of_run callFunction_between hrun
  · rw [← throwSetDrawn_dice] at hrun
    obtain ⟨s, hset, rfl⟩ := Chance.exists_run_of_map hrun
    have hperm := (throwSetDrawn_ensures (evaluateDie_throwable limits d) ms).of_run hset
    obtain ⟨c, mid, hcount, hthrown⟩ := Chance.run_bind_value_iff.mp hset
    have hbounded := (throwSetDrawn_bounded hcap c (evaluateDie limits d) ms).of_run hthrown
    obtain ⟨hnonneg, hle, hwithin⟩ := hbounded
    obtain ⟨n, hn⟩ := Int.eq_ofNat_of_zero_le hnonneg
    rw [hn, Int.toNat_natCast] at hwithin
    rw [hn] at hle
    refine ⟨n, c.trace, mid, s.die, s.drawn, ?_, by omega, hset, hwithin.length_le,
      hwithin.discarded_le, ?_⟩
    · rw [hcount, ← hn]
    · rw [← hperm.1.length_eq]
      exact hwithin.length_shownBy_le

/-- Two rounds of one throw; the range from 2 to 4; and two dice, of which one is rerolled and the
other explodes twice: the second explosion starts from a die that the first one added. -/
theorem throwSet_bounded_exploding :
    (∃ elements rest, ((Expr.repeated (.int 2) (.die (.numbered (.int 6)))).evaluate {}).run
        Source.next? (.script [4, 1]) = (.value ⟨.list elements, "2#d6"⟩, rest) ∧
          elements.length ≤ 1000) ∧
    (∃ elements rest, ((Expr.call "between" [.int 2, .int 4]).evaluate {}).run Source.next?
        (.script []) = (.value ⟨.list elements, "between(2, 4)"⟩, rest) ∧
          elements.length ≤ 1000) ∧
    ∃ limits : Limits, limits.rerollCap = 1 ∧ ∃ dice rest die drawn, (throwSetDrawn limits
        (evaluateCount limits (some (.int 2))) (evaluateDie limits (.numbered (.int 6)))
        [.reroll false ⟨.eq, .int 1⟩, .explode none, .explode (some ⟨.eq, .int 2⟩)]).run
          Source.next? (.script [0, 5, 3, 1, 2]) = (.value ⟨dice, die, drawn⟩, rest) ∧
      dice.trace = "2d6rr=1!!=2 [~~1~~ 4, 6!, 2!, 3]" ∧ dice.value.length ≤ 8 ∧
      (∀ d ∈ dice.value, d.discarded.length ≤ 1) ∧ drawn.length ≤ 16 := by
  let limits : Limits := { rerollCap := 1 }
  have hrepeated : ((Expr.repeated (.int 2) (.die (.numbered (.int 6)))).evaluate {}).run
      Source.next? (.script [4, 1]) =
        (.value ⟨.list [⟨5, "d6 [5]"⟩, ⟨2, "d6 [2]"⟩], "2#d6"⟩, .script []) := rfl
  have hbetween : ((Expr.call "between" [.int 2, .int 4]).evaluate {}).run Source.next?
      (.script []) = (.value ⟨.list [⟨2, ""⟩, ⟨3, ""⟩, ⟨4, ""⟩], "between(2, 4)"⟩, .script []) :=
    rfl
  have hset : (throwSet limits (evaluateCount limits (some (.int 2)))
      (evaluateDie limits (.numbered (.int 6))) (modify limits
        [.reroll false ⟨.eq, .int 1⟩, .explode none, .explode (some ⟨.eq, .int 2⟩)])).run
          Source.next? (.script [0, 5, 3, 1, 2]) =
      (.value ⟨[⟨4, [1], true, false⟩, ⟨6, [], true, true⟩, ⟨2, [], true, true⟩,
        ⟨3, [], true, false⟩], "2d6rr=1!!=2 [~~1~~ 4, 6!, 2!, 3]"⟩, .script []) := rfl
  obtain ⟨_, ⟨⟩, hrepeatedLength⟩ := (throwSet_bounded {} _ _ _).1 _ _ _ hrepeated
  obtain ⟨_, ⟨⟩, hbetweenLength⟩ := (throwSet_bounded {} _ _ _).2.1 _ _ hbetween
  obtain ⟨c, trace, mid, die, drawn, hcount, _, hrun, hlength, hdiscarded, hdrawn⟩ :=
    (throwSet_bounded limits _ _ _).2.2 Nat.one_pos _ _ _ _ hset
  have hcount' : (evaluateCount limits (some (.int 2))).run Source.next?
      (.script [0, 5, 3, 1, 2]) = (.value ⟨2, "2"⟩, .script [0, 5, 3, 1, 2]) := rfl
  have hending := congrArg Prod.fst (hcount.symm.trans hcount')
  have hc : (c : Int) = 2 := congrArg Traced.value (Chance.Ending.value.inj hending)
  obtain rfl : c = 2 := by omega
  exact ⟨⟨_, _, hrepeated, hrepeatedLength⟩, ⟨_, _, hbetween, hbetweenLength⟩,
    limits, rfl, _, _, die, drawn, hrun, rfl, hlength, hdiscarded, hdrawn⟩

end DiceLang
