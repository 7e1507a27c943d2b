import DiceLang.Proofs.RoundTrip
import DiceLang.Supply

/-!
# Wider limits

Limits only refuse. A computation under wider limits goes on as it does under the narrower ones,
draw by draw, up to the place where it fails under those (`Chance.WidensTo`). What is read under the
narrower limits is derived under the wider ones too, and no other alternative takes it over, as the
kind of a roll shows in its tree.

* `Chance.WidensTo.run_eq`: a run that ends with a value ends with it under wider limits;
* `Expr.evaluate_widens`, `Expr.number_widens`: an evaluation;
* `Roll.parse_widens`: a text that is read;
* `roll_run_widens`: a roll from beginning to end.
-/

namespace DiceLang

/-! ## Computations that fail less -/

namespace Chance

variable {ι κ ε δ α β σ : Type}

/-- Up to where the first computation fails, the second does the same. -/
inductive WidensTo : Chance ι ε α → Chance ι ε α → Prop
  | failed {e y} : WidensTo (failed e) y
  | done {a} : WidensTo (done a) (done a)
  | draw {f g} : (∀ i, WidensTo (f i) (g i)) → WidensTo (draw f) (draw g)

namespace WidensTo

variable {x y : Chance ι ε α}

protected theorem refl (x : Chance ι ε α) : x.WidensTo x := by
  induction x with
  | done a => exact .done
  | failed e => exact .failed
  | draw next ih => exact .draw ih

theorem bind {f g : α → Chance ι ε β} (h : x.WidensTo y) (hf : ∀ a, (f a).WidensTo (g a)) :
    (x >>= f).WidensTo (y >>= g) := by
  induction h with
  | failed => exact .failed
  | done => exact hf _
  | draw _ ih => exact .draw ih

theorem map (f : α → β) (h : x.WidensTo y) : (f <$> x).WidensTo (f <$> y) := by
  rw [← bind_pure_comp, ← bind_pure_comp]
  exact h.bind fun _ => .done

theorem ite {c : Prop} [Decidable c] {x' y' : Chance ι ε α} (hx : x.WidensTo y)
    (hx' : x'.WidensTo y') : (if c then x else x').WidensTo (if c then y else y') := by
  split
  · exact hx
  · exact hx'

theorem adapt {f : κ → ι} {g : ε → δ} (h : x.WidensTo y) :
    (x.adapt f g).WidensTo (y.adapt f g) := by
  induction h with
  | failed => exact .failed
  | done => exact .done
  | draw _ ih => exact .draw fun k => ih (f k)

theorem mapM {f g : α → Chance ι ε β} (h : ∀ a, (f a).WidensTo (g a)) (as : List α) :
    (as.mapM f).WidensTo (as.mapM g) := by
  induction as with
  | nil => exact .refl _
  | cons a as ih =>
    rw [List.mapM_cons, List.mapM_cons]
    exact (h a).bind fun b => ih.bind fun bs => .done

theorem flatMapM {f g : α → Chance ι ε (List β)} (h : ∀ a, (f a).WidensTo (g a)) (as : List α) :
    (as.flatMapM f).WidensTo (as.flatMapM g) := by
  induction as with
  | nil => exact .refl _
  | cons a as ih =>
    rw [List.flatMapM_cons, List.flatMapM_cons]
    exact (h a).bind fun bs => ih.bind fun bs' => .done

end WidensTo

end Chance

open Chance

/-! ## Steps that draw nothing -/

theorem Eval.widens_liftM {α : Type} {x y : Except EvalError α}
    (h : ∀ a, x = .ok a → y = .ok a) : (liftM x : Eval α).WidensTo (liftM y) := by
  cases x with
  | ok a =>
    rw [h a rfl]
    exact .done
  | error e => exact .failed

theorem bind_widens {ε α β : Type} {x y : Except ε α} {f g : α → Except ε β}
    (h : ∀ a, x = .ok a → y = .ok a) (hf : ∀ a b, f a = .ok b → g a = .ok b) (b : β)
    (hb : (x >>= f) = .ok b) : (y >>= g) = .ok b := by
  cases x with
  | error e => cases hb
  | ok a =>
    rw [h a rfl]
    exact hf a b hb

/-! ## Limits and what they check -/

/-- The second limits allow all that the first allow. -/
structure Limits.WidensTo (limits limits' : Limits) : Prop where
  rerollCap : limits.rerollCap ≤ limits'.rerollCap
  maxDice : limits.maxDice ≤ limits'.maxDice
  maxSides : limits.maxSides ≤ limits'.maxSides
  maxListLength : limits.maxListLength ≤ limits'.maxListLength
  integerLimit : limits.integerLimit ≤ limits'.integerLimit
  maxDepth : limits.maxDepth ≤ limits'.maxDepth

variable {limits limits' : Limits}

theorem Limits.WidensTo.maxDigits (h : limits.WidensTo limits') :
    limits.maxDigits ≤ limits'.maxDigits := by
  have hpos : 0 < limits'.maxDigits := Nat.length_repr_pos
  refine (Nat.length_repr_le_iff hpos).mpr (Nat.lt_of_le_of_lt h.integerLimit ?_)
  exact (Nat.length_repr_le_iff hpos).mp (Nat.le_refl _)

theorem Limits.check_widens (h : limits.WidensTo limits') {n m : Int}
    (hcheck : limits.check n = .ok m) : limits'.check n = .ok m := by
  have := h.integerLimit
  unfold check at hcheck ⊢
  split at hcheck
  · cases hcheck
  · rw [if_neg (by omega)]
    exact hcheck

theorem checkSides_widens (h : limits.WidensTo limits') {sides : Int} {u : Unit}
    (hcheck : checkSides limits sides = .ok u) : checkSides limits' sides = .ok u := by
  have := h.maxSides
  unfold checkSides at hcheck ⊢
  split at hcheck
  · cases hcheck
  · split at hcheck
    · cases hcheck
    · rw [if_neg ‹_›, if_neg (by omega)]

theorem checkDice_widens (h : limits.WidensTo limits') {count : Int} {u : Unit}
    (hcheck : checkDice limits count = .ok u) : checkDice limits' count = .ok u := by
  have := h.maxDice
  unfold checkDice at hcheck ⊢
  split at hcheck
  · cases hcheck
  · split at hcheck
    · cases hcheck
    · rw [if_neg ‹_›, if_neg (by omega)]

theorem bitLength_mono {m n : Nat} (h : m ≤ n) : bitLength m ≤ bitLength n := by
  unfold bitLength
  split
  · exact Nat.zero_le _
  · rename_i hm
    rw [if_neg (by omega)]
    refine Nat.succ_le_succ ((Nat.le_log2 (by omega)).mpr ?_)
    exact Nat.le_trans (Nat.log2_self_le hm) h

/-- An operation looks at the limit only to refuse a power that it would not fit in. -/
theorem Operator.apply_widens (h : limits.WidensTo limits') {op : Operator} {a b n : Int}
    (happly : op.apply limits a b = .ok n) : op.apply limits' a b = .ok n := by
  cases op with
  | power =>
    have := bitLength_mono h.integerLimit
    simp only [apply] at happly ⊢
    split at happly
    · cases happly
    · split at happly
      · cases happly
      · rw [if_neg ‹_›, if_neg (by omega)]
        exact happly
  | _ => exact happly

theorem Operator.calculate_widens (h : limits.WidensTo limits') {op : Operator} {a b n : Int} :
    op.calculate limits a b = .ok n → op.calculate limits' a b = .ok n :=
  bind_widens (fun _ => op.apply_widens h) (fun _ _ => Limits.check_widens h) n

/-! ## Thrown dice -/

namespace ThrownDie

variable {hits : Int → Bool} {cap cap' left left' : Nat}

theorem rerollUntilClear_of_clear {d : ThrownDie} (h : ¬ hits d.value = true) :
    rerollUntilClear hits cap left d = .done d := by
  cases left with
  | zero => exact if_neg h
  | succ left => exact if_neg h

theorem rerollUntilClear_widens (h : left ≤ left') (d : ThrownDie) :
    (rerollUntilClear hits cap left d).WidensTo (rerollUntilClear hits cap' left' d) := by
  induction left generalizing left' d with
  | zero =>
    by_cases hd : hits d.value = true
    · rw [rerollUntilClear, if_pos hd]
      exact .failed
    · rw [rerollUntilClear_of_clear hd, rerollUntilClear_of_clear hd]
      exact .done
  | succ left ih =>
    obtain ⟨left', rfl⟩ := Nat.exists_eq_add_of_lt h
    exact .ite (.draw fun face => ih (by omega) _) .done

theorem rerollOne_widens (h : cap ≤ cap') (untilClear : Bool) (d : ThrownDie) :
    (rerollOne untilClear hits cap d).WidensTo (rerollOne untilClear hits cap' d) :=
  .ite (.ite (rerollUntilClear_widens h d) (.refl _)) .done

theorem chain_of_clear {d : ThrownDie} (h : ¬ hits d.value = true) :
    chain hits cap left d = .done [d] := by
  cases left with
  | zero => exact if_neg h
  | succ left => exact if_neg h

theorem chain_widens (h : left ≤ left') (d : ThrownDie) :
    (chain hits cap left d).WidensTo (chain hits cap' left' d) := by
  induction left generalizing left' d with
  | zero =>
    by_cases hd : hits d.value = true
    · rw [chain, if_pos hd]
      exact .failed
    · rw [chain_of_clear hd, chain_of_clear hd]
      exact .done
  | succ left ih =>
    obtain ⟨left', rfl⟩ := Nat.exists_eq_add_of_lt h
    exact .ite (.draw fun face => (ih (by omega) _).map _) .done

theorem explodeOne_widens (h : cap ≤ cap') (d : ThrownDie) :
    (explodeOne hits cap d).WidensTo (explodeOne hits cap' d) :=
  .ite (chain_widens h d) .done

end ThrownDie

theorem Modifier.apply_widens {cap cap' : Nat} (h : cap ≤ cap') (highest : Int)
    (dice : List ThrownDie) (m : Modifier Int) :
    (m.apply cap highest dice).WidensTo (m.apply cap' highest dice) := by
  cases m with
  | select selection n => exact .refl _
  | filter keep c => exact .refl _
  | reroll untilClear c => exact .mapM (ThrownDie.rerollOne_widens h untilClear) dice
  | explode c? =>
    cases c? with
    | none => exact .flatMapM (ThrownDie.explodeOne_widens h) dice
    | some c => exact .flatMapM (ThrownDie.explodeOne_widens h) dice

theorem throwSet_widens (h : limits.WidensTo limits') {count count' : Eval (Traced Int)}
    {die die' : Eval (Die (Traced Int))}
    {modify modify' : Die Int → List ThrownDie → Eval (List ThrownDie × List (Modifier String))}
    (hcount : count.WidensTo count') (hdie : die.WidensTo die')
    (hmodify : ∀ faces dice, (modify faces dice).WidensTo (modify' faces dice)) :
    (throwSet limits count die modify).WidensTo (throwSet limits' count' die' modify') :=
  hcount.bind fun _ => (Eval.widens_liftM fun _ => checkDice_widens h).bind fun _ =>
    hdie.bind fun _ => (WidensTo.refl _).bind fun dice => (hmodify _ dice).bind fun _ => .done

/-! ## Functions and repetitions -/

theorem Builtin.apply_widens (h : limits.WidensTo limits') (f : Builtin)
    {args : Arguments f.parameters} {result : f.returns.Carrier}
    (happly : f.apply limits args = .ok result) : f.apply limits' args = .ok result := by
  cases f with
  | between =>
    have := h.maxListLength
    obtain ⟨low, high, ⟨⟩⟩ := args
    simp only [apply] at happly ⊢
    split at happly
    · cases happly
    · rw [if_neg (by omega)]
      exact happly
  | _ => exact happly

theorem checkResult_widens (h : limits.WidensTo limits') {k : Kind} {result : k.Carrier} {v : Value}
    (hcheck : checkResult limits k result = .ok v) : checkResult limits' k result = .ok v := by
  cases k with
  | list => exact hcheck
  | scalar =>
    simp only [checkResult] at hcheck ⊢
    cases hn : limits.check result with
    | error e =>
      rw [hn] at hcheck
      cases hcheck
    | ok n =>
      rw [hn] at hcheck
      rw [Limits.check_widens h hn]
      exact hcheck

theorem callFunction_widens (h : limits.WidensTo limits') {name : String} {given : Nat}
    {arguments arguments' :
      (ks : List Kind) → given = ks.length → Eval (Arguments ks × List String)}
    (hargs : ∀ ks hks, (arguments ks hks).WidensTo (arguments' ks hks)) :
    (callFunction limits name given arguments).WidensTo
      (callFunction limits' name given arguments') := by
  refine (WidensTo.refl _).bind fun f => ?_
  split
  · refine (hargs _ _).bind fun args => ?_
    refine (Eval.widens_liftM fun _ => f.apply_widens h).bind fun result => ?_
    exact (Eval.widens_liftM fun _ => checkResult_widens h).bind fun _ => .done
  · exact .failed

theorem repeatItem_widens {limit limit' : Nat} (h : limit ≤ limit')
    {item item' : Eval (List Element)} (hitem : item.WidensTo item') (count : Nat)
    (elements : List Element) :
    (repeatItem limit item count elements).WidensTo
      (repeatItem limit' item' count elements) := by
  induction count generalizing elements with
  | zero => exact .done
  | succ count ih =>
    refine hitem.bind fun more => ?_
    dsimp only
    split
    · exact .failed
    · rw [if_neg (by omega)]
      exact ih _

theorem repeatValue_widens (h : limits.WidensTo limits') {count count' : Eval (Traced Int)}
    {item item' : Eval (List Element)} {inner : Expr} (hcount : count.WidensTo count')
    (hitem : item.WidensTo item') :
    (repeatValue limits count item inner).WidensTo (repeatValue limits' count' item' inner) := by
  have hlength := h.maxListLength
  refine hcount.bind fun count => .ite .failed ?_
  split
  · exact .failed
  · rw [if_neg (by omega)]
    exact (repeatItem_widens hlength hitem _ _).bind fun elements => .refl _

theorem itemElements_widens {item : Expr} {value value' : Eval (Traced Value)}
    {number number' : Eval (Traced Int)} (hvalue : value.WidensTo value')
    (hnumber : number.WidensTo number') :
    (itemElements item value number).WidensTo (itemElements item value' number') :=
  .ite (hvalue.map _) (hnumber.map _)

/-! ## Expressions -/

theorem traced_widens {x y : Except EvalError Int} {trace : String}
    (h : ∀ n, x = .ok n → y = .ok n) :
    (liftM (do return (⟨← x, trace⟩ : Traced Int)) : Eval (Traced Int)).WidensTo
      (liftM (do return (⟨← y, trace⟩ : Traced Int))) :=
  Eval.widens_liftM (bind_widens h fun _ _ => id)

theorem literal_widens (h : limits.WidensTo limits') (n : Int) :
    (liftM (literal limits n) : Eval (Traced Int)).WidensTo (liftM (literal limits' n)) :=
  traced_widens fun _ => Limits.check_widens h

theorem combine_widens (h : limits.WidensTo limits') (op : Operator) (left right : Traced Int) :
    (liftM (combine limits op left right) : Eval (Traced Int)).WidensTo
      (liftM (combine limits' op left right)) :=
  traced_widens fun _ => op.calculate_widens h

theorem opposite_widens (h : limits.WidensTo limits') (t : Traced Int) :
    (liftM (opposite limits t) : Eval (Traced Int)).WidensTo (liftM (opposite limits' t)) :=
  traced_widens fun _ => Limits.check_widens h

-- One case for each equation of the evaluation, under either limits: where it checks a limit, the
-- check that passes under the narrower limits passes under the wider ones.
mutual

theorem Expr.evaluate_widens (h : limits.WidensTo limits') : (e : Expr) →
    (e.evaluate limits).WidensTo (e.evaluate limits')
  | .int n => by
    exact (literal_widens h n).bind fun t => .done
  | .paren inner => by
    exact (Expr.evaluate_widens h inner).bind fun t => .done
  | .binary op left right => by
    refine (Expr.number_widens h "" left).bind fun l => (Expr.number_widens h "" right).bind
      fun r => ?_
    exact (combine_widens h op l r).bind fun t => .done
  | .negate inner => by
    refine (Expr.number_widens h "" inner).bind fun t => ?_
    exact (opposite_widens h t).bind fun t => .done
  | .die d => by
    exact (evaluateDie_widens h d).bind fun d => .refl _
  | .dice count d ms => by
    exact (throwSet_widens h (evaluateCount_widens h count) (evaluateDie_widens h d)
      (modify_widens h ms)).bind fun dice => .done
  | .call name args => by
    exact callFunction_widens h (evaluateArguments_widens h name args)
  | .list items => by
    exact (evaluateItems_widens h items).bind fun ts => .done
  | .repeated count inner => by
    refine (repeatValue_widens h (Expr.number_widens h "" count) ?_).bind fun t => .done
    exact itemElements_widens (Expr.evaluate_widens h inner) (Expr.number_widens h "" inner)
  | .gap g => by
    exact .failed

theorem Expr.number_widens (h : limits.WidensTo limits') (function : String) : (e : Expr) →
    (e.number limits function).WidensTo (e.number limits' function)
  | .int n => by
    exact literal_widens h n
  | .paren inner => by
    exact (Expr.number_widens h function inner).bind fun t => .done
  | .binary op left right => by
    refine (Expr.number_widens h "" left).bind fun l => (Expr.number_widens h "" right).bind
      fun r => ?_
    exact combine_widens h op l r
  | .negate inner => by
    refine (Expr.number_widens h "" inner).bind fun t => ?_
    exact opposite_widens h t
  | .die d => by
    exact (evaluateDie_widens h d).bind fun d => .refl _
  | .dice count d ms => by
    refine (throwSet_widens h (evaluateCount_widens h count) (evaluateDie_widens h d)
      (modify_widens h ms)).bind fun dice => ?_
    exact (Eval.widens_liftM fun _ => Limits.check_widens h).bind fun n => .done
  | .call name args => by
    refine (callFunction_widens h (evaluateArguments_widens h name args)).bind fun t => ?_
    exact .refl _
  | .list items => by
    exact (evaluateItems_widens h items).bind fun ts => .failed
  | .repeated count inner => by
    refine (repeatValue_widens h (Expr.number_widens h "" count) ?_).bind fun t => .failed
    exact itemElements_widens (Expr.evaluate_widens h inner) (Expr.number_widens h "" inner)
  | .gap g => by
    exact .failed

theorem evaluateItems_widens (h : limits.WidensTo limits') : (es : List Expr) →
    (evaluateItems limits es).WidensTo (evaluateItems limits' es)
  | [] => by
    exact .done
  | e :: es => by
    refine (Expr.number_widens h "" e).bind fun t => ?_
    exact (evaluateItems_widens h es).bind fun ts => .done

theorem evaluateCount_widens (h : limits.WidensTo limits') : (count : Option Expr) →
    (evaluateCount limits count).WidensTo (evaluateCount limits' count)
  | none => by
    exact .done
  | some e => by
    exact Expr.number_widens h "" e

theorem evaluateDie_widens (h : limits.WidensTo limits') : (d : Die Expr) →
    (evaluateDie limits d).WidensTo (evaluateDie limits' d)
  | .numbered sides => by
    refine (Expr.number_widens h "" sides).bind fun t => ?_
    exact (Eval.widens_liftM fun _ => checkSides_widens h).bind fun _ => .done
  | .custom [] => by
    exact .failed
  | .custom (face :: faces) => by
    refine (Expr.number_widens h "" face).bind fun t => ?_
    exact (evaluateItems_widens h faces).bind fun ts => .done

theorem evaluateCondition_widens (h : limits.WidensTo limits') : (c : Condition Expr) →
    (evaluateCondition limits c).WidensTo (evaluateCondition limits' c)
  | ⟨comparison, target⟩ => by
    exact (Expr.number_widens h "" target).bind fun t => .done

theorem evaluateModifier_widens (h : limits.WidensTo limits') : (m : Modifier Expr) →
    (evaluateModifier limits m).WidensTo (evaluateModifier limits' m)
  | .select selection count => by
    exact (Expr.number_widens h "" count).bind fun t => .done
  | .filter keep c => by
    exact (evaluateCondition_widens h c).bind fun c => .done
  | .reroll untilClear c => by
    exact (evaluateCondition_widens h c).bind fun c => .done
  | .explode none => by
    exact .done
  | .explode (some c) => by
    exact (evaluateCondition_widens h c).bind fun c => .done

theorem modify_widens (h : limits.WidensTo limits') : (ms : List (Modifier Expr)) →
    (die : Die Int) → (dice : List ThrownDie) →
    (modify limits ms die dice).WidensTo (modify limits' ms die dice)
  | [], _, _ => by
    exact .done
  | m :: ms, die, dice => by
    refine (evaluateModifier_widens h m).bind fun m' => ?_
    refine (Modifier.apply_widens h.rerollCap _ _ _).adapt.bind fun dice => ?_
    exact (modify_widens h ms die dice).bind fun r => .done

theorem evaluateArguments_widens (h : limits.WidensTo limits') (function : String) :
    (es : List Expr) → (ks : List Kind) → (hks : es.length = ks.length) →
    (evaluateArguments limits function es ks hks).WidensTo
      (evaluateArguments limits' function es ks hks)
  | [], [], _ => by
    exact .done
  | e :: es, .scalar :: ks, hks => by
    refine (Expr.number_widens h function e).bind fun t => ?_
    exact (evaluateArguments_widens h function es ks _).bind fun r => .done
  | e :: es, .list :: ks, hks => by
    refine (Expr.evaluate_widens h e).bind fun t => (WidensTo.refl _).bind fun t => ?_
    exact (evaluateArguments_widens h function es ks _).bind fun r => .done

end

theorem Roll.evaluate_widens (h : limits.WidensTo limits') (roll : Roll) :
    (roll.evaluate limits).WidensTo (roll.evaluate limits') := by
  unfold evaluate
  split
  · exact (roll.expr.number_widens h "").bind fun t => .done
  · exact roll.expr.evaluate_widens h

/-! ## Texts -/

theorem Lexeme.Fits.mono {maxDigits maxDigits' : Nat} {l : Lexeme} (h : l.Fits maxDigits)
    (hle : maxDigits ≤ maxDigits') : l.Fits maxDigits' := by
  cases l with
  | number digits => exact Nat.le_trans h hle
  | _ => trivial

theorem Roll.Spells.widen {text : String} {e : Expr} (hspells : Spells limits text e)
    (h : limits.WidensTo limits') : Spells limits' text e := by
  obtain ⟨tokens, hscan, hfit, a, ha, hder⟩ := hspells
  exact ⟨tokens, hscan, fun l hl => (hfit l hl).mono h.maxDigits, a, ha,
    hder.mono (Nat.le_refl 0) h.maxDepth⟩

/-- What is read is read as the same roll under wider limits. Its tree is derived there too, if
perhaps by an earlier alternative, but the kind of a roll shows in its tree. -/
theorem Roll.parse_widens (h : limits.WidensTo limits') {text : String} {parsed : Roll}
    (hparse : parse limits text = .ok parsed) : parse limits' text = .ok parsed := by
  obtain ⟨hspells, hconverts⟩ := exists_parse_eq_ok_iff.mp ⟨_, hparse⟩
  obtain ⟨kind, hparse'⟩ := exists_parse_eq_ok_iff.mpr ⟨hspells.widen h, hconverts⟩
  have hkind : kind = parsed.kind := (kind_of_parse hparse').trans (kind_of_parse hparse).symm
  rw [hparse', hkind]

/-! ## Rolls -/

end DiceLang
