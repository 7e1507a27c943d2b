import DiceLang.Proofs.Faces
import DiceLang.Proofs.Ordinary
import DiceLang.Proofs.Results
import DiceLang.Supply

/-!
# No number exceeds the limit

Every number that an evaluation comes to is within the limit. Not each of them is checked: a face
drawn is within it because the number of sides or the listed faces are (`Die.Bounded`), and the dice
of a set stay within it through every modifier because a modifier only draws further faces.

* `modify_ensures`: dice within the limit stay within it;
* `Value.admitted_passed`: so does what a function makes of its arguments;
* `Expr.evaluate_ensures`, `Expr.number_ensures`: the value of an expression;
* `Roll.run_admitted`: the value of a run.
-/

namespace DiceLang

open Chance

variable {limits : Limits}

/-! ## Checked numbers -/

/-- The number is within the limit. -/
def Limits.Admits (limits : Limits) (n : Int) : Prop := n.natAbs ≤ limits.integerLimit

theorem Limits.admits_of_check {n m : Int} (h : limits.check n = .ok m) : limits.Admits m := by
  unfold check at h
  split at h
  · cases h
  · cases h
    exact Nat.le_of_not_lt ‹_›

/-- A number between two that are within the limit is within it too. -/
theorem Limits.Admits.between {low n high : Int} (hlow : limits.Admits low)
    (hhigh : limits.Admits high) (hn : low ≤ n ∧ n ≤ high) : limits.Admits n := by
  unfold Admits at *
  omega

/-! ## Dice that can be thrown -/

/-- All that the die can show is within the limit. -/
def Die.Bounded (limits : Limits) (die : Die Int) : Prop := ∀ raw, limits.Admits (die.face raw)

theorem Die.bounded_numbered {sides : Int} (h : limits.Admits sides)
    (hsides : checkSides limits sides = .ok ()) : (Die.numbered sides).Bounded limits := by
  intro raw
  have hdie : (Die.numbered sides).Throwable := checkSides_eq_ok hsides
  obtain ⟨hlow, hhigh⟩ := hdie.shows_face raw
  unfold Limits.Admits at *
  omega

theorem Die.bounded_custom {faces : List Int} (hne : faces ≠ [])
    (h : ∀ n ∈ faces, limits.Admits n) : (Die.custom faces).Bounded limits := by
  intro raw
  have hdie : (Die.custom faces).Throwable := hne
  exact h _ (hdie.shows_face raw)

theorem Die.throw_ensures {α : Type} {P : α → Prop} {die : Die Int} {t : ThrownDie.Throw α}
    (hdie : die.Bounded limits) (h : t.Ensures limits.Admits P) :
    (die.throw t).Ensures (fun _ => True) P := h.adapt fun raw _ => hdie raw

theorem throwOne_ensures {die : Die (Traced Int)} (h : (die.map Traced.value).Bounded limits) :
    (throwOne die).Ensures (fun _ => True) fun t => limits.Admits t.value :=
  (Die.throw_ensures h .outcome).bind fun _ hface => .pure hface

theorem modify_ensures {die : Die Int} (hdie : die.Bounded limits) (ms : List (Modifier Expr))
    {dice : List ThrownDie} (h : ThrownDie.All limits.Admits dice) :
    (modify limits ms die dice).Ensures (fun _ => True) fun r =>
      ThrownDie.All limits.Admits r.1 := by
  induction ms generalizing dice with
  | nil => exact .pure h
  | cons m ms ih =>
    refine .bind (.of_true _) fun m' _ => ?_
    refine (Die.throw_ensures hdie (m'.map Traced.value |>.apply_endsIn _ _ h).ensures).bind
      fun dice hdice => ?_
    exact (ih hdice).bind fun r hr => .pure hr

theorem throwSet_ensures {count : Eval (Traced Int)} {die : Eval (Die (Traced Int))}
    (hdie : die.Ensures (fun _ => True) fun d => (d.map Traced.value).Bounded limits)
    (ms : List (Modifier Expr)) : (throwSet limits count die (modify limits ms)).Ensures
      (fun _ => True) fun t => ThrownDie.All limits.Admits t.value := by
  refine .bind (.of_true _) fun count _ => .bind (.of_true _) fun _ _ => ?_
  refine hdie.bind fun die hdie => ?_
  refine (Die.throw_ensures hdie (ThrownDie.throwDice_endsIn _).ensures).bind
    fun thrown hthrown => ?_
  exact (modify_ensures hdie ms hthrown).bind fun r hr => .pure hr

theorem keptElements_admitted {dice : List ThrownDie} (h : ThrownDie.All limits.Admits dice) :
    ∀ x ∈ keptElements dice, limits.Admits x.value := by
  intro x hx
  obtain ⟨d, hd, rfl⟩ := List.mem_map.mp hx
  exact h d (List.mem_filter.mp hd).1

/-! ## Functions -/

/-- All numbers of the value are within the limit. -/
def Value.Admitted (limits : Limits) (v : Value) : Prop := ∀ n ∈ v.numbers, limits.Admits n

@[simp] theorem Value.admitted_scalar {n : Int} :
    (Value.scalar n).Admitted limits ↔ limits.Admits n := by
  simp [Value.Admitted, numbers]

@[simp] theorem Value.admitted_list {elements : List Element} :
    (Value.list elements).Admitted limits ↔ ∀ x ∈ elements, limits.Admits x.value := by
  simp [Value.Admitted, numbers]

/-- All numbers among the arguments are within the limit. -/
def Arguments.Admitted (limits : Limits) : (ks : List Kind) → Arguments ks → Prop
  | [], _ => True
  | k :: ks, (a, rest) => (k.value a).Admitted limits ∧ Admitted limits ks rest

theorem Builtin.range_admitted {low high : Int} (hlow : limits.Admits low)
    (hhigh : limits.Admits high) : ∀ x ∈ range low high, limits.Admits x.value := by
  intro x hx
  obtain ⟨i, hi, rfl⟩ := List.mem_map.mp hx
  have := List.mem_range.mp hi
  show limits.Admits (low + i)
  exact hlow.between hhigh ⟨by omega, by omega⟩

theorem Arguments.Admitted.all : {ks : List Kind} → {args : Arguments ks} →
    Arguments.Admitted limits ks args → Arguments.All (Value.Admitted limits) ks args
  | [], _, _ => trivial
  | _ :: _, _, h => ⟨h.1, all h.2⟩

/-- The numbers of a list that a function returns are among those that it is given, or between two
of them. Any other result is checked. -/
theorem Value.admitted_passed : Value.Passed limits (Value.Admitted limits) where
  checked h := admitted_scalar.mpr (Limits.admits_of_check h)
  part hsub h := admitted_list.mpr fun x hx => admitted_list.mp h x (hsub hx)
  range hlow hhigh :=
    admitted_list.mpr (Builtin.range_admitted (admitted_scalar.mp hlow) (admitted_scalar.mp hhigh))

theorem callFunction_ensures {name : String} {given : Nat}
    {arguments : (ks : List Kind) → given = ks.length → Eval (Arguments ks × List String)}
    (h : ∀ ks hks, (arguments ks hks).Ensures (fun _ => True) fun r =>
      Arguments.Admitted limits ks r.1) :
    (callFunction limits name given arguments).Ensures (fun _ => True) fun t =>
      t.value.Admitted limits := by
  refine (Value.admitted_passed.callFunction (q := fun _ => True) fun ks hks => ?_).imp
    fun _ ht => ht.1
  exact (h ks hks).imp fun _ hr => ⟨hr.all, trivial⟩

/-! ## Repetitions -/

theorem repeatItem_ensures (limit : Nat) {p : Int → Prop} {item : Eval (List Element)}
    (h : item.Ensures (fun _ => True) fun elements => ∀ x ∈ elements, p x.value) (count : Nat)
    {elements : List Element} (helements : ∀ x ∈ elements, p x.value) :
    (repeatItem limit item count elements).Ensures (fun _ => True) fun elements =>
      ∀ x ∈ elements, p x.value := by
  induction count generalizing elements with
  | zero => exact .pure helements
  | succ count ih =>
    refine h.bind fun more hmore => ?_
    exact .ite (fun _ => trivial) fun _ => ih (List.forall_mem_append.mpr ⟨helements, hmore⟩)

theorem repeatValue_ensures {count : Eval (Traced Int)} {item : Eval (List Element)} {inner : Expr}
    (h : item.Ensures (fun _ => True) fun elements => ∀ x ∈ elements, limits.Admits x.value) :
    (repeatValue limits count item inner).Ensures (fun _ => True) fun t =>
      ∀ x ∈ t.value, limits.Admits x.value := by
  refine .bind (.of_true _) fun count _ => .ite (fun _ => trivial) fun _ =>
    .ite (fun _ => trivial) fun _ => ?_
  refine (repeatItem_ensures _ h _ (by simp)).bind fun elements helements => ?_
  split
  · exact .pure helements
  · trivial

theorem itemElements_ensures {item : Expr} {value : Eval (Traced Value)}
    {number : Eval (Traced Int)}
    (hvalue : value.Ensures (fun _ => True) fun t => t.value.Admitted limits)
    (hnumber : number.Ensures (fun _ => True) fun t => limits.Admits t.value) :
    (itemElements item value number).Ensures (fun _ => True) fun elements =>
      ∀ x ∈ elements, limits.Admits x.value := by
  refine .ite (fun _ => hvalue.map fun t ht => ?_) fun _ => hnumber.map fun t ht => ?_
  · obtain ⟨v, trace⟩ := t
    cases v with
    | scalar n => exact List.forall_mem_singleton.mpr (Value.admitted_scalar.mp ht)
    | list elements => exact Value.admitted_list.mp ht
  · exact List.forall_mem_singleton.mpr ht

/-! ## Expressions -/

theorem Operator.admits_of_calculate {op : Operator} {a b n : Int}
    (h : op.calculate limits a b = .ok n) : limits.Admits n := by
  unfold calculate at h
  cases happly : op.apply limits a b with
  | error e =>
    rw [happly] at h
    cases h
  | ok m =>
    rw [happly] at h
    exact Limits.admits_of_check h

theorem literal_ensures (n : Int) : (liftM (literal limits n) : Eval (Traced Int)).Ensures
    (fun _ => True) fun t => limits.Admits t.value :=
  Eval.ensures_liftM fun _ h => Limits.admits_of_check (traced_eq_ok h).1

theorem combine_ensures (op : Operator) (left right : Traced Int) :
    (liftM (combine limits op left right) : Eval (Traced Int)).Ensures (fun _ => True) fun t =>
      limits.Admits t.value :=
  Eval.ensures_liftM fun _ h => op.admits_of_calculate (traced_eq_ok h).1

theorem opposite_ensures (t : Traced Int) : (liftM (opposite limits t) : Eval (Traced Int)).Ensures
    (fun _ => True) fun t => limits.Admits t.value :=
  Eval.ensures_liftM fun _ h => Limits.admits_of_check (traced_eq_ok h).1

theorem asNumber_ensures {function : String} {e : Expr} {t : Traced Value}
    (h : t.value.Admitted limits) : (liftM (asNumber function e t) : Eval (Traced Int)).Ensures
      (fun _ => True) fun t => limits.Admits t.value :=
  Eval.ensures_liftM fun n hn => by
    obtain rfl := asNumber_eq_ok hn
    exact Value.admitted_scalar.mp h

theorem asList_ensures {function : String} {e : Expr} {t : Traced Value}
    (h : t.value.Admitted limits) :
    (liftM (asList function e t) : Eval (Traced (List Element))).Ensures (fun _ => True) fun t =>
      (Value.list t.value).Admitted limits :=
  Eval.ensures_liftM fun l hl => by
    obtain rfl := asList_eq_ok hl
    exact h

-- One case for each equation of the evaluation, which holds by definition: a rule for each step of
-- the equation, and what is known of the parts.
mutual

/-- Every number of an expression's own value is within the limit. -/
theorem Expr.evaluate_ensures : (e : Expr) →
    (e.evaluate limits).Ensures (fun _ => True) fun t => t.value.Admitted limits
  | .int n => by
    exact (literal_ensures n).bind fun t ht => .pure (Value.admitted_scalar.mpr ht)
  | .paren inner => by
    exact (Expr.evaluate_ensures inner).bind fun t ht => .pure ht
  | .binary op left right => by
    refine .bind (.of_true _) fun left _ => .bind (.of_true _) fun right _ => ?_
    exact (combine_ensures op left right).bind fun t ht => .pure (Value.admitted_scalar.mpr ht)
  | .negate inner => by
    refine .bind (.of_true _) fun inner _ => ?_
    exact (opposite_ensures inner).bind fun t ht => .pure (Value.admitted_scalar.mpr ht)
  | .die d => by
    refine (evaluateDie_ensures d).bind fun d hd => ?_
    exact (throwOne_ensures hd).bind fun t ht => .pure (Value.admitted_scalar.mpr ht)
  | .dice count d ms => by
    refine (throwSet_ensures (evaluateDie_ensures d) ms).bind fun dice hdice => .pure ?_
    exact Value.admitted_list.mpr (keptElements_admitted hdice)
  | .call name args => by
    exact callFunction_ensures fun ks hks => evaluateArguments_ensures name args ks hks
  | .list items => by
    refine (evaluateItems_ensures items).bind fun ts hts => .pure ?_
    exact Value.admitted_list.mpr (List.forall_mem_map.mpr hts)
  | .repeated count inner => by
    refine (repeatValue_ensures ?_).bind fun t ht => .pure (Value.admitted_list.mpr ht)
    exact itemElements_ensures (Expr.evaluate_ensures inner) (Expr.number_ensures "" inner)
  | .gap g => by
    trivial

/-- An expression as a number is within the limit. -/
theorem Expr.number_ensures (function : String) : (e : Expr) →
    (e.number limits function).Ensures (fun _ => True) fun t => limits.Admits t.value
  | .int n => by
    exact literal_ensures n
  | .paren inner => by
    exact (Expr.number_ensures function inner).bind fun t ht => .pure ht
  | .binary op left right => by
    refine .bind (.of_true _) fun left _ => .bind (.of_true _) fun right _ => ?_
    exact combine_ensures op left right
  | .negate inner => by
    refine .bind (.of_true _) fun inner _ => ?_
    exact opposite_ensures inner
  | .die d => by
    exact (evaluateDie_ensures d).bind fun d hd => throwOne_ensures hd
  | .dice count d ms => by
    refine .bind (.of_true _) fun dice _ => ?_
    exact (Eval.ensures_liftM fun _ => Limits.admits_of_check).bind fun n hn => .pure hn
  | .call name args => by
    refine (callFunction_ensures fun ks hks => evaluateArguments_ensures name args ks hks).bind
      fun t ht => ?_
    exact asNumber_ensures ht
  | .list items => by
    exact .bind (.of_true _) fun _ _ => trivial
  | .repeated count inner => by
    exact .bind (.of_true _) fun _ _ => trivial
  | .gap g => by
    trivial

theorem evaluateItems_ensures : (es : List Expr) →
    (evaluateItems limits es).Ensures (fun _ => True) fun ts => ∀ t ∈ ts, limits.Admits t.value
  | [] => by
    exact .pure (by simp)
  | e :: es => by
    refine (Expr.number_ensures "" e).bind fun t ht => ?_
    exact (evaluateItems_ensures es).bind fun ts hts => .pure (List.forall_mem_cons.mpr ⟨ht, hts⟩)

/-- A die shows nothing beyond the limit: its faces have been checked, or its number of sides. -/
theorem evaluateDie_ensures : (d : Die Expr) →
    (evaluateDie limits d).Ensures (fun _ => True) fun d => (d.map Traced.value).Bounded limits
  | .numbered sides => by
    refine (Expr.number_ensures "" sides).bind fun sides hsides => ?_
    refine (Eval.ensures_liftM fun _ h => h).bind fun _ hcheck => .pure ?_
    exact Die.bounded_numbered hsides hcheck
  | .custom [] => by
    trivial
  | .custom (face :: faces) => by
    refine (Expr.number_ensures "" face).bind fun t ht => ?_
    refine (evaluateItems_ensures faces).bind fun ts hts => .pure ?_
    refine Die.bounded_custom (by simp) (List.forall_mem_map.mpr ?_)
    exact List.forall_mem_cons.mpr ⟨ht, hts⟩

theorem evaluateArguments_ensures (function : String) : (es : List Expr) → (ks : List Kind) →
    (hks : es.length = ks.length) → (evaluateArguments limits function es ks hks).Ensures
      (fun _ => True) fun r => Arguments.Admitted limits ks r.1
  | [], [], _ => by
    trivial
  | e :: es, .scalar :: ks, hks => by
    refine (Expr.number_ensures function e).bind fun t ht => ?_
    refine (evaluateArguments_ensures function es ks _).bind fun r hr => .pure ?_
    exact ⟨Value.admitted_scalar.mpr ht, hr⟩
  | e :: es, .list :: ks, hks => by
    refine (Expr.evaluate_ensures e).bind fun t ht => (asList_ensures ht).bind fun t ht => ?_
    exact (evaluateArguments_ensures function es ks _).bind fun r hr => .pure ⟨ht, hr⟩

end

theorem Expr.elements_ensures (function : String) (e : Expr) :
    (e.elements limits function).Ensures (fun _ => True) fun t =>
      (Value.list t.value).Admitted limits :=
  e.evaluate_ensures.bind fun _ ht => asList_ensures ht

theorem Roll.evaluate_ensures (roll : Roll) :
    (roll.evaluate limits).Ensures (fun _ => True) fun t => t.value.Admitted limits := by
  unfold evaluate
  split
  · exact (roll.expr.number_ensures "").bind fun t ht => .pure (Value.admitted_scalar.mpr ht)
  · exact roll.expr.evaluate_ensures

/-! ## Runs -/

/-- Whatever a run ends with has no number that exceeds the limit. -/
theorem Roll.run_admitted (limits : Limits) {σ : Type} (next? : σ → Option (Nat × σ)) :
    (∀ (e : Expr) (t : Traced Value) (source rest : σ),
      (e.evaluate limits).run next? source = (.value t, rest) →
        ∀ n ∈ t.value.numbers, n.natAbs ≤ limits.integerLimit) ∧
    (∀ (e : Expr) (function : String) (t : Traced Int) (source rest : σ),
      (e.number limits function).run next? source = (.value t, rest) →
        t.value.natAbs ≤ limits.integerLimit) ∧
    (∀ (e : Expr) (function : String) (t : Traced (List Element)) (source rest : σ),
      (e.elements limits function).run next? source = (.value t, rest) →
        ∀ x ∈ t.value, x.value.natAbs ≤ limits.integerLimit) ∧
    (∀ (roll : Roll) (t : Traced Value) (source rest : σ),
      (roll.evaluate limits).run next? source = (.value t, rest) →
        ∀ n ∈ t.value.numbers, n.natAbs ≤ limits.integerLimit) := by
  refine ⟨fun e t _ _ hrun => ?_, fun e function t _ _ hrun => ?_, fun e function t _ _ hrun => ?_,
    fun roll t _ _ hrun => ?_⟩
  · exact e.evaluate_ensures.of_run hrun
  · exact (e.number_ensures function).of_run hrun
  · exact Value.admitted_list.mp ((e.elements_ensures function).of_run hrun)
  · exact roll.evaluate_ensures.of_run hrun

/-- Two dice with listed faces, of which the first explodes. -/
theorem Roll.run_admitted_exploding : ∃ roll t rest,
    (Roll.evaluate {} roll).run Source.next? (.script [1, 2, 0]) = (.value t, rest) ∧
      t.value.numbers = [5, -3, -3] ∧ ∀ n ∈ t.value.numbers, n.natAbs ≤ 9223372036854775807 := by
  let roll : Roll := ⟨.list, .dice (some (.int 2)) (.custom [.int (-3), .int 5]) [.explode none]⟩
  have hrun : (roll.evaluate {}).run Source.next? (.script [1, 2, 0]) =
      (.value ⟨.list [⟨5, "5!"⟩, ⟨-3, ""⟩, ⟨-3, ""⟩], "2d\x7b-3, 5\x7d! [5!, -3, -3]"⟩,
        .script []) := rfl
  exact ⟨roll, _, _, hrun, rfl, (Roll.run_admitted {} Source.next?).2.2.2 roll _ _ _ hrun⟩

end DiceLang
