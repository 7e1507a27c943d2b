import DiceLang.Proofs.Ordinary
import DiceLang.Proofs.Parts

/-!
# What a failure is due to

A failure that is no ordinary error shows in the tree before anything is drawn, at the node that is
to blame for it: a gap, a die without faces, a call that cannot be made, or a part whose value is of
the wrong kind.

* `Expr.valueKind?`: the kind of an expression's own value, as the tree shows it;
* `Expr.Blames`: the failures that a node is to blame for;
* `Expr.BlamedIn`: what they have in common, for all nodes of a tree;
* `Expr.evaluate_endsIn`, `Expr.number_endsIn`: an evaluation fails with an ordinary error or with
  one that a node is to blame for, and its value is of the kind that the tree shows.
-/

namespace DiceLang

open Chance

/-! ## Kinds of values -/

namespace Expr

/-- The kind of the expression's own value. A gap and a call of no function have none. -/
def valueKind? : Expr → Option Kind
  | .paren inner => inner.valueKind?
  | .int _ | .binary .. | .negate _ | .die _ => some .scalar
  | .dice .. | .list _ | .repeated .. => some .list
  | .call name _ => (Builtin.ofName? name).map Builtin.returns
  | .gap _ => none

/-- The expression is a set of dice, in parentheses or not. -/
def isDice : Expr → Bool
  | .paren inner => inner.isDice
  | .dice .. => true
  | _ => false

/-- The parts that are needed as a number or as a list. -/
def needs : Expr → List (Kind × Expr)
  | .paren _ => []
  | .call name args => ((Builtin.ofName? name).map fun f => f.parameters.zip args).getD []
  | .repeated count inner => (.scalar, count) :: if inner.keepsKind then [] else [(.scalar, inner)]
  | e => e.parts.map (Prod.mk .scalar)

theorem mem_parts_of_needs {e x : Expr} {k : Kind} (h : (k, x) ∈ e.needs) : x ∈ e.parts := by
  cases e with
  | paren inner => cases h
  | call name args =>
    rw [needs] at h
    cases hf : Builtin.ofName? name with
    | none =>
      rw [hf] at h
      cases h
    | some f =>
      rw [hf] at h
      exact (List.of_mem_zip h).2
  | repeated count inner =>
    rcases List.mem_cons.mp h with h | h
    · cases h
      exact List.mem_cons_self
    · split at h
      · cases h
      · cases List.mem_singleton.mp h
        exact List.mem_cons_of_mem _ List.mem_cons_self
  | _ =>
    obtain ⟨_, hx, he⟩ := List.mem_map.mp h
    cases he
    exact hx

/-- The expression has a value, but none of the kind that is needed. A set of dice has both, a list
and its total. -/
def Misfits : Kind → Expr → Prop
  | .scalar, e => e.valueKind? = some .list ∧ e.isDice = false
  | .list, e => e.valueKind? = some .scalar

end Expr

/-! ## Failures -/

/-- The error of an expression that is needed in the kind and has a value of the other. -/
def Kind.misfit : Kind → String → String → EvalError
  | .scalar => .listForNumber
  | .list => .numberForList

/-- The failures that are due to the node itself, not to a part of it. -/
inductive Expr.Blames : Expr → Failure → Prop
  | gap {g} : Blames (.gap g) (.gap g)
  | die : Blames (.die (.custom [])) EvalError.noFaces.failure
  | dice {count ms} : Blames (.dice count (.custom []) ms) EvalError.noFaces.failure
  | unknown {name args} : Builtin.ofName? name = none →
      Blames (.call name args) (EvalError.unknownFunction name).failure
  | arity {name args f} : Builtin.ofName? name = some f → args.length ≠ f.arity →
      Blames (.call name args) (EvalError.wrongArity f.name f.arity args.length).failure
  | misfit {e k x function text} : (k, x) ∈ e.needs → x.Misfits k →
      Blames e (k.misfit function text).failure

/-- The failure is an ordinary error or satisfies `B`. -/
inductive Failure.OrdinaryOr (B : Failure → Prop) : Failure → Prop
  | ordinary {err : EvalError} : err.IsOrdinary → OrdinaryOr B err.failure
  | blamed {f} : B f → OrdinaryOr B f

/-- All failures that a node of the tree is to blame for satisfy `B`. -/
def Expr.BlamedIn (B : Failure → Prop) (e : Expr) : Prop :=
  e.Everywhere fun x => ∀ f, x.Blames f → B f

/-- Besides, if the expression does not fit the kind in which it is needed, that failure satisfies
`B`. -/
structure Expr.NeededIn (B : Failure → Prop) (k : Kind) (e : Expr) : Prop where
  blamed : e.BlamedIn B
  misfit : e.Misfits k → ∀ function text, B (k.misfit function text).failure

/-- All failures that the die or a node of its parts is to blame for satisfy `B`. -/
structure Die.NeededIn (B : Failure → Prop) (d : Die Expr) : Prop where
  parts : ∀ x ∈ d.parts, x.NeededIn B .scalar
  faces : d = .custom [] → B EvalError.noFaces.failure

namespace Expr.BlamedIn

variable {B : Failure → Prop} {e x inner left right count : Expr}

theorem here (h : e.BlamedIn B) {f : Failure} (hf : e.Blames f) : f.OrdinaryOr B :=
  .blamed (Everywhere.here h f hf)

theorem gap {g : Gap} (h : e.BlamedIn B) (hg : e.gap? = some g) :
    Failure.OrdinaryOr B (.gap g) :=
  .blamed (Everywhere.gap h hg _ .gap)

theorem needed (h : e.BlamedIn B) {k : Kind} (hx : (k, x) ∈ e.needs) : x.NeededIn B k where
  blamed := h.part (mem_parts_of_needs hx)
  misfit hm _ _ := Everywhere.here h _ (.misfit hx hm)

/-! ### The parts of each form -/

theorem of_paren (h : (paren inner).BlamedIn B) : inner.BlamedIn B := h.part List.mem_cons_self

theorem of_binary {op : Operator} (h : (binary op left right).BlamedIn B) :
    left.NeededIn B .scalar ∧ right.NeededIn B .scalar :=
  ⟨h.needed List.mem_cons_self, h.needed (List.mem_cons_of_mem _ List.mem_cons_self)⟩

theorem of_negate (h : (negate inner).BlamedIn B) : inner.NeededIn B .scalar :=
  h.needed List.mem_cons_self

theorem of_die {d : Die Expr} (h : (die d).BlamedIn B) : d.NeededIn B where
  parts _ hx := h.needed (List.mem_map_of_mem hx)
  faces hd := Everywhere.here h _ (hd ▸ .die)

theorem of_dice {count : Option Expr} {d : Die Expr} {ms : List (Modifier Expr)}
    (h : (dice count d ms).BlamedIn B) : (∀ x ∈ count.toList, x.NeededIn B .scalar) ∧
      (∀ x ∈ ms.flatMap Modifier.parts, x.NeededIn B .scalar) ∧ d.NeededIn B := by
  have hparts : ∀ x ∈ count.toList ++ ms.flatMap Modifier.parts ++ d.parts,
    x.NeededIn B .scalar := fun _ hx => h.needed (List.mem_map_of_mem hx)
  rw [List.forall_mem_append, List.forall_mem_append] at hparts
  exact ⟨hparts.1.1, hparts.1.2, hparts.2, fun hd => Everywhere.here h _ (hd ▸ .dice)⟩

theorem of_call {name : String} {args : List Expr} {f : Builtin} (h : (call name args).BlamedIn B)
    (hf : Builtin.ofName? name = some f) :
    ∀ k x, (k, x) ∈ f.parameters.zip args → x.NeededIn B k := by
  intro k x hx
  refine h.needed ?_
  rw [needs, hf]
  exact hx

theorem of_list {items : List Expr} (h : (list items).BlamedIn B) :
    ∀ x ∈ items, x.NeededIn B .scalar := fun _ hx => h.needed (List.mem_map_of_mem hx)

theorem of_repeated (h : (repeated count inner).BlamedIn B) : count.NeededIn B .scalar ∧
    inner.BlamedIn B ∧ (inner.keepsKind = false → inner.NeededIn B .scalar) := by
  refine ⟨h.needed List.mem_cons_self, h.part (List.mem_cons_of_mem _ List.mem_cons_self),
    fun hkind => h.needed ?_⟩
  rw [needs, if_neg (by simp [hkind])]
  exact List.mem_cons_of_mem _ List.mem_cons_self

end Expr.BlamedIn

/-! ## Evaluations -/

section

open Failure (OrdinaryOr)

variable {limits : Limits} {B : Failure → Prop}

theorem Eval.fail_endsIn {α : Type} {P : α → Prop} {err : EvalError} (h : err.IsOrdinary) :
    (fail err : Eval α).EndsIn (fun _ => True) (OrdinaryOr B) P :=
  OrdinaryOr.ordinary h

theorem Ordinary.failsIn {α : Type} {x : Except EvalError α} (hx : Ordinary x) :
    (liftM x : Eval α).FailsIn (OrdinaryOr B) :=
  Eval.endsIn_liftM (fun err h => .ordinary (hx err h)) fun _ _ => trivial

theorem Die.throw_failsIn {α : Type} (die : Die Int) {t : ThrownDie.Throw α}
    (h : t.FailsIn EvalError.IsOrdinary) : (die.throw t).FailsIn (OrdinaryOr B) :=
  h.adapt (fun _ _ => trivial) fun _ => .ordinary

theorem throwOne_failsIn (die : Die (Traced Int)) : (throwOne die).FailsIn (OrdinaryOr B) :=
  (Die.throw_failsIn _ .outcome).bind fun _ _ => .pure trivial

theorem throwSet_failsIn {count : Eval (Traced Int)} {die : Eval (Die (Traced Int))}
    {modify : Die Int → List ThrownDie → Eval (List ThrownDie × List (Modifier String))}
    (hcount : count.FailsIn (OrdinaryOr B)) (hdie : die.FailsIn (OrdinaryOr B))
    (hmodify : ∀ die dice, (modify die dice).FailsIn (OrdinaryOr B)) :
    (throwSet limits count die modify).FailsIn (OrdinaryOr B) := by
  refine hcount.bind fun count _ => (checkDice_ordinary _).failsIn.bind fun _ _ => ?_
  refine hdie.bind fun die _ => ?_
  refine (Die.throw_failsIn _ (ThrownDie.throwDice_endsIn _).failsIn).bind fun thrown _ => ?_
  exact (hmodify _ thrown).bind fun r _ => .pure trivial

theorem find_endsIn {name : String} {args : List Expr} (h : (Expr.call name args).BlamedIn B) :
    (liftM (Builtin.find name) : Eval Builtin).EndsIn (fun _ => True) (OrdinaryOr B) fun f =>
      Builtin.ofName? name = some f := by
  unfold Builtin.find
  split
  · assumption
  · exact h.here (.unknown ‹_›)

theorem checkResult_kind {k : Kind} {result : k.Carrier} {v : Value}
    (h : checkResult limits k result = .ok v) : v.kind = k := by
  cases k with
  | scalar =>
    rw [checkResult] at h
    cases hn : limits.check result with
    | ok n =>
      rw [hn] at h
      obtain rfl := Except.ok.inj h
      rfl
    | error err =>
      rw [hn] at h
      cases h
  | list =>
    obtain rfl := Except.ok.inj h
    rfl

theorem callFunction_endsIn {name : String} {args : List Expr}
    (h : (Expr.call name args).BlamedIn B)
    {arguments : (ks : List Kind) → args.length = ks.length → Eval (Arguments ks × List String)}
    (harguments : ∀ f, Builtin.ofName? name = some f → ∀ hks,
      (arguments f.parameters hks).FailsIn (OrdinaryOr B)) :
    (callFunction limits name args.length arguments).EndsIn (fun _ => True) (OrdinaryOr B) fun t =>
      (Expr.call name args).valueKind? = some t.value.kind := by
  refine (find_endsIn h).bind fun f hf => ?_
  split
  · refine (harguments f hf _).bind fun r _ => ?_
    refine (f.apply_ordinary r.1).failsIn.bind fun result _ => ?_
    refine (Eval.endsIn_liftM (P := fun v => v.kind = f.returns)
      (fun err herr => .ordinary (checkResult_ordinary _ _ err herr))
      fun v hv => checkResult_kind hv).bind fun v hv => .pure ?_
    rw [Expr.valueKind?, hf, hv]
    rfl
  · exact h.here (.arity hf ‹_›)

theorem repeatItem_failsIn (limit : Nat) {item : Eval (List Element)}
    (h : item.FailsIn (OrdinaryOr B)) (count : Nat) (elements : List Element) :
    (repeatItem limit item count elements).FailsIn (OrdinaryOr B) := by
  induction count generalizing elements with
  | zero => exact .pure trivial
  | succ count ih =>
    exact h.bind fun more _ => .ite (fun _ => Eval.fail_endsIn trivial) fun _ => ih _

theorem repeatValue_failsIn {count : Eval (Traced Int)} {item : Eval (List Element)} {inner : Expr}
    (hcount : count.FailsIn (OrdinaryOr B)) (hitem : item.FailsIn (OrdinaryOr B))
    (hinner : inner.BlamedIn B) :
    (repeatValue limits count item inner).FailsIn (OrdinaryOr B) := by
  refine hcount.bind fun count _ => .ite (fun _ => Eval.fail_endsIn trivial) fun _ =>
    .ite (fun _ => Eval.fail_endsIn trivial) fun _ => ?_
  refine (repeatItem_failsIn _ hitem _ _).bind fun elements _ => ?_
  rw [Expr.write]
  cases hg : inner.gap? with
  | none => exact .pure trivial
  | some g => exact hinner.gap hg

theorem itemElements_failsIn {item : Expr} {value : Eval (Traced Value)}
    {number : Eval (Traced Int)} (hvalue : value.FailsIn (OrdinaryOr B))
    (hnumber : item.keepsKind = false → number.FailsIn (OrdinaryOr B)) :
    (itemElements item value number).FailsIn (OrdinaryOr B) :=
  .ite (fun _ => hvalue.map fun _ _ => trivial) fun h => (hnumber (by simpa using h)).map
    fun _ _ => trivial

theorem asNumber_failsIn {function : String} {e : Expr} {t : Traced Value}
    (hkind : e.valueKind? = some t.value.kind) (hdice : e.isDice = false)
    (h : e.NeededIn B .scalar) :
    (liftM (asNumber function e t) : Eval (Traced Int)).FailsIn (OrdinaryOr B) := by
  obtain ⟨v, trace⟩ := t
  cases v with
  | scalar n => trivial
  | list elements => exact .blamed (h.misfit ⟨hkind, hdice⟩ function e.text)

theorem asList_failsIn {function : String} {e : Expr} {t : Traced Value}
    (hkind : e.valueKind? = some t.value.kind) (h : e.NeededIn B .list) :
    (liftM (asList function e t) : Eval (Traced (List Element))).FailsIn (OrdinaryOr B) := by
  obtain ⟨v, trace⟩ := t
  cases v with
  | scalar n => exact .blamed (h.misfit hkind function e.text)
  | list elements => trivial

-- One case for each equation of the evaluation, which holds by definition: what is known of the
-- parts, and a rule for each step of the equation.
mutual

/-- An evaluation fails with an ordinary error or with one that a node of the tree is to blame for;
its value is of the kind that the tree shows. -/
theorem Expr.evaluate_endsIn : (e : Expr) → e.BlamedIn B →
    (e.evaluate limits).EndsIn (fun _ => True) (OrdinaryOr B) fun t =>
      e.valueKind? = some t.value.kind
  | .int n, _ => by
    exact (literal_ordinary n).failsIn.bind fun t _ => .pure rfl
  | .paren inner, h => by
    exact (Expr.evaluate_endsIn inner h.of_paren).bind fun t ht => .pure ht
  | .binary op left right, h => by
    refine (Expr.number_failsIn "" left h.of_binary.1).bind fun left _ => ?_
    refine (Expr.number_failsIn "" right h.of_binary.2).bind fun right _ => ?_
    exact (combine_ordinary op left right).failsIn.bind fun t _ => .pure rfl
  | .negate inner, h => by
    refine (Expr.number_failsIn "" inner h.of_negate).bind fun t _ => ?_
    exact (opposite_ordinary t).failsIn.bind fun t _ => .pure rfl
  | .die d, h => by
    refine (evaluateDie_failsIn d h.of_die).bind fun d _ => ?_
    exact (throwOne_failsIn d).bind fun t _ => .pure rfl
  | .dice count d ms, h => by
    obtain ⟨hcount, hms, hd⟩ := h.of_dice
    exact (throwSet_failsIn (evaluateCount_failsIn count hcount) (evaluateDie_failsIn d hd)
      (modify_failsIn ms hms)).bind fun dice _ => .pure rfl
  | .call name args, h => by
    exact callFunction_endsIn h fun f hf hks =>
      evaluateArguments_failsIn name args f.parameters hks (h.of_call hf)
  | .list items, h => by
    exact (evaluateItems_failsIn items h.of_list).bind fun ts _ => .pure rfl
  | .repeated count inner, h => by
    obtain ⟨hcount, hvalue, hnumber⟩ := h.of_repeated
    exact (repeatValue_failsIn (Expr.number_failsIn "" count hcount)
      (itemElements_failsIn (Expr.evaluate_endsIn inner hvalue).failsIn
        fun hkind => Expr.number_failsIn "" inner (hnumber hkind)) hvalue).bind
          fun t _ => .pure rfl
  | .gap g, h => by
    exact h.here .gap

/-- So does an evaluation as a number, but for the error of a value that is a list. -/
theorem Expr.number_failsIn (function : String) : (e : Expr) → e.NeededIn B .scalar →
    (e.number limits function).FailsIn (OrdinaryOr B)
  | .int n, _ => by
    exact (literal_ordinary n).failsIn
  | .paren inner, h => by
    exact (Expr.number_failsIn function inner ⟨h.blamed.of_paren, h.misfit⟩).bind
      fun t _ => .pure trivial
  | .binary op left right, h => by
    refine (Expr.number_failsIn "" left h.blamed.of_binary.1).bind fun left _ => ?_
    refine (Expr.number_failsIn "" right h.blamed.of_binary.2).bind fun right _ => ?_
    exact (combine_ordinary op left right).failsIn
  | .negate inner, h => by
    refine (Expr.number_failsIn "" inner h.blamed.of_negate).bind fun t _ => ?_
    exact (opposite_ordinary t).failsIn
  | .die d, h => by
    exact (evaluateDie_failsIn d h.blamed.of_die).bind fun d _ => throwOne_failsIn d
  | .dice count d ms, h => by
    obtain ⟨hcount, hms, hd⟩ := h.blamed.of_dice
    refine (throwSet_failsIn (evaluateCount_failsIn count hcount) (evaluateDie_failsIn d hd)
      (modify_failsIn ms hms)).bind fun dice _ => ?_
    exact (limits.check_ordinary _).failsIn.bind fun n _ => .pure trivial
  | .call name args, h => by
    refine (callFunction_endsIn h.blamed fun f hf hks =>
      evaluateArguments_failsIn name args f.parameters hks (h.blamed.of_call hf)).bind
        fun t ht => ?_
    exact asNumber_failsIn ht rfl h
  | .list items, h => by
    refine (evaluateItems_failsIn items h.blamed.of_list).bind fun ts _ => ?_
    exact .blamed (h.misfit ⟨rfl, rfl⟩ function _)
  | .repeated count inner, h => by
    obtain ⟨hcount, hvalue, hnumber⟩ := h.blamed.of_repeated
    refine (repeatValue_failsIn (Expr.number_failsIn "" count hcount)
      (itemElements_failsIn (Expr.evaluate_endsIn inner hvalue).failsIn
        fun hkind => Expr.number_failsIn "" inner (hnumber hkind)) hvalue).bind fun t _ => ?_
    exact .blamed (h.misfit ⟨rfl, rfl⟩ function _)
  | .gap g, h => by
    exact h.blamed.here .gap

theorem evaluateItems_failsIn : (es : List Expr) → (∀ x ∈ es, x.NeededIn B .scalar) →
    (evaluateItems limits es).FailsIn (OrdinaryOr B)
  | [], _ => by
    trivial
  | e :: es, h => by
    refine (Expr.number_failsIn "" e (h e List.mem_cons_self)).bind fun t _ => ?_
    exact (evaluateItems_failsIn es fun x hx => h x (List.mem_cons_of_mem e hx)).bind
      fun ts _ => .pure trivial

theorem evaluateCount_failsIn : (count : Option Expr) →
    (∀ x ∈ count.toList, x.NeededIn B .scalar) →
    (evaluateCount limits count).FailsIn (OrdinaryOr B)
  | none, _ => by
    trivial
  | some e, h => by
    exact Expr.number_failsIn "" e (h e List.mem_cons_self)

theorem evaluateDie_failsIn : (d : Die Expr) → d.NeededIn B →
    (evaluateDie limits d).FailsIn (OrdinaryOr B)
  | .numbered sides, h => by
    refine (Expr.number_failsIn "" sides (h.parts sides List.mem_cons_self)).bind fun t _ => ?_
    exact (checkSides_ordinary t.value).failsIn.bind fun _ _ => .pure trivial
  | .custom [], h => by
    exact .blamed (h.faces rfl)
  | .custom (face :: faces), h => by
    refine (Expr.number_failsIn "" face (h.parts face List.mem_cons_self)).bind fun t _ => ?_
    exact (evaluateItems_failsIn faces fun x hx => h.parts x (List.mem_cons_of_mem face hx)).bind
      fun ts _ => .pure trivial

theorem evaluateCondition_failsIn : (c : Condition Expr) → c.target.NeededIn B .scalar →
    (evaluateCondition limits c).FailsIn (OrdinaryOr B)
  | ⟨comparison, target⟩, h => by
    exact (Expr.number_failsIn "" target h).bind fun t _ => .pure trivial

theorem evaluateModifier_failsIn : (m : Modifier Expr) →
    (∀ x ∈ m.parts, x.NeededIn B .scalar) → (evaluateModifier limits m).FailsIn (OrdinaryOr B)
  | .select selection count, h => by
    exact (Expr.number_failsIn "" count (h count List.mem_cons_self)).bind fun t _ => .pure trivial
  | .filter keep c, h => by
    exact (evaluateCondition_failsIn c (h _ List.mem_cons_self)).bind fun c _ => .pure trivial
  | .reroll untilClear c, h => by
    exact (evaluateCondition_failsIn c (h _ List.mem_cons_self)).bind fun c _ => .pure trivial
  | .explode none, _ => by
    trivial
  | .explode (some c), h => by
    exact (evaluateCondition_failsIn c (h _ List.mem_cons_self)).bind fun c _ => .pure trivial

theorem modify_failsIn : (ms : List (Modifier Expr)) →
    (∀ x ∈ ms.flatMap Modifier.parts, x.NeededIn B .scalar) → (die : Die Int) →
    (dice : List ThrownDie) → (modify limits ms die dice).FailsIn (OrdinaryOr B)
  | [], _, _, _ => by
    trivial
  | m :: ms, h, die, dice => by
    rw [List.flatMap_cons, List.forall_mem_append] at h
    refine (evaluateModifier_failsIn m h.1).bind fun m' _ => ?_
    have hdice : ThrownDie.All (fun _ => True) dice := fun _ _ => trivial
    refine (Die.throw_failsIn die (Modifier.apply_endsIn _ _ _ hdice).failsIn).bind
      fun dice _ => ?_
    exact (modify_failsIn ms h.2 die dice).bind fun r _ => .pure trivial

theorem evaluateArguments_failsIn (function : String) : (es : List Expr) → (ks : List Kind) →
    (hks : es.length = ks.length) → (∀ k x, (k, x) ∈ ks.zip es → x.NeededIn B k) →
    (evaluateArguments limits function es ks hks).FailsIn (OrdinaryOr B)
  | [], [], _, _ => by
    trivial
  | e :: es, .scalar :: ks, hks, h => by
    refine (Expr.number_failsIn function e (h _ _ List.mem_cons_self)).bind fun t _ => ?_
    exact (evaluateArguments_failsIn function es ks _
      fun k x hx => h k x (List.mem_cons_of_mem _ hx)).bind fun r _ => .pure trivial
  | e :: es, .list :: ks, hks, h => by
    have he := h _ _ List.mem_cons_self
    refine (Expr.evaluate_endsIn e he.blamed).bind fun t ht => ?_
    refine (asList_failsIn ht he).bind fun t _ => ?_
    exact (evaluateArguments_failsIn function es ks _
      fun k x hx => h k x (List.mem_cons_of_mem _ hx)).bind fun r _ => .pure trivial

end

theorem Expr.elements_failsIn (function : String) {e : Expr} (h : e.NeededIn B .list) :
    (e.elements limits function).FailsIn (OrdinaryOr B) :=
  (e.evaluate_endsIn h.blamed).bind fun _ ht => asList_failsIn ht h

end

end DiceLang
