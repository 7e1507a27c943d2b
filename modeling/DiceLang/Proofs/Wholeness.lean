import DiceLang.Proofs.Blame
import DiceLang.Proofs.ExactArithmetic
import DiceLang.Proofs.PlainDice
import DiceLang.Proofs.RoundTrip
import DiceLang.Proofs.Widening
import DiceLang.Supply

/-!
# What is read can be walked

A tree that is built by hand may lack parts that its evaluation takes for granted. A tree that is
read lacks none: it is whole, and so its evaluation ends in a value or in an error of evaluation,
if not always in one that can be told.

* `Expr.IsWhole`: a node lacks nothing;
* `Derives.whole`: a derived tree is whole, by induction on the derivation;
* `Roll.run_whole`: how the evaluation of a roll that is read ends.
-/

namespace DiceLang

/-! ## Whole trees -/

/-- A `!` after the condition of an `rr` belongs to the `rr`, so that no modifier that adds dice may
follow one that rerolls once. -/
def Modifier.MayPrecede {ε : Type} (m m' : Modifier ε) : Prop :=
  ∀ c c', m = .reroll false c → m' ≠ .explode c'

/-- The node lacks nothing: it is no gap, where a count or a target was left out, a die has a face,
and dice without a count have modifiers, in an order in which they can be written. -/
def Expr.IsWhole : Expr → Prop
  | .gap _ => False
  | .die d => d ≠ .custom []
  | .dice count d ms => d ≠ .custom [] ∧ (count = none → ms ≠ []) ∧ ms.IsChain Modifier.MayPrecede
  | _ => True

/-- No node lacks anything. -/
abbrev Expr.Whole (e : Expr) : Prop := e.Everywhere IsWhole

namespace Grammar

variable {depth n : Nat} {ls : List Lexeme}

/-- The phrase's tree is whole, if what stands to its left is. -/
def Part.Whole : Part → Prop
  | .sumRest left e | .productRest left e => left.Whole → e.Whole
  | .condition c => c.target.Whole
  | .die d => d ≠ .custom [] ∧ ∀ x ∈ d.parts, x.Whole
  | .modifier m => ∀ x ∈ m.parts, x.Whole
  | .modifiers ms => ms.IsChain Modifier.MayPrecede ∧ ∀ x ∈ ms.flatMap Modifier.parts, x.Whole
  | .items _ es => ∀ x ∈ es, x.Whole
  | .expr e | .product e | .negation e | .power e | .primary e | .count e | .item _ e | .list e
  | .call e | .repetition e | .modifiedDice e => e.Whole

theorem Derives.whole {part : Part} (h : Derives depth n ls part) : part.Whole := by
  induction h with
  | expr _ _ _ ih₁ ih₂ | product _ _ ih₁ ih₂ => exact ih₂ ih₁
  | sumEnd | productEnd => exact id
  | sumNext _ _ _ _ ih₁ ih₂ | productNext _ _ _ _ ih₁ ih₂ =>
    exact fun hleft => ih₂ (.intro trivial (by simpa [Expr.parts] using ⟨hleft, ih₁⟩))
  | minus _ _ ih | paren _ ih => exact .intro trivial (List.forall_mem_singleton.mpr ih)
  | power _ _ _ ih₁ ih₂ => exact .intro trivial (by simpa [Expr.parts] using ⟨ih₁, ih₂⟩)
  | plain _ ih | base _ ih | number _ ih | called _ ih | compared _ ih | equal _ ih
  | plainItem _ ih | listItem _ ih | repeatedItem _ ih | modifiedDice _ ih => exact ih
  | int | callEmpty => exact .intro trivial (List.forall_mem_nil _)
  | dice _ _ _ ih₁ ih₂ ih₃ =>
    refine .intro ⟨ih₂.1, by simp, ih₃.1⟩ (List.forall_mem_append.mpr ⟨?_, ih₂.2⟩)
    exact List.forall_mem_append.mpr ⟨List.forall_mem_singleton.mpr ih₁, ih₃.2⟩
  | oneDie _ ih => exact .intro ih.1 ih.2
  | oneModified _ _ ih₁ ih₂ =>
    exact .intro ⟨ih₁.1, fun _ => List.cons_ne_nil _ _, ih₂.1⟩
      (List.forall_mem_append.mpr ⟨ih₂.2, ih₁.2⟩)
  | numbered _ ih => exact ⟨by simp, List.forall_mem_singleton.mpr ih⟩
  | custom _ hitems ih => exact ⟨fun hd => hitems.items_ne_nil (by simpa using hd), ih⟩
  | select _ ih | filter _ ih | reroll _ ih | rerollUntil _ ih | explodeWhere _ ih =>
    exact List.forall_mem_singleton.mpr ih
  | explode => exact List.forall_mem_nil _
  | noModifier => exact ⟨.nil, List.forall_mem_nil _⟩
  | nextModifier _ hms hbang ih₁ ih₂ =>
    refine ⟨List.isChain_cons.mpr ⟨?_, ih₂.1⟩, ?_⟩
    · rintro _ hhead c c' hm rfl
      obtain ⟨ms', rfl⟩ := List.head?_eq_some_iff.mp hhead
      exact hbang c hm (hms.modifiers_bang.mpr ⟨c', ms', rfl⟩)
    · rw [List.flatMap_cons, List.forall_mem_append]
      exact ⟨ih₁, ih₂.2⟩
  | lastItem _ ih => exact List.forall_mem_singleton.mpr ih
  | nextItem _ _ ih₁ ih₂ => exact List.forall_mem_cons.mpr ⟨ih₁, ih₂⟩
  | list _ _ ih | call _ _ _ ih => exact .intro trivial ih
  | repeatedList _ _ ih₁ ih₂ | repeatedExpr _ _ ih₁ ih₂ =>
    exact .intro trivial (by simpa [Expr.parts] using ⟨ih₁, ih₂⟩)

end Grammar

/-! ## Evaluations of whole trees -/

/-- The failure is an error of evaluation, told or not, and not that of a die without faces. -/
def Failure.IsProper (f : Failure) : Prop := ∃ err : EvalError, f = err.failure ∧ err ≠ .noFaces

theorem Expr.IsWhole.isProper {e : Expr} (h : e.IsWhole) {f : Failure} (hf : e.Blames f) :
    f.IsProper := by
  cases hf with
  | gap => exact h.elim
  | die => exact absurd rfl h
  | dice => exact absurd rfl h.1
  | unknown => exact ⟨_, rfl, nofun⟩
  | arity => exact ⟨_, rfl, nofun⟩
  | @misfit _ k => cases k <;> exact ⟨_, rfl, nofun⟩

theorem Failure.OrdinaryOr.isProper {f : Failure} (h : f.OrdinaryOr Failure.IsProper) :
    f.IsProper := by
  cases h with
  | @ordinary err h =>
    refine ⟨err, rfl, ?_⟩
    rintro rfl
    exact h
  | blamed h => exact h

namespace Expr.Whole

variable {limits : Limits} {e : Expr}

theorem blamedIn (h : e.Whole) : e.BlamedIn Failure.IsProper := h.imp fun _ h _ => h.isProper

theorem neededIn (h : e.Whole) (k : Kind) : e.NeededIn Failure.IsProper k :=
  ⟨h.blamedIn, fun _ _ _ => by cases k <;> exact ⟨_, rfl, nofun⟩⟩

theorem evaluate_endsIn (h : e.Whole) : (e.evaluate limits).EndsIn (fun _ => True)
    Failure.IsProper fun t => e.valueKind? = some t.value.kind :=
  (e.evaluate_endsIn h.blamedIn).imp (fun _ hf => hf.isProper) fun _ => id

theorem number_failsIn (h : e.Whole) (function : String) :
    (e.number limits function).FailsIn Failure.IsProper :=
  (e.number_failsIn function (h.neededIn .scalar)).imp (fun _ hf => hf.isProper) fun _ => id

theorem elements_failsIn (h : e.Whole) (function : String) :
    (e.elements limits function).FailsIn Failure.IsProper :=
  (Expr.elements_failsIn function (h.neededIn .list)).imp (fun _ hf => hf.isProper) fun _ => id

end Expr.Whole

/-- A call of a function that returns a number. -/
def Expr.IsNumberCall (e : Expr) : Prop :=
  ∃ name args f, e = .call name args ∧ Builtin.ofName? name = some f ∧ f.returns = .scalar

/-- A tree that is read for a list has a list for its value, but for a call. -/
theorem Expr.eq_list_or_isNumberCall {e : Expr} {k : Kind} (hread : e.kind = .list)
    (hvalue : e.valueKind? = some k) : k = .list ∨ e.IsNumberCall := by
  cases e with
  | call name args =>
    cases k with
    | list => exact .inl rfl
    | scalar =>
      obtain ⟨f, hf, hreturns⟩ := Option.map_eq_some_iff.mp hvalue
      exact .inr ⟨name, args, f, rfl, hf, hreturns⟩
  | list | repeated | dice =>
    cases hvalue
    exact .inl rfl
  | _ => cases hread

namespace Roll

open Grammar Chance

variable {limits : Limits} {text : String} {parsed : Roll}

theorem evaluate_endsIn (h : parsed.expr.Whole) (hkind : parsed.kind = parsed.expr.kind) :
    (parsed.evaluate limits).EndsIn (fun _ => True) Failure.IsProper fun t =>
      (parsed.kind = .scalar → t.value.kind = .scalar) ∧
        (parsed.kind = .list → t.value.kind = .list ∨ parsed.expr.IsNumberCall) := by
  unfold evaluate
  split
  · rename_i hscalar
    exact (h.number_failsIn "").bind fun t _ => .pure ⟨fun _ => rfl, by simp [hscalar]⟩
  · rename_i hlist
    refine h.evaluate_endsIn.imp (fun _ => id) fun t ht => ⟨by simp [hlist], fun _ => ?_⟩
    exact Expr.eq_list_or_isNumberCall (hkind.symm.trans hlist) ht

end Roll

end DiceLang
