import DiceLang.Proofs.Ensures

/-!
# What a call passes on

A property of values that holds of all the arguments of a call holds of its result, if it holds of
all checked numbers, of every part of a list and of the numbers between two others
(`Value.Passed`). What a function makes of its arguments need not be looked into again for each such
property.

* `Value.Passed.result`: the result of a function;
* `Value.Passed.callFunction`: the value of a call.
-/

namespace DiceLang

open Chance

variable {limits : Limits} {p : Value → Prop}

/-- The property holds of each of the arguments. -/
def Arguments.All (p : Value → Prop) : (ks : List Kind) → Arguments ks → Prop
  | [], _ => True
  | k :: ks, (a, rest) => p (k.value a) ∧ All p ks rest

/-- Functions pass the property on from their arguments to their results. -/
structure Value.Passed (limits : Limits) (p : Value → Prop) : Prop where
  checked : ∀ {n m : Int}, limits.check n = .ok m → p (.scalar m)
  part : ∀ {elements elements' : List Element}, elements' ⊆ elements → p (.list elements) →
    p (.list elements')
  range : ∀ {low high : Int}, p (.scalar low) → p (.scalar high) →
    p (.list (Builtin.range low high))

namespace Value.Passed

theorem of_check (h : Value.Passed limits p) {n : Int} {v : Value}
    (hcheck : (limits.check n).map .scalar = .ok v) : p v := by
  cases hn : limits.check n with
  | error e =>
    rw [hn] at hcheck
    cases hcheck
  | ok m =>
    rw [hn] at hcheck
    obtain rfl := Except.ok.inj hcheck
    exact h.checked hn

/-- The elements of a list that a function returns are among those that it is given, or numbers
between two that it is given. Any other result is checked. -/
theorem result (h : Value.Passed limits p) (f : Builtin) {args : Arguments f.parameters}
    {result : f.returns.Carrier} {v : Value} (hargs : Arguments.All p _ args)
    (happly : f.apply limits args = .ok result)
    (hcheck : checkResult limits f.returns result = .ok v) : p v := by
  cases f with
  | sort =>
    obtain ⟨elements, ⟨⟩⟩ := args
    obtain rfl := Except.ok.inj happly
    obtain rfl := Except.ok.inj hcheck
    exact h.part (fun x hx => List.mem_mergeSort.mp hx) hargs.1
  | reverse =>
    obtain ⟨elements, ⟨⟩⟩ := args
    obtain rfl := Except.ok.inj happly
    obtain rfl := Except.ok.inj hcheck
    exact h.part (fun x hx => List.mem_reverse.mp hx) hargs.1
  | take =>
    obtain ⟨n, elements, ⟨⟩⟩ := args
    obtain rfl := Except.ok.inj hcheck
    simp only [Builtin.apply] at happly
    cases hn : Builtin.checkLength .take n with
    | error e =>
      rw [hn] at happly
      cases happly
    | ok m =>
      rw [hn] at happly
      obtain rfl := Except.ok.inj happly
      exact h.part (List.take_subset m elements) hargs.2.1
  | drop =>
    obtain ⟨n, elements, ⟨⟩⟩ := args
    obtain rfl := Except.ok.inj hcheck
    simp only [Builtin.apply] at happly
    cases hn : Builtin.checkLength .drop n with
    | error e =>
      rw [hn] at happly
      cases happly
    | ok m =>
      rw [hn] at happly
      obtain rfl := Except.ok.inj happly
      exact h.part (List.drop_subset m elements) hargs.2.1
  | between =>
    obtain ⟨low, high, ⟨⟩⟩ := args
    obtain rfl := Except.ok.inj hcheck
    simp only [Builtin.apply] at happly
    split at happly
    · cases happly
    · obtain rfl := Except.ok.inj happly
      exact h.range hargs.1 hargs.2.1
  | _ => exact h.of_check hcheck

/-- The value of a call, and its trace if the texts of the arguments have a property too. -/
theorem callFunction (h : Value.Passed limits p) {q : List String → Prop} {name : String}
    {given : Nat}
    {arguments : (ks : List Kind) → given = ks.length → Eval (Arguments ks × List String)}
    (harguments : ∀ ks hks, (arguments ks hks).Ensures (fun _ => True) fun r =>
      Arguments.All p ks r.1 ∧ q r.2) :
    (callFunction limits name given arguments).Ensures (fun _ => True) fun t =>
      p t.value ∧ ∃ (f : Builtin) (traces : List String), t.trace = Written.call f.name traces ∧
        q traces := by
  refine .bind (.of_true _) fun f _ => ?_
  split
  · refine (harguments _ _).bind fun r hr => ?_
    refine (Eval.ensures_liftM (P := fun result => f.apply limits r.1 = .ok result)
      fun _ he => he).bind fun result hresult => ?_
    refine (Eval.ensures_liftM fun v hv => h.result f hr.1 hresult hv).bind fun v hv => ?_
    exact .pure ⟨hv, f, r.2, rfl, hr.2⟩
  · trivial

end Value.Passed

end DiceLang
