import DiceLang.Evaluate

/-!
# How a computation ends

What the values and the failures of a drawing computation have in common (`Chance.EndsIn`), provided
that the outcomes drawn have a property of their own. There is a rule for each way of putting a
computation together.

* `EndsIn.bind`: one computation after another;
* `EndsIn.adapt`: outcomes and errors read through functions;
* `EndsIn.of_run`: the ending of a run.
-/

namespace DiceLang

namespace Chance

variable {ι κ ε δ α β σ : Type} {F : ι → Prop} {E : ε → Prop} {P : α → Prop} {Q : β → Prop}

/-- If all outcomes drawn satisfy `F`, the value satisfies `P`, and a failure satisfies `E`. -/
def EndsIn (F : ι → Prop) (E : ε → Prop) (P : α → Prop) : Chance ι ε α → Prop
  | done a => P a
  | failed e => E e
  | draw next => ∀ i, F i → (next i).EndsIn F E P

/-- Whatever is drawn, a failure satisfies `E`. -/
abbrev FailsIn (E : ε → Prop) (x : Chance ι ε α) : Prop :=
  x.EndsIn (fun _ => True) E fun _ => True

/-- The ending is a value that satisfies `P` or a failure that satisfies `E`, or there was nothing
left to draw. -/
def Ending.IsIn (E : ε → Prop) (P : α → Prop) : Ending ε α → Prop
  | .value a => P a
  | .failed e => E e
  | .exhausted => True

namespace EndsIn

theorem pure {a : α} (h : P a) : (Pure.pure a : Chance ι ε α).EndsIn F E P := h

theorem imp {x : Chance ι ε α} {E' : ε → Prop} {P' : α → Prop} (h : x.EndsIn F E P)
    (hE : ∀ e, E e → E' e) (hP : ∀ a, P a → P' a) : x.EndsIn F E' P' := by
  induction x with
  | done a => exact hP a h
  | failed e => exact hE e h
  | draw next ih => exact fun i hi => ih i (h i hi)

theorem bind {x : Chance ι ε α} {f : α → Chance ι ε β} (h : x.EndsIn F E P)
    (hf : ∀ a, P a → (f a).EndsIn F E Q) : (x >>= f).EndsIn F E Q := by
  induction x with
  | done a => exact hf a h
  | failed e => exact h
  | draw next ih => exact fun i hi => ih i (h i hi)

theorem map {x : Chance ι ε α} {f : α → β} (h : x.EndsIn F E P) (hf : ∀ a, P a → Q (f a)) :
    (f <$> x).EndsIn F E Q := by
  rw [← bind_pure_comp]
  exact h.bind fun a ha => pure (hf a ha)

theorem outcome : (outcome : Chance ι ε ι).EndsIn F E F := fun _ hi => hi

theorem ite {c : Prop} [Decidable c] {x y : Chance ι ε α} (hx : c → x.EndsIn F E P)
    (hy : ¬ c → y.EndsIn F E P) : (if c then x else y).EndsIn F E P := by
  split
  · exact hx ‹_›
  · exact hy ‹_›

theorem liftM {x : Except ε α} (hE : ∀ e, x = .error e → E e) (hP : ∀ a, x = .ok a → P a) :
    (liftM x : Chance ι ε α).EndsIn F E P := by
  cases x with
  | ok a => exact hP a rfl
  | error e => exact hE e rfl

theorem adapt {x : Chance ι ε α} {f : κ → ι} {g : ε → δ} {F' : κ → Prop} {E' : δ → Prop}
    (h : x.EndsIn F E P) (hf : ∀ k, F' k → F (f k)) (hg : ∀ e, E e → E' (g e)) :
    (x.adapt f g).EndsIn F' E' P := by
  induction x with
  | done a => exact h
  | failed e => exact hg e h
  | draw next ih => exact fun k hk => ih (f k) (h (f k) (hf k hk))

theorem mapM {f : α → Chance ι ε β} {as : List α} (h : ∀ a ∈ as, (f a).EndsIn F E Q) :
    (as.mapM f).EndsIn F E fun bs => ∀ b ∈ bs, Q b := by
  induction as with
  | nil =>
    rw [List.mapM_nil]
    exact pure (by simp)
  | cons a as ih =>
    rw [List.mapM_cons]
    refine (h a List.mem_cons_self).bind fun b hb => ?_
    refine (ih fun a ha => h a (List.mem_cons_of_mem _ ha)).bind fun bs hbs => ?_
    exact pure (List.forall_mem_cons.mpr ⟨hb, hbs⟩)

theorem flatMapM {f : α → Chance ι ε (List β)} {as : List α}
    (h : ∀ a ∈ as, (f a).EndsIn F E fun bs => ∀ b ∈ bs, Q b) :
    (as.flatMapM f).EndsIn F E fun bs => ∀ b ∈ bs, Q b := by
  induction as with
  | nil =>
    rw [List.flatMapM_nil]
    exact pure (by simp)
  | cons a as ih =>
    rw [List.flatMapM_cons]
    refine (h a List.mem_cons_self).bind fun bs hbs => ?_
    refine (ih fun a ha => h a (List.mem_cons_of_mem _ ha)).bind fun bs' hbs' => ?_
    exact pure (List.forall_mem_append.mpr ⟨hbs, hbs'⟩)

theorem failsIn {x : Chance ι ε α} (h : x.EndsIn (fun _ => True) E P) : x.FailsIn E :=
  h.imp (fun _ => id) fun _ _ => trivial

/-- What a computation ends in whatever is drawn, every run of it ends in. -/
theorem of_run {x : Chance ι ε α} (h : x.EndsIn (fun _ => True) E P)
    (next? : σ → Option (ι × σ)) (source : σ) : (x.run next? source).1.IsIn E P := by
  induction x generalizing source with
  | done a => exact h
  | failed e => exact h
  | draw next ih =>
    rw [run]
    split
    · trivial
    · exact ih _ (h _ trivial) _

theorem of_failed {x : Chance ι ε α} (h : x.EndsIn (fun _ => True) E P)
    {next? : σ → Option (ι × σ)} {source rest : σ} {e : ε}
    (hrun : x.run next? source = (.failed e, rest)) : E e := by
  have hending := h.of_run next? source
  rw [hrun] at hending
  exact hending

theorem of_value {x : Chance ι ε α} (h : x.EndsIn (fun _ => True) E P)
    {next? : σ → Option (ι × σ)} {source rest : σ} {a : α}
    (hrun : x.run next? source = (.value a, rest)) : P a := by
  have hending := h.of_run next? source
  rw [hrun] at hending
  exact hending

end EndsIn

end Chance

theorem Eval.endsIn_liftM {α : Type} {E : Failure → Prop} {P : α → Prop} {x : Except EvalError α}
    (hE : ∀ err, x = .error err → E err.failure) (hP : ∀ a, x = .ok a → P a) :
    (liftM x : Eval α).EndsIn (fun _ => True) E P := by
  cases x with
  | ok a => exact hP a rfl
  | error err => exact hE err rfl

end DiceLang
