import DiceLang.Proofs.Endings

/-!
# What a computation ensures

A property of the values that a drawing computation may end with (`Chance.Ensures`), provided that
the outcomes drawn have a property of their own; a failure ensures anything. The rules are those of
`Chance.EndsIn`, with no bound on the failures.

* `Ensures.bind`: one computation after another;
* `Ensures.adapt`: outcomes read through a function;
* `Ensures.of_run`: what holds of the value of a run.
-/

namespace DiceLang

namespace Chance

variable {ι κ ε δ α β σ : Type} {F : ι → Prop} {P : α → Prop} {Q : β → Prop}

/-- If all outcomes drawn satisfy `F`, the value satisfies `P`. -/
def Ensures (F : ι → Prop) (P : α → Prop) : Chance ι ε α → Prop
  | done a => P a
  | failed _ => True
  | draw next => ∀ i, F i → (next i).Ensures F P

namespace Ensures

theorem iff_endsIn {x : Chance ι ε α} : x.Ensures F P ↔ x.EndsIn F (fun _ => True) P := by
  induction x with
  | done a => exact Iff.rfl
  | failed e => exact Iff.rfl
  | draw next ih => exact forall_congr' fun i => imp_congr_right fun _ => ih i

theorem pure {a : α} (h : P a) : (Pure.pure a : Chance ι ε α).Ensures F P := h

theorem of_true (x : Chance ι ε α) : x.Ensures F fun _ => True := by
  induction x with
  | done a => trivial
  | failed e => trivial
  | draw next ih => exact fun i _ => ih i

theorem imp {x : Chance ι ε α} {P' : α → Prop} (h : x.Ensures F P) (hP : ∀ a, P a → P' a) :
    x.Ensures F P' :=
  iff_endsIn.mpr ((iff_endsIn.mp h).imp (fun _ => id) hP)

theorem bind {x : Chance ι ε α} {f : α → Chance ι ε β} (h : x.Ensures F P)
    (hf : ∀ a, P a → (f a).Ensures F Q) : (x >>= f).Ensures F Q :=
  iff_endsIn.mpr ((iff_endsIn.mp h).bind fun a ha => iff_endsIn.mp (hf a ha))

theorem map {x : Chance ι ε α} {f : α → β} (h : x.Ensures F P) (hf : ∀ a, P a → Q (f a)) :
    (f <$> x).Ensures F Q :=
  iff_endsIn.mpr ((iff_endsIn.mp h).map hf)

theorem and {x : Chance ι ε α} {P' : α → Prop} (h : x.Ensures F P) (h' : x.Ensures F P') :
    x.Ensures F fun a => P a ∧ P' a := by
  induction x with
  | done a => exact ⟨h, h'⟩
  | failed e => trivial
  | draw next ih => exact fun i hi => ih i (h i hi) (h' i hi)

theorem outcome : (outcome : Chance ι ε ι).Ensures F F := fun _ hi => hi

theorem ite {c : Prop} [Decidable c] {x y : Chance ι ε α} (hx : c → x.Ensures F P)
    (hy : ¬ c → y.Ensures F P) : (if c then x else y).Ensures F P :=
  iff_endsIn.mpr (.ite (fun h => iff_endsIn.mp (hx h)) fun h => iff_endsIn.mp (hy h))

theorem adapt {x : Chance ι ε α} {f : κ → ι} {g : ε → δ} {F' : κ → Prop} (h : x.Ensures F P)
    (hf : ∀ k, F' k → F (f k)) : (x.adapt f g).Ensures F' P :=
  iff_endsIn.mpr ((iff_endsIn.mp h).adapt hf fun _ _ => trivial)

/-- What a computation ensures whatever is drawn holds of the value of every run. -/
theorem of_run {x : Chance ι ε α} (h : x.Ensures (fun _ => True) P) {next? : σ → Option (ι × σ)}
    {source rest : σ} {a : α} (hrun : x.run next? source = (.value a, rest)) : P a :=
  (iff_endsIn.mp h).of_value hrun

end Ensures

theorem EndsIn.ensures {E : ε → Prop} {x : Chance ι ε α} (h : x.EndsIn F E P) : x.Ensures F P :=
  Ensures.iff_endsIn.mpr (h.imp (fun _ _ => trivial) fun _ => id)

end Chance

/-! ## Steps of an evaluation that draw nothing -/

theorem Eval.ensures_liftM {α : Type} {P : α → Prop} {x : Except EvalError α}
    (h : ∀ a, x = .ok a → P a) : (liftM x : Eval α).Ensures (fun _ => True) P :=
  (Eval.endsIn_liftM (E := fun _ => True) (fun _ _ => trivial) h).ensures

theorem traced_eq_ok {x : Except EvalError Int} {trace : String} {t : Traced Int}
    (h : (do return (⟨← x, trace⟩ : Traced Int)) = .ok t) : x = .ok t.value ∧ t.trace = trace := by
  cases x with
  | error e => cases h
  | ok n =>
    obtain rfl := Except.ok.inj h
    exact ⟨rfl, rfl⟩

theorem asNumber_eq_ok {function : String} {e : Expr} {t : Traced Value} {n : Traced Int}
    (h : asNumber function e t = .ok n) : t = n.map .scalar := by
  obtain ⟨v, trace⟩ := t
  cases v with
  | scalar value =>
    obtain rfl := Except.ok.inj h
    rfl
  | list elements => cases h

theorem asList_eq_ok {function : String} {e : Expr} {t : Traced Value}
    {elements : Traced (List Element)} (h : asList function e t = .ok elements) :
    t = elements.map .list := by
  obtain ⟨v, trace⟩ := t
  cases v with
  | scalar value => cases h
  | list elements =>
    obtain rfl := Except.ok.inj h
    rfl

end DiceLang
