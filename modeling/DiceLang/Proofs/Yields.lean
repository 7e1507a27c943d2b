import DiceLang.Proofs.Ensures

/-!
# What a computation may come to

The values that some outcomes lead to (`Chance.Yields`). Where two runs of one computation are
compared, what each comes to is taken apart along the way it was computed.

* `Chance.yields_bind`, `Chance.yields_map`: what came before a value;
* `Chance.Yields.of_run`: a run comes to such a value;
* `Chance.Ensures.of_yields`: what a computation ensures holds of all of them.
-/

namespace DiceLang

namespace Chance

variable {ι ε α β σ : Type}

/-- Some outcomes lead to the value. -/
inductive Yields : Chance ι ε α → α → Prop
  | done (a : α) : Yields (.done a) a
  | draw {next : ι → Chance ι ε α} (i : ι) {a : α} : Yields (next i) a → Yields (.draw next) a

@[simp] theorem yields_done {a b : α} : (done a : Chance ι ε α).Yields b ↔ b = a :=
  ⟨fun h => by cases h; rfl, fun h => h ▸ .done b⟩

@[simp] theorem not_yields_failed {e : ε} {a : α} : ¬ (failed e : Chance ι ε α).Yields a := by
  rintro ⟨⟩

@[simp] theorem yields_draw {next : ι → Chance ι ε α} {a : α} :
    (draw next).Yields a ↔ ∃ i, (next i).Yields a :=
  ⟨fun h => by cases h with | draw i h => exact ⟨i, h⟩, fun ⟨i, h⟩ => .draw i h⟩

@[simp] theorem yields_bind {x : Chance ι ε α} {f : α → Chance ι ε β} {b : β} :
    (x >>= f).Yields b ↔ ∃ a, x.Yields a ∧ (f a).Yields b := by
  induction x with
  | done a => simp
  | failed e => simp
  | draw next ih =>
    simp only [draw_bind, yields_draw, ih]
    exact ⟨fun ⟨i, a, h, hf⟩ => ⟨a, ⟨i, h⟩, hf⟩, fun ⟨a, ⟨i, h⟩, hf⟩ => ⟨i, a, h, hf⟩⟩

@[simp] theorem yields_map {x : Chance ι ε α} {f : α → β} {b : β} :
    (f <$> x).Yields b ↔ ∃ a, x.Yields a ∧ b = f a := by
  rw [← bind_pure_comp]
  simp

theorem Yields.of_run {x : Chance ι ε α} {next? : σ → Option (ι × σ)} {source rest : σ} {a : α}
    (h : x.run next? source = (.value a, rest)) : x.Yields a := by
  induction x generalizing source with
  | done b =>
    obtain ⟨⟨⟩, -⟩ := Prod.mk.inj h
    exact .done _
  | failed e => cases h
  | draw next ih =>
    rw [run] at h
    split at h
    · cases h
    · exact .draw _ (ih _ h)

theorem Ensures.of_yields {x : Chance ι ε α} {P : α → Prop} {a : α}
    (h : x.Ensures (fun _ => True) P) (hyields : x.Yields a) : P a := by
  induction hyields with
  | done a => exact h
  | draw i _ ih => exact ih (h i trivial)

end Chance

@[simp] theorem Eval.yields_liftM {α : Type} {x : Except EvalError α} {a : α} :
    (liftM x : Eval α).Yields a ↔ x = .ok a := by
  cases x with
  | ok b => simp [eq_comm]
  | error e => simp [Eval.fail]

end DiceLang
