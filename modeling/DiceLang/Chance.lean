/-!
# Chance

A computation that draws: it ends with a value, fails, or asks for the next random outcome and goes
on from there. It says nothing of where the outcomes come from; `run` takes them from a source.

* `instLawfulMonad`: the laws of a monad;
* `run_bind`: the parts of a sequence draw from the source one after the other.
-/

namespace DiceLang

/-- A computation of an `α` that may draw outcomes of type `ι` and fail with an `ε`. -/
inductive Chance (ι ε α : Type) : Type where
  | done (value : α)
  | failed (error : ε)
  | draw (next : ι → Chance ι ε α)

namespace Chance

variable {ι κ ε δ α β σ : Type}

protected def bind : Chance ι ε α → (α → Chance ι ε β) → Chance ι ε β
  | done a, f => f a
  | failed e, _ => failed e
  | draw next, f => draw fun i => (next i).bind f

instance : Monad (Chance ι ε) where
  pure := done
  bind := Chance.bind

@[simp] theorem pure_eq (a : α) : (pure a : Chance ι ε α) = done a := rfl

@[simp] theorem done_bind (a : α) (f : α → Chance ι ε β) : (done a >>= f) = f a := rfl

@[simp] theorem failed_bind (e : ε) (f : α → Chance ι ε β) : (failed e >>= f) = failed e := rfl

@[simp] theorem draw_bind (next : ι → Chance ι ε α) (f : α → Chance ι ε β) :
    (draw next >>= f) = draw fun i => next i >>= f := rfl

instance instLawfulMonad : LawfulMonad (Chance ι ε) :=
  LawfulMonad.mk' (Chance ι ε)
    (fun x => by
      induction x with
      | done a => rfl
      | failed e => rfl
      | draw next ih => exact congrArg draw (funext ih))
    (fun _ _ => rfl)
    (fun x f g => by
      induction x with
      | done a => rfl
      | failed e => rfl
      | draw next ih => exact congrArg draw (funext ih))

/-- One outcome. -/
def outcome : Chance ι ε ι := draw done

def ofExcept : Except ε α → Chance ι ε α
  | .ok a => done a
  | .error e => failed e

/-- What can fail can do so between two draws. -/
instance : MonadLift (Except ε) (Chance ι ε) := ⟨ofExcept⟩

@[simp] theorem liftM_ok (a : α) : (liftM (Except.ok a : Except ε α) : Chance ι ε α) = done a := rfl

@[simp] theorem liftM_error (e : ε) :
    (liftM (Except.error e : Except ε α) : Chance ι ε α) = failed e := rfl

/-- The same computation on outcomes and errors of other types: each outcome is read through `f`,
each error through `g`. -/
def adapt (f : κ → ι) (g : ε → δ) : Chance ι ε α → Chance κ δ α
  | done a => done a
  | failed e => failed (g e)
  | draw next => draw fun k => (next (f k)).adapt f g

/-! ## Running -/

/-- How a run ends. -/
inductive Ending (ε α : Type) where
  | value (a : α)
  | failed (error : ε)
  /-- The source had no outcome left to draw. -/
  | exhausted
deriving Repr, DecidableEq

/-- Runs on a source of outcomes, and gives the source back as the run leaves it. -/
def run (next? : σ → Option (ι × σ)) : Chance ι ε α → σ → Ending ε α × σ
  | done a, source => (.value a, source)
  | failed e, source => (.failed e, source)
  | draw next, source =>
    match next? source with
    | none => (.exhausted, source)
    | some (i, source) => (next i).run next? source

theorem run_bind (next? : σ → Option (ι × σ)) (x : Chance ι ε α) (f : α → Chance ι ε β)
    (source : σ) :
    (x >>= f).run next? source = match x.run next? source with
      | (.value a, source) => (f a).run next? source
      | (.failed e, source) => (.failed e, source)
      | (.exhausted, source) => (.exhausted, source) := by
  induction x generalizing source with
  | done a => rfl
  | failed e => rfl
  | draw next ih =>
    simp only [draw_bind, run]
    split
    · rfl
    · exact ih _ _

end Chance

end DiceLang
