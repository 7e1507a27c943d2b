import DiceLang.Proofs.Blame
import DiceLang.Supply

/-!
# Well-kinded trees

A tree can be checked for its kinds before anything is drawn: that each call names a function and
gives it as many arguments as it takes, and that each part serves in the kind in which it is needed.
The evaluation of a tree that passes never finds a value of the wrong kind.

* `Expr.IsKinded`: what is checked at a node;
* `Expr.run_kinds`: what it is worth in a run.
-/

namespace DiceLang

/-- The expression can be asked for a value of the kind: its own value is of that kind, or it is a
set of dice, which has a total besides. -/
def Expr.Serves (k : Kind) (e : Expr) : Prop :=
  e.valueKind? = some k ∨ k = .scalar ∧ e.isDice = true

theorem Expr.Serves.not_misfits {k : Kind} {e : Expr} (h : e.Serves k) : ¬ e.Misfits k := by
  rcases h with h | ⟨rfl, h⟩
  · cases k with
    | scalar => simp [Misfits, h]
    | list => simp [Misfits, h]
  · simp [Misfits, h]

/-- The node makes no mistake about kinds. -/
structure Expr.IsKinded (e : Expr) : Prop where
  /-- A call is one of a function, and has as many arguments as that takes. -/
  calls : ∀ name args, e = .call name args →
    ∃ f, Builtin.ofName? name = some f ∧ args.length = f.arity
  /-- What is needed in a kind serves, if it is not left out. -/
  serves : ∀ need ∈ e.needs, need.2.Serves need.1 ∨ ∃ g, need.2 = .gap g

/-- No node makes a mistake about kinds. -/
abbrev Expr.WellKinded (e : Expr) : Prop := e.Everywhere IsKinded

/-- The error tells of a mistake about kinds. -/
def EvalError.IsKindFault (err : EvalError) : Prop :=
  err.kind = .unknownFunction ∨ err.kind = .arityMismatch ∨ err.kind = .kindMismatch

theorem EvalError.IsOrdinary.not_isKindFault {err : EvalError} (h : err.IsOrdinary) :
    ¬ err.IsKindFault := by
  cases err <;> simp_all [IsOrdinary, IsKindFault, kind]

/-- The failure is no mistake about kinds. -/
def Failure.SparesKinds (f : Failure) : Prop := ∀ err, f = .error err → ¬ err.IsKindFault

theorem Expr.IsKinded.sparesKinds {e : Expr} (h : e.IsKinded) {f : Failure} (hf : e.Blames f) :
    f.SparesKinds := by
  cases hf with
  | gap => exact nofun
  | die | dice =>
    rintro _ ⟨⟩
    simp [EvalError.IsKindFault, EvalError.kind]
  | unknown hname =>
    obtain ⟨f, hf, _⟩ := h.calls _ _ rfl
    simp [hf] at hname
  | arity hname hlength =>
    obtain ⟨f, hf, hargs⟩ := h.calls _ _ rfl
    cases hf.symm.trans hname
    exact absurd hargs hlength
  | @misfit _ k x _ _ hx hmisfits =>
    obtain hserves | ⟨g, rfl⟩ := h.serves (k, x) hx
    · exact absurd hmisfits hserves.not_misfits
    · cases k <;> simp [Misfits, valueKind?] at hmisfits

theorem Failure.OrdinaryOr.sparesKinds {f : Failure} (h : f.OrdinaryOr Failure.SparesKinds) :
    f.SparesKinds := by
  cases h with
  | ordinary h =>
    intro err herr
    obtain ⟨rfl, _⟩ := EvalError.failure_eq_error.mp herr
    exact h.not_isKindFault
  | blamed h => exact h

namespace Expr.WellKinded

variable {limits : Limits} {e : Expr}

theorem blamedIn (h : e.WellKinded) : e.BlamedIn Failure.SparesKinds :=
  h.imp fun _ h _ => h.sparesKinds

theorem neededIn {k : Kind} (h : e.WellKinded) (hserves : e.Serves k) :
    e.NeededIn Failure.SparesKinds k :=
  ⟨h.blamedIn, fun hmisfits => absurd hmisfits hserves.not_misfits⟩

theorem evaluate_endsIn (h : e.WellKinded) : (e.evaluate limits).EndsIn (fun _ => True)
    Failure.SparesKinds fun t => e.valueKind? = some t.value.kind :=
  (e.evaluate_endsIn h.blamedIn).imp (fun _ hf => hf.sparesKinds) fun _ => id

theorem number_failsIn (h : e.WellKinded) (hserves : e.Serves .scalar) (function : String) :
    (e.number limits function).FailsIn Failure.SparesKinds :=
  (e.number_failsIn function (h.neededIn hserves)).imp (fun _ hf => hf.sparesKinds) fun _ => id

theorem elements_failsIn (h : e.WellKinded) (hserves : e.Serves .list) (function : String) :
    (e.elements limits function).FailsIn Failure.SparesKinds :=
  (Expr.elements_failsIn function (h.neededIn hserves)).imp (fun _ hf => hf.sparesKinds)
    fun _ => id

end Expr.WellKinded

/-- A run of a well-kinded tree never fails for a mistake about kinds, be it asked for its own value
or for a number or a list that it can be asked for. Its own value is a list just if the tree is one
of a list. -/
theorem Expr.run_kinds (limits : Limits) {σ : Type} (next? : σ → Option (Nat × σ)) (e : Expr)
    (h : e.WellKinded) (source : σ) :
    (∀ err rest, (e.evaluate limits).run next? source = (.failed (.error err), rest) →
      ¬ err.IsKindFault) ∧
    (e.Serves .scalar → ∀ function err rest,
      (e.number limits function).run next? source = (.failed (.error err), rest) →
        ¬ err.IsKindFault) ∧
    (e.Serves .list → ∀ function err rest,
      (e.elements limits function).run next? source = (.failed (.error err), rest) →
        ¬ err.IsKindFault) ∧
    ∀ t rest, (e.evaluate limits).run next? source = (.value t, rest) →
      (t.value.kind = .list ↔ e.Serves .list) := by
  refine ⟨fun err rest hrun => ?_, fun hserves function err rest hrun => ?_,
    fun hserves function err rest hrun => ?_, fun t rest hrun => ?_⟩
  · exact h.evaluate_endsIn.of_failed hrun err rfl
  · exact (h.number_failsIn hserves function).of_failed hrun err rfl
  · exact (h.elements_failsIn hserves function).of_failed hrun err rfl
  · simp [Serves, h.evaluate_endsIn.of_value hrun]

/-- `reverse(2#(2d6))`, where each of the repeated sets of dice counts as its total. -/
theorem Expr.run_kinds_reverse : ∃ (e : Expr) (t : Traced Value) (rest : Source),
    e.WellKinded ∧
      (e.evaluate {}).run Source.next? (.script [5, 1, 0, 2]) = (.value t, rest) ∧
      t.value.numbers = [4, 8] ∧ (t.value.kind = .list ↔ e.Serves .list) := by
  have hint : ∀ n, (Expr.int n).WellKinded := fun n => .intro ⟨nofun, nofun⟩ nofun
  let dice : Expr := .paren (.dice (some (.int 2)) (.numbered (.int 6)) [])
  have hdice : dice.WellKinded := by
    refine .intro ⟨nofun, nofun⟩ (List.forall_mem_singleton.mpr (.intro ⟨nofun, ?_⟩ ?_))
    · exact List.forall_mem_cons.mpr
        ⟨.inl (.inl rfl), List.forall_mem_singleton.mpr (.inl (.inl rfl))⟩
    · exact List.forall_mem_cons.mpr ⟨hint 2, List.forall_mem_singleton.mpr (hint 6)⟩
  let e : Expr := .call "reverse" [.repeated (.int 2) dice]
  have he : e.WellKinded := by
    refine .intro ⟨?_, ?_⟩ (List.forall_mem_singleton.mpr (.intro ⟨nofun, ?_⟩ ?_))
    · intro name args hcall
      obtain ⟨rfl, rfl⟩ := Expr.call.inj hcall
      exact ⟨.reverse, rfl, rfl⟩
    · exact List.forall_mem_singleton.mpr (.inl (.inl rfl))
    · exact List.forall_mem_cons.mpr
        ⟨.inl (.inl rfl), List.forall_mem_singleton.mpr (.inl (.inr ⟨rfl, rfl⟩))⟩
    · exact List.forall_mem_cons.mpr ⟨hint 2, List.forall_mem_singleton.mpr hdice⟩
  have hrun : (e.evaluate {}).run Source.next? (.script [5, 1, 0, 2]) =
      (.value ⟨.list [⟨4, "(2d6 [1, 3])"⟩, ⟨8, "(2d6 [6, 2])"⟩], "reverse(2#(2d6))"⟩,
        .script []) := by decide +kernel
  exact ⟨e, _, _, he, hrun, rfl, (Expr.run_kinds {} Source.next? e he _).2.2.2 _ _ hrun⟩

end DiceLang
