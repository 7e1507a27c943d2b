import DiceLang.Proofs.Ensures

/-!
# What is drawn

A computation together with the outcomes that it draws (`Chance.withDrawn`): it is the same
computation (`fst_withDrawn`), and a run of it tells which outcomes it took from the source
(`exists_run_withDrawn`). What holds of the value and of the outcomes drawn is shown along the way
they were computed (`Chance.Accounts`).

* `Accounts.bind`: one computation after another;
* `Accounts.mapM`, `Accounts.flatMapM`: one for each item of a list, where an item becomes what it
  was and what was drawn for it.
-/

namespace DiceLang

namespace Chance

variable {ι ε α β σ : Type}

/-- The same computation, which also gives the outcomes that it drew, in order. -/
def withDrawn : Chance ι ε α → Chance ι ε (α × List ι)
  | done a => done (a, [])
  | failed e => failed e
  | draw next => draw fun i => (fun r => (r.1, i :: r.2)) <$> (next i).withDrawn

theorem map_draw (f : α → β) (next : ι → Chance ι ε α) :
    f <$> draw next = draw fun i => f <$> next i := rfl

theorem fst_withDrawn (x : Chance ι ε α) : Prod.fst <$> x.withDrawn = x := by
  induction x with
  | done a => rfl
  | failed e => rfl
  | draw next ih =>
    rw [withDrawn, map_draw]
    congr 1
    funext i
    rw [Functor.map_map]
    exact ih i

theorem withDrawn_bind (x : Chance ι ε α) (f : α → Chance ι ε β) :
    (x >>= f).withDrawn =
      x.withDrawn >>= fun r => (fun s => (s.1, r.2 ++ s.2)) <$> (f r.1).withDrawn := by
  induction x with
  | done a => exact (id_map (f a).withDrawn).symm
  | failed e => rfl
  | draw next ih =>
    rw [draw_bind, withDrawn, withDrawn, draw_bind]
    congr 1
    funext i
    rw [ih i, map_bind, bind_map_left]
    refine bind_congr fun r => ?_
    rw [Functor.map_map]
    rfl

/-! ## Runs -/

/-- Taking the outcomes from the source, one after the other, leaves the rest. -/
inductive Takes (next? : σ → Option (ι × σ)) : σ → List ι → σ → Prop
  | nil {source : σ} : Takes next? source [] source
  | cons {source source' rest : σ} {i : ι} {drawn : List ι} : next? source = some (i, source') →
      Takes next? source' drawn rest → Takes next? source (i :: drawn) rest

/-- What is taken in one go may be taken in two. -/
theorem Takes.of_append {next? : σ → Option (ι × σ)} {source rest : σ} {first last : List ι}
    (h : Takes next? source (first ++ last) rest) :
    ∃ mid, Takes next? source first mid ∧ Takes next? mid last rest := by
  induction first generalizing source with
  | nil => exact ⟨source, .nil, h⟩
  | cons i first ih =>
    cases h with
    | cons hnext h =>
      obtain ⟨mid, hfirst, hlast⟩ := ih h
      exact ⟨mid, .cons hnext hfirst, hlast⟩

theorem run_map (next? : σ → Option (ι × σ)) (f : α → β) (x : Chance ι ε α) (source : σ) :
    (f <$> x).run next? source = match x.run next? source with
      | (.value a, rest) => (.value (f a), rest)
      | (.failed e, rest) => (.failed e, rest)
      | (.exhausted, rest) => (.exhausted, rest) := by
  rw [← bind_pure_comp, run_bind]
  rfl

theorem run_bind_value_iff {next? : σ → Option (ι × σ)} {x : Chance ι ε α} {f : α → Chance ι ε β}
    {source rest : σ} {b : β} : (x >>= f).run next? source = (.value b, rest) ↔
      ∃ a mid, x.run next? source = (.value a, mid) ∧ (f a).run next? mid = (.value b, rest) := by
  rw [run_bind]
  constructor
  · intro h
    split at h
    · exact ⟨_, _, ‹_›, h⟩
    · cases h
    · cases h
  · rintro ⟨a, mid, hx, h⟩
    rw [hx]
    exact h

/-- What is left of a computation comes to a value only if the computation does. -/
theorem exists_run_of_map {next? : σ → Option (ι × σ)} {f : α → β} {x : Chance ι ε α}
    {source rest : σ} {b : β} (h : (f <$> x).run next? source = (.value b, rest)) :
    ∃ a, x.run next? source = (.value a, rest) ∧ f a = b := by
  rw [run_map] at h
  split at h
  · rename_i a rest' hrun
    obtain ⟨hb, rfl⟩ := Prod.mk.inj h
    exact ⟨a, hrun, Ending.value.inj hb⟩
  · cases h
  · cases h

theorem takes_of_run_withDrawn {x : Chance ι ε α} {next? : σ → Option (ι × σ)} {source rest : σ}
    {r : α × List ι} (h : x.withDrawn.run next? source = (.value r, rest)) :
    Takes next? source r.2 rest := by
  induction x generalizing source r with
  | done a =>
    obtain ⟨hr, rfl⟩ := Prod.mk.inj h
    obtain rfl := Ending.value.inj hr
    exact .nil
  | failed e => cases h
  | draw next ih =>
    rw [withDrawn, run] at h
    split at h
    · cases h
    · rename_i i source' hnext
      obtain ⟨s, hrun, rfl⟩ := exists_run_of_map h
      exact .cons hnext (ih i hrun)

/-- A run to a value takes from the source the outcomes that it draws. -/
theorem exists_run_withDrawn {x : Chance ι ε α} {next? : σ → Option (ι × σ)} {source rest : σ}
    {a : α} (h : x.run next? source = (.value a, rest)) :
    ∃ drawn, x.withDrawn.run next? source = (.value (a, drawn), rest) ∧
      Takes next? source drawn rest := by
  rw [← fst_withDrawn x] at h
  obtain ⟨⟨a', drawn⟩, hrun, rfl⟩ := exists_run_of_map h
  exact ⟨drawn, hrun, takes_of_run_withDrawn hrun⟩

/-! ## Accounts -/

/-- If all outcomes drawn satisfy `F`, the value and the outcomes drawn satisfy `P`. -/
def Accounts (F : ι → Prop) (P : α → List ι → Prop) (x : Chance ι ε α) : Prop :=
  x.withDrawn.Ensures F fun r => P r.1 r.2

namespace Accounts

variable {F : ι → Prop} {P : α → List ι → Prop} {Q : β → List ι → Prop} {x : Chance ι ε α}

theorem pure {a : α} (h : P a []) : (Pure.pure a : Chance ι ε α).Accounts F P := h

theorem failed (e : ε) : (failed e : Chance ι ε α).Accounts F P := trivial

theorem draw {next : ι → Chance ι ε α}
    (h : ∀ i, F i → (next i).Accounts F fun a drawn => P a (i :: drawn)) :
    (draw next).Accounts F P :=
  fun i hi => (h i hi).map fun _ h => h

theorem imp {P' : α → List ι → Prop} (h : x.Accounts F P) (hP : ∀ a drawn, P a drawn → P' a drawn) :
    x.Accounts F P' := Ensures.imp h fun r => hP r.1 r.2

theorem bind {f : α → Chance ι ε β} (h : x.Accounts F P)
    (hf : ∀ a drawn, P a drawn → (f a).Accounts F fun b more => Q b (drawn ++ more)) :
    (x >>= f).Accounts F Q := by
  rw [Accounts, withDrawn_bind]
  exact Ensures.bind h fun r hr => (hf r.1 r.2 hr).map fun _ hs => hs

theorem map {f : α → β} (h : x.Accounts F P) (hf : ∀ a drawn, P a drawn → Q (f a) drawn) :
    (f <$> x).Accounts F Q := by
  rw [← bind_pure_comp]
  refine h.bind fun a drawn ha => pure ?_
  rw [List.append_nil]
  exact hf a drawn ha

theorem ite {c : Prop} [Decidable c] {y : Chance ι ε α} (hx : c → x.Accounts F P)
    (hy : ¬ c → y.Accounts F P) : (if c then x else y).Accounts F P := by
  split
  · exact hx ‹_›
  · exact hy ‹_›

theorem liftM {x : Except ε α} (h : ∀ a, x = .ok a → P a []) :
    (liftM x : Chance ι ε α).Accounts F P := by
  cases x with
  | ok a => exact h a rfl
  | error e => trivial

/-- Whatever is known of every outcome is known of those drawn. -/
theorem drawn (x : Chance ι ε α) : x.Accounts F fun _ drawn => ∀ i ∈ drawn, F i := by
  induction x with
  | done a => exact List.forall_mem_nil F
  | failed e => trivial
  | draw next ih =>
    exact draw fun i hi => (ih i).imp fun _ _ h => List.forall_mem_cons.mpr ⟨hi, h⟩

theorem and {P' : α → List ι → Prop} (h : x.Accounts F P) (h' : x.Accounts F P') :
    x.Accounts F fun a drawn => P a drawn ∧ P' a drawn := Ensures.and h h'

/-- What holds of the value holds of it however much was drawn. -/
theorem of_ensures {P : α → Prop} (h : x.Ensures F P) : x.Accounts F fun a _ => P a := by
  induction x with
  | done a => exact h
  | failed e => trivial
  | draw next ih => exact draw fun i hi => ih i (h i hi)

/-! ### Lists

Each item holds some outcomes. Where the item that it becomes holds these and then those drawn for
it, the outcomes of the whole list are those that it held and those drawn, in some order: what is
drawn for an item stands among the outcomes of the others. -/

section

variable {held : α → List ι} {holds : β → List ι}

theorem perm_insert {a drawn as more bs : List ι} (h : bs.Perm (as ++ more)) :
    (a ++ drawn ++ bs).Perm (a ++ as ++ (drawn ++ more)) := by
  rw [List.append_assoc, List.append_assoc]
  exact ((h.append_left drawn).trans (List.perm_append_comm_assoc drawn as more)).append_left a

theorem mapM {f : α → Chance ι ε β} (as : List α)
    (h : ∀ a, (f a).Accounts F fun b drawn => holds b = held a ++ drawn) :
    (as.mapM f).Accounts F fun bs drawn => (bs.flatMap holds).Perm (as.flatMap held ++ drawn) := by
  induction as with
  | nil =>
    rw [List.mapM_nil]
    exact pure .nil
  | cons a as ih =>
    rw [List.mapM_cons]
    refine (h a).bind fun b drawn hb => ih.bind fun bs more hbs => pure ?_
    rw [List.flatMap_cons, List.flatMap_cons, List.append_nil, hb]
    exact perm_insert hbs

theorem flatMapM {f : α → Chance ι ε (List β)} (as : List α)
    (h : ∀ a, (f a).Accounts F fun bs drawn => bs.flatMap holds = held a ++ drawn) :
    (as.flatMapM f).Accounts F fun bs drawn =>
      (bs.flatMap holds).Perm (as.flatMap held ++ drawn) := by
  induction as with
  | nil =>
    rw [List.flatMapM_nil]
    exact pure .nil
  | cons a as ih =>
    rw [List.flatMapM_cons]
    refine (h a).bind fun bs drawn hbs => ih.bind fun bs' more hbs' => pure ?_
    rw [List.flatMap_append, List.flatMap_cons, List.append_nil, hbs]
    exact perm_insert hbs'

end

end Accounts

end Chance

end DiceLang
