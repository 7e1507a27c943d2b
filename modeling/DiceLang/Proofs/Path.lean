import DiceLang.Proofs.Drawn
import Mathlib.Data.List.Forall2

/-!
# Paths of a computation

The outcomes that lead a drawing computation to its end, and which end that is (`Chance.Path`). A
run takes from its source the outcomes of one path (`Path.run`, `exists_path_of_run`), so that what
the paths of a computation are says all there is to say of its runs (`Chance.RunsTo`).

* `path_bind_value`, `path_bind_failed`: one computation after another;
* `Path.adapt`: outcomes read through a function;
* `path_mapM_value`, `path_mapM_failed`, `path_flatMapM_value`, `path_flatMapM_failed`: one for each
  item of a list, up to the first that fails.
-/

namespace DiceLang

namespace Chance

variable {ι ε α β σ : Type}

/-- Drawing these outcomes, in this order, leads the computation to its end. -/
inductive Path : Chance ι ε α → List ι → Ending ε α → Prop
  | done (a : α) : Path (done a) [] (.value a)
  | failed (e : ε) : Path (failed e) [] (.failed e)
  | draw {next : ι → Chance ι ε α} (i : ι) {drawn : List ι} {ending : Ending ε α} :
      Path (next i) drawn ending → Path (draw next) (i :: drawn) ending

variable {x : Chance ι ε α} {f : α → Chance ι ε β} {drawn : List ι} {a : α} {b : β} {e : ε}
  {ending : Ending ε α}

/-! ## Computations put together -/

@[simp] theorem map_done (f : α → β) (a : α) : f <$> (done a : Chance ι ε α) = done (f a) := rfl

@[simp] theorem map_failed (f : α → β) (e : ε) :
    f <$> (failed e : Chance ι ε α) = failed e := rfl

@[simp] theorem path_done : Path (done a : Chance ι ε α) drawn ending ↔
    drawn = [] ∧ ending = .value a :=
  ⟨fun h => by cases h; exact ⟨rfl, rfl⟩, fun ⟨hd, he⟩ => hd ▸ he ▸ .done a⟩

@[simp] theorem path_failed : Path (failed e : Chance ι ε α) drawn ending ↔
    drawn = [] ∧ ending = .failed e :=
  ⟨fun h => by cases h; exact ⟨rfl, rfl⟩, fun ⟨hd, he⟩ => hd ▸ he ▸ .failed e⟩

@[simp] theorem path_draw {next : ι → Chance ι ε α} : Path (draw next) drawn ending ↔
    ∃ i rest, drawn = i :: rest ∧ Path (next i) rest ending :=
  ⟨fun h => by cases h with | draw i h => exact ⟨i, _, rfl, h⟩,
    fun ⟨i, _, hd, h⟩ => hd ▸ .draw i h⟩

theorem path_bind_value : Path (x >>= f) drawn (.value b) ↔ ∃ a first last,
    drawn = first ++ last ∧ Path x first (.value a) ∧ Path (f a) last (.value b) := by
  induction x generalizing drawn with
  | done a => simp
  | failed e => simp
  | draw next ih =>
    simp only [draw_bind, path_draw, ih]
    constructor
    · rintro ⟨i, _, rfl, a, first, last, rfl, hx, hf⟩
      exact ⟨a, i :: first, last, rfl, ⟨i, first, rfl, hx⟩, hf⟩
    · rintro ⟨a, _, last, rfl, ⟨i, first, rfl, hx⟩, hf⟩
      exact ⟨i, first ++ last, rfl, a, first, last, rfl, hx, hf⟩

theorem path_bind_failed : Path (x >>= f) drawn (.failed e) ↔ Path x drawn (.failed e) ∨
    ∃ a first last, drawn = first ++ last ∧ Path x first (.value a) ∧
      Path (f a) last (.failed e) := by
  induction x generalizing drawn with
  | done a => simp
  | failed e => simp
  | draw next ih =>
    simp only [draw_bind, path_draw, ih]
    constructor
    · rintro ⟨i, _, rfl, hx | ⟨a, first, last, rfl, hx, hf⟩⟩
      · exact .inl ⟨i, _, rfl, hx⟩
      · exact .inr ⟨a, i :: first, last, rfl, ⟨i, first, rfl, hx⟩, hf⟩
    · rintro (⟨i, _, rfl, hx⟩ | ⟨a, _, last, rfl, ⟨i, first, rfl, hx⟩, hf⟩)
      · exact ⟨i, _, rfl, .inl hx⟩
      · exact ⟨i, first ++ last, rfl, .inr ⟨a, first, last, rfl, hx, hf⟩⟩

@[simp] theorem path_map_value {f : α → β} : Path (f <$> x) drawn (.value b) ↔
    ∃ a, Path x drawn (.value a) ∧ b = f a := by
  rw [← bind_pure_comp, path_bind_value]
  simp

@[simp] theorem path_map_failed {f : α → β} : Path (f <$> x) drawn (.failed e) ↔
    Path x drawn (.failed e) := by
  rw [← bind_pure_comp, path_bind_failed]
  simp

/-- What comes after draws nothing. -/
theorem Path.bind_done (hx : Path x drawn (.value a)) (hf : f a = .done b) :
    Path (x >>= f) drawn (.value b) :=
  path_bind_value.mpr ⟨a, drawn, [], (List.append_nil drawn).symm, hx, hf ▸ .done b⟩

theorem Path.adapt {κ δ : Type} {g : κ → ι} {g' : ε → δ} {drawn : List κ}
    (h : Path x (drawn.map g) (.value a)) : Path (x.adapt g g') drawn (.value a) := by
  induction x generalizing drawn with
  | done a' =>
    obtain ⟨hdrawn, ha⟩ := path_done.mp h
    obtain rfl := Ending.value.inj ha
    obtain rfl := List.map_eq_nil_iff.mp hdrawn
    exact .done a
  | failed e => cases (path_failed.mp h).2
  | draw next ih =>
    obtain ⟨i, rest, hdrawn, h⟩ := path_draw.mp h
    obtain ⟨k, drawn, rfl, rfl, rfl⟩ := List.map_eq_cons_iff.mp hdrawn
    exact .draw k (ih _ h)

/-! ## Lists

Each item comes to a result of its own: a value, and the outcomes that are drawn for it. -/

/-- The outcomes drawn for the results, in order. -/
def allDrawn (results : List (β × List ι)) : List ι := results.flatMap Prod.snd

/-- `f` comes to just those values that `R` tells of together with the outcomes drawn for them. -/
def ComesTo (f : α → Chance ι ε β) (R : α → β × List ι → Prop) : Prop :=
  ∀ a r, Path (f a) r.2 (.value r.1) ↔ R a r

section

variable {as : List α} {bs : List β} {R : α → β × List ι → Prop}

theorem path_mapM_value (h : ComesTo f R) : Path (as.mapM f) drawn (.value bs) ↔
    ∃ results, List.Forall₂ R as results ∧ bs = results.map Prod.fst ∧
      drawn = allDrawn results := by
  induction as generalizing bs drawn with
  | nil => simp [allDrawn, and_comm]
  | cons a as ih =>
    simp only [List.mapM_cons, bind_pure_comp, path_bind_value, path_map_value, ih]
    constructor
    · rintro ⟨b, own, _, rfl, hb, _, ⟨results, hresults, rfl, rfl⟩, rfl⟩
      exact ⟨(b, own) :: results, .cons ((h a (b, own)).mp hb) hresults, rfl, rfl⟩
    · rintro ⟨_, hresults, rfl, rfl⟩
      cases hresults with
      | @cons _ r _ results hr hresults =>
        exact ⟨r.1, r.2, allDrawn results, rfl, (h a r).mpr hr, _,
          ⟨results, hresults, rfl, rfl⟩, rfl⟩

/-- The first item that fails does so after those before it have come to results. -/
theorem path_mapM_failed (h : ComesTo f R) : Path (as.mapM f) drawn (.failed e) ↔
    ∃ before a after results own, as = before ++ a :: after ∧ List.Forall₂ R before results ∧
      Path (f a) own (.failed e) ∧ drawn = allDrawn results ++ own := by
  induction as generalizing drawn with
  | nil => simp
  | cons a as ih =>
    simp only [List.mapM_cons, bind_pure_comp, path_bind_failed, path_map_failed, ih]
    constructor
    · rintro (ha | ⟨b, own, _, rfl, hb, before, a', after, results, own', rfl, hresults, ha', rfl⟩)
      · exact ⟨[], a, as, [], drawn, rfl, .nil, ha, rfl⟩
      · refine ⟨a :: before, a', after, (b, own) :: results, own', rfl,
          .cons ((h a (b, own)).mp hb) hresults, ha', ?_⟩
        exact (List.append_assoc own (allDrawn results) own').symm
    · rintro ⟨before, a', after, results, own, heq, hresults, ha', rfl⟩
      cases hresults with
      | nil =>
        obtain ⟨rfl, rfl⟩ := List.cons.inj heq
        exact .inl ha'
      | @cons _ r before results hr hresults =>
        obtain ⟨rfl, rfl⟩ := List.cons.inj heq
        refine .inr ⟨r.1, r.2, allDrawn results ++ own, ?_, (h a r).mpr hr, before, a', after,
          results, own, rfl, hresults, ha', rfl⟩
        exact List.append_assoc r.2 (allDrawn results) own

end

section

variable {as : List α} {bs : List β} {f : α → Chance ι ε (List β)} {R : α → List β × List ι → Prop}

theorem flatMapM_eq (f : α → Chance ι ε (List β)) (as : List α) :
    as.flatMapM f = List.flatten <$> as.mapM f := by
  induction as with
  | nil => rfl
  | cons a as ih =>
    simp only [List.flatMapM_cons, List.mapM_cons, ih, map_bind, bind_map_left, pure_eq]
    rfl

theorem path_flatMapM_value (h : ComesTo f R) : Path (as.flatMapM f) drawn (.value bs) ↔
    ∃ results, List.Forall₂ R as results ∧ bs = results.flatMap Prod.fst ∧
      drawn = allDrawn results := by
  rw [flatMapM_eq, path_map_value]
  simp only [path_mapM_value h]
  constructor
  · rintro ⟨_, ⟨results, hresults, rfl, rfl⟩, rfl⟩
    exact ⟨results, hresults, List.flatMap_def.symm, rfl⟩
  · rintro ⟨results, hresults, rfl, rfl⟩
    exact ⟨_, ⟨results, hresults, rfl, rfl⟩, List.flatMap_def⟩

theorem path_flatMapM_failed (h : ComesTo f R) : Path (as.flatMapM f) drawn (.failed e) ↔
    ∃ before a after results own, as = before ++ a :: after ∧ List.Forall₂ R before results ∧
      Path (f a) own (.failed e) ∧ drawn = allDrawn results ++ own := by
  rw [flatMapM_eq, path_map_failed, path_mapM_failed h]

end

/-! ## Runs -/

variable {next? : σ → Option (ι × σ)} {source rest : σ}

/-- A run on a source that starts with the outcomes of a path ends as the path does. -/
theorem Path.run (h : Path x drawn ending) (htakes : Takes next? source drawn rest) :
    x.run next? source = (ending, rest) := by
  induction h generalizing source with
  | done a => cases htakes; rfl
  | failed e => cases htakes; rfl
  | draw i _ ih =>
    cases htakes with
    | cons hnext htakes =>
      rw [Chance.run, hnext]
      exact ih htakes

/-- A run that ends before its source does has taken the outcomes of a path. -/
theorem exists_path_of_run (hrun : x.run next? source = (ending, rest))
    (hending : ending ≠ .exhausted) :
    ∃ drawn, Path x drawn ending ∧ Takes next? source drawn rest := by
  induction x generalizing source with
  | done a =>
    obtain ⟨rfl, rfl⟩ := Prod.mk.inj hrun
    exact ⟨[], .done a, .nil⟩
  | failed e =>
    obtain ⟨rfl, rfl⟩ := Prod.mk.inj hrun
    exact ⟨[], .failed e, .nil⟩
  | draw next ih =>
    rw [run] at hrun
    split at hrun
    · obtain ⟨rfl, -⟩ := Prod.mk.inj hrun
      exact absurd rfl hending
    · rename_i i source' hnext
      obtain ⟨drawn, hpath, htakes⟩ := ih i hrun
      exact ⟨i :: drawn, .draw i hpath, .cons hnext htakes⟩

/-- Errors that are read through a function make no difference to a run that ends with a value. -/
theorem run_adapt_id {δ : Type} {g : ε → δ} (h : x.run next? source = (.value a, rest)) :
    (x.adapt id g).run next? source = (.value a, rest) := by
  obtain ⟨drawn, hpath, htakes⟩ := exists_path_of_run h nofun
  rw [← List.map_id drawn] at hpath
  exact hpath.adapt.run htakes

theorem next?_eq_none_of_exhausted (hrun : x.run next? source = (.exhausted, rest)) :
    next? rest = none := by
  induction x generalizing source with
  | done a => cases hrun
  | failed e => cases hrun
  | draw next ih =>
    rw [run] at hrun
    split at hrun
    · obtain ⟨-, rfl⟩ := Prod.mk.inj hrun
      assumption
    · exact ih _ hrun

/-- On the source, the computation comes to just those values and failures that `V` and `E` tell
of together with what it takes from the source; and it ends without one only where the source is
used up. -/
structure RunsTo (next? : σ → Option (ι × σ)) (source : σ) (x : Chance ι ε α)
    (V : α → List ι → Prop) (E : ε → List ι → Prop) : Prop where
  value_iff : ∀ (a : α) (rest : σ), x.run next? source = (.value a, rest) ↔
    ∃ drawn, V a drawn ∧ Takes next? source drawn rest
  failed_iff : ∀ (e : ε) (rest : σ), x.run next? source = (.failed e, rest) ↔
    ∃ drawn, E e drawn ∧ Takes next? source drawn rest
  of_exhausted : ∀ rest : σ, x.run next? source = (.exhausted, rest) → next? rest = none

theorem runsTo_of_path {V : α → List ι → Prop} {E : ε → List ι → Prop}
    (hV : ∀ a drawn, Path x drawn (.value a) ↔ V a drawn)
    (hE : ∀ e drawn, Path x drawn (.failed e) ↔ E e drawn) (next? : σ → Option (ι × σ))
    (source : σ) : x.RunsTo next? source V E where
  value_iff a rest := by
    constructor
    · intro hrun
      obtain ⟨drawn, hpath, htakes⟩ := exists_path_of_run hrun nofun
      exact ⟨drawn, (hV a drawn).mp hpath, htakes⟩
    · rintro ⟨drawn, hvalue, htakes⟩
      exact ((hV a drawn).mpr hvalue).run htakes
  failed_iff e rest := by
    constructor
    · intro hrun
      obtain ⟨drawn, hpath, htakes⟩ := exists_path_of_run hrun nofun
      exact ⟨drawn, (hE e drawn).mp hpath, htakes⟩
    · rintro ⟨drawn, hfailed, htakes⟩
      exact ((hE e drawn).mpr hfailed).run htakes
  of_exhausted _ := next?_eq_none_of_exhausted

end Chance

end DiceLang
