import DiceLang.Proofs.Drawn

/-!
# Repetitions

The rounds of a repetition follow one another, each on the source as the one before it leaves it
(`Rounds`), and what they come to is put together. Nothing else tells one round from another: the
length of the list is checked after each, but the list only grows.

* `run_repeatItem_iff`: the rounds of a repetition and the one check that matters;
* `rounds_add`: some rounds and then some more;
* `Expr.run_repeated_add`: a repetition in two parts.
-/

namespace DiceLang

variable {σ : Type} {next? : σ → Option (Nat × σ)} {limits : Limits} {limit : Nat}
  {item : Eval (List Element)} {source rest : σ} {elements result : List Element}

/-- So many rounds of an item, one after the other, and all the elements that they come to. -/
inductive Rounds (next? : σ → Option (Nat × σ)) (item : Eval (List Element)) :
    Nat → σ → List Element → σ → Prop
  | none {source : σ} : Rounds next? item 0 source [] source
  | round {n : Nat} {source mid rest : σ} {own elements : List Element} :
      item.run next? source = (.value own, mid) → Rounds next? item n mid elements rest →
      Rounds next? item (n + 1) source (own ++ elements) rest

@[simp] theorem rounds_zero : Rounds next? item 0 source elements rest ↔
    elements = [] ∧ source = rest := by
  constructor
  · rintro ⟨⟩
    exact ⟨rfl, rfl⟩
  · rintro ⟨rfl, rfl⟩
    exact .none

theorem rounds_succ {n : Nat} : Rounds next? item (n + 1) source elements rest ↔
    ∃ own more mid, elements = own ++ more ∧ item.run next? source = (.value own, mid) ∧
      Rounds next? item n mid more rest := by
  constructor
  · rintro (_ | ⟨hown, hmore⟩)
    exact ⟨_, _, _, rfl, hown, hmore⟩
  · rintro ⟨own, more, mid, rfl, hown, hmore⟩
    exact .round hown hmore

/-- Some rounds, and then some more. -/
theorem rounds_add {a b : Nat} : Rounds next? item (a + b) source elements rest ↔
    ∃ first last mid, elements = first ++ last ∧ Rounds next? item a source first mid ∧
      Rounds next? item b mid last rest := by
  induction a generalizing source elements with
  | zero =>
    rw [Nat.zero_add]
    constructor
    · intro h
      exact ⟨[], elements, source, rfl, .none, h⟩
    · rintro ⟨_, last, mid, rfl, hfirst, hlast⟩
      obtain ⟨rfl, rfl⟩ := rounds_zero.mp hfirst
      exact hlast
  | succ a ih =>
    rw [Nat.succ_add, rounds_succ]
    simp only [ih, rounds_succ]
    constructor
    · rintro ⟨own, _, mid, rfl, hown, first, last, mid', rfl, hfirst, hlast⟩
      exact ⟨own ++ first, last, mid', (List.append_assoc ..).symm,
        ⟨own, first, mid, rfl, hown, hfirst⟩, hlast⟩
    · rintro ⟨_, last, mid', rfl, ⟨own, first, mid, rfl, hown, hfirst⟩, hlast⟩
      exact ⟨own, first ++ last, mid, List.append_assoc .., hown, first, last, mid', rfl, hfirst,
        hlast⟩

/-- A repetition comes to all that its rounds come to. The list is checked after each round, but it
only grows: the check after the last is the one that matters. -/
theorem run_repeatItem_iff {count : Nat} (helements : elements.length ≤ limit) :
    (repeatItem limit item count elements).run next? source = (.value result, rest) ↔
      ∃ more, Rounds next? item count source more rest ∧ result = elements ++ more ∧
        result.length ≤ limit := by
  induction count generalizing source elements with
  | zero =>
    constructor
    · intro h
      obtain ⟨hresult, rfl⟩ := Prod.mk.inj h
      obtain rfl := Chance.Ending.value.inj hresult
      exact ⟨[], .none, (List.append_nil _).symm, helements⟩
    · rintro ⟨more, hmore, rfl, -⟩
      obtain ⟨rfl, rfl⟩ := rounds_zero.mp hmore
      rw [List.append_nil]
      rfl
  | succ count ih =>
    simp only [repeatItem, Chance.run_bind_value_iff]
    constructor
    · rintro ⟨own, mid, hown, hrun⟩
      split at hrun
      · cases hrun
      · rename_i hlength
        obtain ⟨more, hmore, rfl, hresult⟩ := (ih (Nat.le_of_not_lt hlength)).mp hrun
        rw [List.append_assoc] at hresult ⊢
        exact ⟨own ++ more, .round hown hmore, rfl, hresult⟩
    · rintro ⟨_, hrounds, rfl, hresult⟩
      obtain ⟨own, more, mid, rfl, hown, hmore⟩ := rounds_succ.mp hrounds
      -- the list after this round is part of the whole, which is not too long
      have hlength : (elements ++ own).length ≤ limit := by
        simp only [List.length_append] at hresult ⊢
        omega
      refine ⟨own, mid, hown, ?_⟩
      rw [if_neg (Nat.not_lt.mpr hlength)]
      exact (ih hlength).mpr ⟨more, hmore, (List.append_assoc ..).symm, hresult⟩

/-! ## Expressions -/

/-- The elements that one round of a repetition of `inner` adds. -/
def Expr.round (limits : Limits) (inner : Expr) : Eval (List Element) :=
  itemElements inner (inner.evaluate limits) (inner.number limits "")

/-- What a repetition comes to after its count has come to `count`. -/
structure Repeats (limits : Limits) (next? : σ → Option (Nat × σ)) (inner : Expr)
    (count : Traced Int) (source : σ) (t : Traced Value) (rest : σ) : Prop where
  nonneg : 0 ≤ count.value
  le_maxListLength : count.value ≤ limits.maxListLength
  rounds : ∃ elements, t.value = .list elements ∧ elements.length ≤ limits.maxListLength ∧
    Rounds next? (inner.round limits) count.value.toNat source elements rest
  trace : ∃ text, inner.write = .ok text ∧ t.trace = Written.repeated count.trace text

theorem Expr.run_repeated_iff {count inner : Expr} {t : Traced Value} :
    ((Expr.repeated count inner).evaluate limits).run next? source = (.value t, rest) ↔
      ∃ c mid, (count.number limits "").run next? source = (.value c, mid) ∧
        Repeats limits next? inner c mid t rest := by
  have hevaluate : (Expr.repeated count inner).evaluate limits =
      repeatValue limits (count.number limits "") (inner.round limits) inner >>=
        fun t => pure (t.map .list) := rfl
  rw [hevaluate]
  simp only [repeatValue, Chance.run_bind_value_iff]
  constructor
  · rintro ⟨t', last, ⟨c, mid, hcount, hrun⟩, hvalue⟩
    obtain ⟨ht, rfl⟩ := Prod.mk.inj hvalue
    obtain rfl := Chance.Ending.value.inj ht
    refine ⟨c, mid, hcount, ?_⟩
    split at hrun
    · cases hrun
    · split at hrun
      · cases hrun
      · obtain ⟨elements, after, hitems, hrun⟩ := Chance.run_bind_value_iff.mp hrun
        obtain ⟨_, hrounds, rfl, hlength⟩ := (run_repeatItem_iff (Nat.zero_le _)).mp hitems
        split at hrun
        · rename_i text hwrite
          obtain ⟨ht, rfl⟩ := Prod.mk.inj hrun
          obtain rfl := Chance.Ending.value.inj ht
          exact ⟨by omega, by omega, ⟨_, rfl, hlength, hrounds⟩, text, hwrite, rfl⟩
        · cases hrun
  · rintro ⟨c, mid, hcount, hnonneg, hle, ⟨elements, helements, hlength, hrounds⟩, text, hwrite,
      htrace⟩
    have hitems : (repeatItem limits.maxListLength (inner.round limits) c.value.toNat []).run next?
        mid = (.value elements, rest) :=
      (run_repeatItem_iff (Nat.zero_le _)).mpr ⟨elements, hrounds, rfl, hlength⟩
    refine ⟨⟨elements, t.trace⟩, rest, ⟨c, mid, hcount, ?_⟩, ?_⟩
    · rw [if_neg (Int.not_lt.mpr hnonneg), if_neg (Int.not_lt.mpr hle)]
      refine Chance.run_bind_value_iff.mpr ⟨elements, rest, hitems, ?_⟩
      rw [hwrite, htrace]
      rfl
    · obtain ⟨v, trace⟩ := t
      obtain rfl : v = .list elements := helements
      rfl

theorem Expr.run_int_iff {n : Int} {t : Traced Int} :
    ((Expr.int n).number limits "").run next? source = (.value t, rest) ↔
      n.natAbs ≤ limits.integerLimit ∧ t = ⟨n, toString n⟩ ∧ rest = source := by
  have hnumber : (Expr.int n).number limits "" = (liftM (literal limits n) : Eval (Traced Int)) :=
    rfl
  rw [hnumber, literal, Limits.check]
  split
  · rename_i hlt
    constructor
    · intro h
      cases h
    · rintro ⟨hle, -⟩
      omega
  · rename_i hle
    constructor
    · intro h
      obtain ⟨ht, rfl⟩ := Prod.mk.inj h
      exact ⟨Nat.le_of_not_lt hle, (Chance.Ending.value.inj ht).symm, rfl⟩
    · rintro ⟨-, rfl, rfl⟩
      rfl

/-- A run of the expression comes to this list and leaves the rest of the source. -/
def Expr.RunsToList (limits : Limits) (next? : σ → Option (Nat × σ)) (e : Expr) (source : σ)
    (elements : List Element) (rest : σ) : Prop :=
  ∃ trace, (e.evaluate limits).run next? source = (.value ⟨.list elements, trace⟩, rest)

/-- A repetition a fixed number of times. -/
theorem Expr.runsToList_repeated_iff {n : Nat} {inner : Expr} :
    (Expr.repeated (.int n) inner).RunsToList limits next? source elements rest ↔
      n ≤ limits.integerLimit ∧ n ≤ limits.maxListLength ∧
        elements.length ≤ limits.maxListLength ∧ (∃ text, inner.write = .ok text) ∧
        Rounds next? (inner.round limits) n source elements rest := by
  unfold RunsToList
  simp only [run_repeated_iff, run_int_iff]
  constructor
  · rintro ⟨trace, _, _, ⟨hlimit, rfl, rfl⟩, _, hle, ⟨_, helements, hlength, hrounds⟩, text,
      hwrite, _⟩
    obtain rfl := Value.list.inj helements
    exact ⟨hlimit, by simpa using hle, hlength, ⟨text, hwrite⟩, hrounds⟩
  · rintro ⟨hlimit, hle, hlength, ⟨text, hwrite⟩, hrounds⟩
    exact ⟨_, _, source, ⟨hlimit, rfl, rfl⟩, by simp, by simpa using hle,
      ⟨elements, rfl, hlength, hrounds⟩, text, hwrite, rfl⟩

/-- A repetition `a + b` times is one `a` times and then one `b` times, on what that leaves of the
source; it comes to a list just if both do and neither the count nor the list is too long. -/
theorem Expr.run_repeated_add (limits : Limits) (inner : Expr) (a b : Nat) {σ : Type}
    (next? : σ → Option (Nat × σ)) (source rest : σ) (elements : List Element) :
    (Expr.repeated (.int (a + b : Nat)) inner).RunsToList limits next? source elements rest ↔
      a + b ≤ min limits.maxListLength limits.integerLimit ∧
        elements.length ≤ limits.maxListLength ∧
        ∃ first last mid, elements = first ++ last ∧
          (Expr.repeated (.int a) inner).RunsToList limits next? source first mid ∧
          (Expr.repeated (.int b) inner).RunsToList limits next? mid last rest := by
  simp only [runsToList_repeated_iff, rounds_add, Nat.le_min]
  constructor
  · rintro ⟨hlimit, hle, hlength, hwrite, first, last, mid, rfl, hfirst, hlast⟩
    rw [List.length_append] at hlength
    refine ⟨⟨hle, hlimit⟩, by rwa [List.length_append], first, last, mid, rfl, ?_, ?_⟩
    · exact ⟨by omega, by omega, by omega, hwrite, hfirst⟩
    · exact ⟨by omega, by omega, by omega, hwrite, hlast⟩
  · rintro ⟨⟨hle, hlimit⟩, hlength, first, last, mid, rfl, ⟨_, _, _, hwrite, hfirst⟩,
      _, _, _, _, hlast⟩
    exact ⟨hlimit, hle, hlength, hwrite, first, last, mid, rfl, hfirst, hlast⟩

end DiceLang
