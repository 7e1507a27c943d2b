import DiceLang.Proofs.Faces
import DiceLang.Proofs.ListFunctions
import DiceLang.Proofs.Path
import DiceLang.Proofs.SelectionLaws

/-!
# Sets of dice for a number

A set of dice whose count and sides are literals draws nothing but its dice. Each raw number shows a
face (`facesOf`), and where the modifiers only select, the faces tell what number the set comes to.

* `path_number_dice`: a set of dice whose modifiers draw nothing;
* `exists_path_plain`: without modifiers, it comes to the total of its faces;
* `exists_path_dropLowest`: where the lowest is dropped, to the total less the lowest face;
* `path_number_add`, `path_number_paren`: numbers put together.
-/

namespace DiceLang

open Chance (Path)

/-! ## Dice as they are thrown -/

namespace ThrownDie

variable {n : Nat} {faces : List Int}

/-- Dice that have just been thrown, with these faces up. -/
def fresh (faces : List Int) : List ThrownDie := faces.map fun v => { value := v }

theorem keptValues_fresh (faces : List Int) : keptValues (fresh faces) = faces := by
  rw [keptValues, fresh, List.filter_eq_self.mpr, List.map_map]
  · exact List.map_id faces
  · intro d hd
    obtain ⟨v, -, rfl⟩ := List.mem_map.mp hd
    rfl

theorem path_throwDice (h : faces.length = n) :
    Path (throwDice n) faces (.value (fresh faces)) := by
  have hlength : (List.range n).length = faces.length := by rw [List.length_range, h]
  clear h
  rw [throwDice]
  -- One die is thrown for each position; only how many there are matters.
  generalize List.range n = positions at hlength
  induction positions generalizing faces with
  | nil =>
    obtain rfl := List.length_eq_zero_iff.mp hlength.symm
    exact .done []
  | cons position positions ih =>
    obtain ⟨v, faces, rfl⟩ := List.exists_cons_of_length_eq_add_one hlength.symm
    rw [List.mapM_cons]
    simp only [bind_pure_comp]
    exact .draw v (Chance.path_map_value.mpr ⟨_, ih (Nat.succ.inj hlength), rfl⟩)

/-- To drop the lowest of the dice leaves all faces but one that is no higher than any other. -/
theorem keptTotal_dropLowest {m : Int} (h : faces.min? = some m) :
    ∃ others, faces.Perm (m :: others) ∧
      keptTotal (selected .dropLow 1 (fresh faces)) = total others := by
  have hranked := rankedValues_perm false (fresh faces)
  rw [keptValues_fresh] at hranked
  have hlowest : (rankedValues false (fresh faces)).head? = some m := by
    rw [← List.min?_eq_head?, min?_perm hranked, h]
    exact (rankedValues_pairwise false _).imp Int.min_eq_left
  -- What stands behind the lowest is what is kept.
  obtain ⟨others, hothers⟩ := List.head?_eq_some_iff.mp hlowest
  have hkept := keptValues_selected .dropLow 1 (fresh faces)
  rw [if_neg (by decide)] at hkept
  have hdrop : (rankedValues false (fresh faces)).drop 1 = others := by
    rw [hothers]
    rfl
  rw [hothers] at hranked
  exact ⟨others, hranked.symm, (total_perm hkept).trans (congrArg total hdrop)⟩

end ThrownDie

open ThrownDie

/-! ## Literals -/

variable {limits : Limits} {n s : Nat} {raws : List Nat}

/-- A set of `n` dice with `s` sides is within the limits. -/
structure Limits.Allows (limits : Limits) (n s : Nat) : Prop where
  count_le : n ≤ limits.maxDice
  count_fits : n ≤ limits.integerLimit
  sides_pos : 0 < s
  sides_le : s ≤ limits.maxSides
  sides_fit : s ≤ limits.integerLimit

theorem literal_natCast (h : n ≤ limits.integerLimit) :
    literal limits n = .ok ⟨n, toString (n : Int)⟩ := by
  rw [literal, Limits.check, if_neg (by omega)]
  rfl

theorem evaluateCount_natCast (h : n ≤ limits.integerLimit) :
    evaluateCount limits (some (.int n)) = .done ⟨n, toString (n : Int)⟩ := by
  show (liftM (literal limits n) : Eval (Traced Int)) = _
  rw [literal_natCast h]
  rfl

theorem evaluateDie_natCast (h : limits.Allows n s) :
    evaluateDie limits (.numbered (.int s)) = .done (.numbered ⟨s, toString (s : Int)⟩) := by
  have hpos := h.sides_pos
  have hle := h.sides_le
  have hcheck : checkSides limits (s : Int) = .ok () := by
    rw [checkSides, if_neg (by omega), if_neg (by omega)]
  show (liftM (literal limits s) : Eval (Traced Int)) >>= (fun sides =>
    (liftM (checkSides limits sides.value) : Eval Unit) >>= fun _ => pure (Die.numbered sides)) = _
  rw [literal_natCast h.sides_fit]
  simp only [Eval.liftM_ok, Chance.done_bind, hcheck]
  rfl

theorem path_number_int (h : n ≤ limits.integerLimit) :
    Path ((Expr.int n).number limits "") [] (.value ⟨n, toString (n : Int)⟩) := by
  show Path (liftM (literal limits n) : Eval (Traced Int)) [] _
  rw [literal_natCast h]
  exact .done _

/-! ## Sets of dice -/

/-- The faces that raw numbers show on dice with so many sides. -/
def facesOf (s : Nat) (raws : List Nat) : List Int := raws.map (Die.numbered (s : Int)).face

theorem length_facesOf (s : Nat) (raws : List Nat) : (facesOf s raws).length = raws.length :=
  List.length_map _

theorem bounds_of_mem_facesOf (hs : 0 < s) {v : Int} (hv : v ∈ facesOf s raws) : 1 ≤ v ∧ v ≤ s := by
  obtain ⟨raw, -, rfl⟩ := List.mem_map.mp hv
  have hdie : (Die.numbered (s : Int)).Throwable := Int.natCast_pos.mpr hs
  exact hdie.shows_face raw

/-- The trace of a set of dice that ends up as these. -/
def diceTrace (n s : Nat) (modifiers : List (Modifier String)) (dice : List ThrownDie) : String :=
  Written.dice (toString (n : Int)) (.numbered (toString (s : Int))) modifiers ++
    record (dice.map fragment)

section

variable {ms : List (Modifier Expr)} {dice : List ThrownDie} {modifiers : List (Modifier String)}

theorem path_throwSet (h : limits.Allows n s) (hlength : raws.length = n)
    (hmodify : modify limits ms (.numbered s) (fresh (facesOf s raws)) = .done (dice, modifiers)) :
    Path (throwSet limits (evaluateCount limits (some (.int n)))
      (evaluateDie limits (.numbered (.int s))) (modify limits ms)) raws
      (.value ⟨dice, diceTrace n s modifiers dice⟩) := by
  have hle := h.count_le
  have hcheck : checkDice limits (n : Int) = .ok () := by
    rw [checkDice, if_neg (by omega), if_neg (by omega)]
  have hthrown : Path ((Die.numbered (s : Int)).throw (throwDice n)) raws
      (.value (fresh (facesOf s raws))) :=
    Path.adapt (path_throwDice ((length_facesOf s raws).trans hlength))
  rw [throwSet, evaluateCount_natCast h.count_fits, evaluateDie_natCast h]
  simp only [Chance.done_bind, hcheck, Eval.liftM_ok, Int.toNat_natCast, Die.map]
  refine hthrown.bind_done ?_
  rw [hmodify]
  rfl

theorem path_number_dice (h : limits.Allows n s) (hlength : raws.length = n)
    (hmodify : modify limits ms (.numbered s) (fresh (facesOf s raws)) = .done (dice, modifiers))
    (hfits : (keptTotal dice).natAbs ≤ limits.integerLimit) :
    Path ((Expr.dice (some (.int n)) (.numbered (.int s)) ms).number limits "") raws
      (.value ⟨keptTotal dice, diceTrace n s modifiers dice⟩) := by
  refine (path_throwSet h hlength hmodify).bind_done ?_
  rw [Limits.check, if_neg (Nat.not_lt.mpr hfits)]
  rfl

end

/-- `n` dice with `s` sides come to the total of their faces. -/
theorem exists_path_plain (h : limits.Allows n s) (hfits : n * s ≤ limits.integerLimit)
    (hlength : raws.length = n) :
    ∃ t, Path ((Expr.dice (some (.int n)) (.numbered (.int s)) []).number limits "") raws
        (.value t) ∧ t.value = total (facesOf s raws) ∧ n ≤ t.value ∧ t.value ≤ n * s := by
  have hbounds : _ ≤ total (facesOf s raws) ∧ total (facesOf s raws) ≤ _ :=
    total_bounds fun _ => bounds_of_mem_facesOf h.sides_pos
  rw [length_facesOf, hlength, Int.mul_one] at hbounds
  have hkept : keptTotal (fresh (facesOf s raws)) = total (facesOf s raws) :=
    congrArg total (keptValues_fresh _)
  have hfits' : (n : Int) * s ≤ limits.integerLimit := by exact_mod_cast hfits
  have hmodify : modify limits [] (.numbered (s : Int)) (fresh (facesOf s raws)) =
      .done (fresh (facesOf s raws), []) := rfl
  have hpath := path_number_dice h hlength hmodify (by omega)
  exact ⟨_, hpath, hkept, hkept ▸ hbounds⟩

theorem modify_select {k : Nat} (hk : k ≤ limits.integerLimit) (selection : Selection)
    (die : Die Int) (dice : List ThrownDie) : modify limits [.select selection (.int k)] die dice =
      .done (selected selection k dice, [.select selection (toString (k : Int))]) := by
  have hmodifier : evaluateModifier limits (.select selection (.int k)) =
      .done (.select selection ⟨k, toString (k : Int)⟩) := by
    show (liftM (literal limits k) : Eval (Traced Int)) >>=
      (fun t => pure (Modifier.select selection t)) = _
    rw [literal_natCast hk]
    rfl
  have hmodify : modify limits [.select selection (.int k)] die dice =
      evaluateModifier limits (.select selection (.int k)) >>= fun m =>
        die.throw ((m.map Traced.value).apply limits.rerollCap die.highest dice) >>= fun dice =>
          pure (dice, [m.map Traced.trace]) := rfl
  rw [hmodify, hmodifier, Chance.done_bind]
  simp only [Modifier.map, Modifier.apply, select_eq_selected]
  rfl

/-- Of `n + 1` dice with `s` sides the lowest is dropped: they come to the total of their faces less
the lowest face. -/
theorem exists_path_dropLowest (h : limits.Allows (n + 1) s) (hfits : n * s ≤ limits.integerLimit)
    (hlength : raws.length = n + 1) :
    ∃ t m, Path ((Expr.dice (some (.int (n + 1 : Nat))) (.numbered (.int s))
        [.select .dropLow (.int 1)]).number limits "") raws (.value t) ∧
      (facesOf s raws).min? = some m ∧ t.value = total (facesOf s raws) - m ∧
        n ≤ t.value ∧ t.value ≤ n * s := by
  have hne : facesOf s raws ≠ [] := by
    rw [← List.length_pos_iff, length_facesOf]
    omega
  obtain ⟨m, hm⟩ := Option.isSome_iff_exists.mp (List.isSome_min?_of_ne_nil hne)
  obtain ⟨others, hperm, hkept⟩ := keptTotal_dropLowest hm
  have htotal := total_perm hperm
  have hothers : others.length = n := by
    have hcount := hperm.length_eq
    rw [length_facesOf, List.length_cons] at hcount
    omega
  have hbounds : _ ≤ total others ∧ total others ≤ _ := total_bounds fun v hv =>
    bounds_of_mem_facesOf h.sides_pos (hperm.mem_iff.mpr (List.mem_cons_of_mem m hv))
  rw [hothers, Int.mul_one] at hbounds
  rw [total_cons] at htotal
  have hfits' : (n : Int) * s ≤ limits.integerLimit := by exact_mod_cast hfits
  have hone : 1 ≤ limits.integerLimit := Nat.le_trans (Nat.succ_pos n) h.count_fits
  have hpath := path_number_dice h hlength (modify_select hone .dropLow _ _) (by omega)
  have hvalue : keptTotal (selected .dropLow 1 (fresh (facesOf s raws))) =
      total (facesOf s raws) - m := by omega
  exact ⟨_, m, hpath, hm, hvalue, hkept ▸ hbounds⟩

/-! ## Numbers put together -/

theorem path_number_paren {inner : Expr} {t : Traced Int}
    (h : Path (inner.number limits "") raws (.value t)) :
    Path ((Expr.paren inner).number limits "") raws (.value t.wrapped) :=
  h.bind_done rfl

theorem path_number_add {left right : Expr} {a b : Traced Int} {first last : List Nat}
    (hleft : Path (left.number limits "") first (.value a))
    (hright : Path (right.number limits "") last (.value b))
    (hfits : (a.value + b.value).natAbs ≤ limits.integerLimit) :
    Path ((Expr.binary .add left right).number limits "") (first ++ last)
      (.value ⟨a.value + b.value, Written.binary .add a.trace b.trace⟩) := by
  have hcombine : combine limits .add a b =
      .ok ⟨a.value + b.value, Written.binary .add a.trace b.trace⟩ := by
    show (limits.check (a.value + b.value) >>= fun n => pure _) = _
    rw [Limits.check, if_neg (Nat.not_lt.mpr hfits)]
    rfl
  refine Chance.path_bind_value.mpr ⟨a, first, last, rfl, hleft, hright.bind_done ?_⟩
  rw [hcombine]
  rfl

end DiceLang
