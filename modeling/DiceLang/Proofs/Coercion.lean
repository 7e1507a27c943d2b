import DiceLang.Proofs.Blame
import DiceLang.Proofs.Numeral
import DiceLang.Proofs.PlainDice
import DiceLang.Supply

/-!
# Values as numbers

An expression may be asked for a number or for its own value. The two evaluations are written apart,
but the one is the other followed by a step that draws nothing (`Expr.number_eq`): a number is
taken as it is, a set of dice is added up, and any other list is refused.

* `readNumber`: that step;
* `Expr.run_number`: how the one run ends when the other does.
-/

namespace DiceLang

/-- The value of `e` read as a number, which `function` needs if that is not empty. -/
def readNumber (limits : Limits) (function : String) (e : Expr) :
    Traced Value → Except EvalError (Traced Int)
  | ⟨.scalar n, trace⟩ => .ok ⟨n, trace⟩
  | ⟨.list elements, trace⟩ =>
    if e.isDice then do
      return ⟨← limits.check (total (elements.map Element.value)), trace⟩
    else .error (.listForNumber function e.unwrapped.text)

section

variable {limits : Limits} {function : String}

/-- Parentheses around a value make no difference but to its trace. -/
theorem readNumber_paren (inner : Expr) (t : Traced Value) :
    readNumber limits function (.paren inner) t.wrapped =
      Traced.wrapped <$> readNumber limits function inner t := by
  obtain ⟨v, trace⟩ := t
  cases v with
  | scalar n => rfl
  | list elements =>
    show (if inner.isDice then _ else _) = Traced.wrapped <$> (if inner.isDice then _ else _)
    split
    · cases limits.check (total (elements.map Element.value)) <;> rfl
    · rfl

theorem values_keptElements (dice : List ThrownDie) :
    total ((keptElements dice).map Element.value) = keptTotal dice := by
  rw [keptElements, keptTotal, List.map_map]
  rfl

theorem readNumber_dice (count : Option Expr) (d : Die Expr) (ms : List (Modifier Expr))
    (dice : Traced (List ThrownDie)) :
    readNumber limits function (.dice count d ms)
        (dice.map fun dice => .list (keptElements dice)) = do
      return ⟨← limits.check (keptTotal dice.value), dice.trace⟩ := by
  rw [← values_keptElements]
  rfl

/-- An expression that is no set of dice is read as any value is. -/
theorem readNumber_eq_asNumber {e : Expr} (hdice : e.isDice = false) (hparen : e.unwrapped = e)
    (t : Traced Value) : readNumber limits function e t = asNumber function e t := by
  obtain ⟨v, trace⟩ := t
  cases v with
  | scalar n => rfl
  | list elements => rw [readNumber, hdice, hparen, asNumber, if_neg Bool.false_ne_true]

end

/-! ## The two evaluations -/

theorem Eval.bind_eq_bind_bind {α β γ : Type} (x : Eval α) {f : α → Eval γ} {g : α → Eval β}
    {h : β → Eval γ} (hfg : ∀ a, f a = g a >>= h) : x >>= f = x >>= g >>= h := by
  rw [bind_assoc]
  exact bind_congr hfg

section

variable {limits : Limits}

/-- A number that is taken for a value is read as it was. -/
theorem Eval.read_scalar (function : String) (e : Expr) (x : Eval (Traced Int)) :
    x = (do return (← x).map .scalar) >>= fun t => liftM (readNumber limits function e t) := by
  rw [bind_assoc]
  exact (bind_pure x).symm

-- The two equations of an expression without parentheses begin with the same steps, and part only
-- when its value is there.
/-- An expression's number is its own value read as a number. -/
theorem Expr.number_eq (function : String) : (e : Expr) → e.number limits function =
    e.evaluate limits >>= fun t => liftM (readNumber limits function e t)
  | .int n => Eval.read_scalar ..
  | .paren inner => by
    calc (Expr.paren inner).number limits function
      _ = (do return (← inner.number limits function).wrapped) := rfl
      _ = (inner.evaluate limits >>= fun t =>
            liftM (readNumber limits function inner t) >>= fun t => pure t.wrapped) := by
        rw [Expr.number_eq function inner, bind_assoc]
      _ = _ := Eval.bind_eq_bind_bind _ fun t => by
        rw [pure_bind, readNumber_paren]
        cases readNumber limits function inner t <;> rfl
  | .binary op left right =>
    Eval.bind_eq_bind_bind _ fun left => Eval.bind_eq_bind_bind _ fun right => Eval.read_scalar ..
  | .negate inner => Eval.bind_eq_bind_bind _ fun t => Eval.read_scalar ..
  | .die d => Eval.bind_eq_bind_bind _ fun d => Eval.read_scalar ..
  | .dice count d ms => by
    refine Eval.bind_eq_bind_bind _ fun dice => ?_
    rw [pure_bind, readNumber_dice]
    cases limits.check (keptTotal dice.value) <;> rfl
  | .call name args => by
    refine bind_congr fun t => ?_
    rw [readNumber_eq_asNumber rfl rfl]
  | .list items => Eval.bind_eq_bind_bind _ fun ts => rfl
  | .repeated count inner => Eval.bind_eq_bind_bind _ fun t => rfl
  | .gap g => rfl

/-- How a run for a number ends, and how it leaves the source, if a run for the expression's own
value ends so. A number is the same number, with the same trace. A set of dice comes to its total,
or fails for overflow if that is over the limit, told or not; any other list fails for its kind. A
failure is the same failure. -/
theorem Expr.run_number (limits : Limits) (function : String) (e : Expr) {σ : Type}
    (next? : σ → Option (Nat × σ)) (source : σ) :
    (e.number limits function).run next? source =
      match (e.evaluate limits).run next? source with
      | (.value ⟨.scalar n, trace⟩, rest) => (.value ⟨n, trace⟩, rest)
      | (.value ⟨.list elements, trace⟩, rest) =>
        let sum := total (elements.map Element.value)
        if e.isDice then
          if limits.integerLimit < sum.natAbs then
            (.failed (EvalError.overLimit sum limits.integerLimit).failure, rest)
          else (.value ⟨sum, trace⟩, rest)
        else (.failed (.error (.listForNumber function e.unwrapped.text)), rest)
      | (.failed f, rest) => (.failed f, rest)
      | (.exhausted, rest) => (.exhausted, rest) := by
  rw [Expr.number_eq, Chance.run_bind]
  cases (e.evaluate limits).run next? source with
  | mk ending rest =>
    cases ending with
    | failed f => rfl
    | exhausted => rfl
    | value t =>
      obtain ⟨v, trace⟩ := t
      cases v with
      | scalar n => rfl
      | list elements =>
        simp only [readNumber, Limits.check]
        split
        · split
          · rfl
          · rfl
        · rfl

/-! ## A total that is too long -/

/-- That the total of a set of dice is over the limit is not told if the total is too long. -/
theorem Expr.run_number_conversion {function : String} {e : Expr} (hdice : e.isDice = true)
    {σ : Type} {next? : σ → Option (Nat × σ)} {source rest : σ} {elements : List Element}
    {trace : String} (hrun : (e.evaluate limits).run next? source =
      (.value ⟨.list elements, trace⟩, rest))
    (hover : limits.integerLimit < (total (elements.map Element.value)).natAbs)
    (hlong : Text.isWritable (total (elements.map Element.value)) = false) :
    (e.number limits function).run next? source = (.failed .conversion, rest) := by
  have hread : readNumber limits function e ⟨.list elements, trace⟩ =
      .error (.overLimit (total (elements.map Element.value)) limits.integerLimit) := by
    rw [readNumber, if_pos hdice, Limits.check, if_pos hover]
    rfl
  rw [Expr.number_eq, Chance.run_bind, hrun]
  simp only [hread, Eval.liftM_error, Eval.fail, EvalError.failure_overLimit hlong]
  rfl

/-- Twice this number is the least that cannot be written. -/
theorem exists_half_magnitude :
    ∃ n : Nat, n = 5 * 10 ^ 4299 ∧ 1 < n ∧ n + n = 10 ^ Text.maxNumeralLength := by
  -- For any exponent, lest the powers be computed.
  have hpow : ∀ k, 1 < 5 * 10 ^ k ∧ 5 * 10 ^ k + 5 * 10 ^ k = 10 ^ (k + 1) := fun k => by
    have hpos := Nat.pow_pos (n := k) (show 0 < 10 by decide)
    rw [Nat.pow_succ]
    omega
  rw [show Text.maxNumeralLength = 4299 + 1 from rfl]
  exact ⟨_, rfl, hpow 4299⟩

/-- Two dice that can show one number only. -/
theorem run_evaluate_pair {n : Nat} (hn : n ≤ limits.integerLimit) (htwo : 2 ≤ limits.integerLimit)
    (hdice : 2 ≤ limits.maxDice) : ∃ trace,
    ((Expr.dice (some (.int 2)) (.custom [.int n]) []).evaluate limits).run Source.next?
      (.script [0, 0]) = (.value ⟨.list [⟨n, ""⟩, ⟨n, ""⟩], trace⟩, .script []) := by
  have hcount : evaluateCount limits (some (.int 2)) = .done ⟨2, "2"⟩ :=
    evaluateCount_natCast (n := 2) htwo
  have hdie : evaluateDie limits (.custom [.int n]) =
      .done (.custom [⟨n, toString (n : Int)⟩]) := by
    show (liftM (literal limits n) : Eval (Traced Int)) >>= (fun face =>
      pure (Die.custom [face])) = _
    rw [literal_natCast hn]
    rfl
  have hcheck : checkDice limits 2 = .ok () := by
    rw [checkDice, if_neg (by omega), if_neg (by omega)]
  have heval : (Expr.dice (some (.int 2)) (.custom [.int n]) []).evaluate limits =
      throwSet limits (.done ⟨2, "2"⟩) (.done (.custom [⟨n, toString (n : Int)⟩]))
        (modify limits []) >>= fun dice =>
          pure (dice.map fun dice => .list (keptElements dice)) := by
    rw [← hcount, ← hdie]
    rfl
  rw [heval, throwSet]
  simp only [Chance.done_bind, hcheck, Eval.liftM_ok]
  exact ⟨_, rfl⟩

/-- The total of a set of dice is over the limit, but that is not what the run for it fails for, if
the total has 4301 digits. -/
theorem Expr.run_number_pair : ∃ (limits : Limits) (e : Expr) (elements : List Element)
    (trace : String), limits.integerLimit = 5 * 10 ^ 4299 ∧
      e = .dice (some (.int 2)) (.custom [.int limits.integerLimit]) [] ∧
      (e.evaluate limits).run Source.next? (.script [0, 0]) =
        (.value ⟨.list elements, trace⟩, .script []) ∧
      limits.integerLimit < (total (elements.map Element.value)).natAbs ∧
      (e.number limits "").run Source.next? (.script [0, 0]) = (.failed .conversion, .script []) ∧
      ¬ ∃ err rest, (e.number limits "").run Source.next? (.script [0, 0]) =
        (.failed (.error err), rest) ∧ err.kind = .overflow := by
  obtain ⟨n, hn, hpos, hdouble⟩ := exists_half_magnitude
  let limits : Limits := { integerLimit := n }
  let e : Expr := .dice (some (.int 2)) (.custom [.int n]) []
  have hdice : 2 ≤ limits.maxDice := Nat.le_of_ble_eq_true rfl
  obtain ⟨trace, hrun⟩ := run_evaluate_pair (Nat.le_refl limits.integerLimit) hpos hdice
  have htotal : (total [(n : Int), n]).natAbs = 10 ^ Text.maxNumeralLength := by
    show ((n : Int) + (n + 0)).natAbs = _
    omega
  have hover : limits.integerLimit < (total [(n : Int), n]).natAbs := by
    show n < _
    omega
  have hlong : Text.isWritable (total [(n : Int), n]) = false := by
    rw [Bool.eq_false_iff, ne_eq, Text.isWritable_iff, htotal]
    exact Nat.lt_irrefl _
  have hnumber : (e.number limits "").run Source.next? (.script [0, 0]) =
      (.failed .conversion, .script []) := Expr.run_number_conversion rfl hrun hover hlong
  refine ⟨limits, e, _, trace, hn, rfl, hrun, hover, hnumber, ?_⟩
  rintro ⟨err, rest, herr, -⟩
  rw [hnumber] at herr
  cases herr

end

end DiceLang
