import DiceLang.Proofs.Annotation
import DiceLang.Proofs.Ensures
import DiceLang.Proofs.RoundTrip
import DiceLang.Supply

/-!
# A trace is the expression with records of dice

Whatever an evaluation comes to, its trace is the canonical text of the expression with the records
of the throws put into it, and the expression has no gaps: one that is evaluated is an error, and
where a part is not evaluated it is written.

* `Expr.evaluate_recounts`, `Expr.number_recounts`: the trace of a value;
* `Roll.run_withoutRecords`: the trace of a run, without its records.
-/

namespace DiceLang

open Chance

variable {limits : Limits}

/-- The trace recounts something that has no gaps and is written as `text`. -/
structure Recounts (gap? : Option Gap) (text trace : String) : Prop where
  gapless : gap? = none
  annotated : Annotated trace text

/-- The traces recount expressions one by one. -/
structure RecountsAll (es : List Expr) (traces : List String) : Prop where
  gapless : exprsGap? es = none
  annotated : List.Forall₂ Annotated traces (exprTexts es)

theorem RecountsAll.nil : RecountsAll [] [] := ⟨rfl, .nil⟩

theorem RecountsAll.cons {e : Expr} {es : List Expr} {trace : String} {traces : List String}
    (h : Recounts e.gap? e.text trace) (hs : RecountsAll es traces) :
    RecountsAll (e :: es) (trace :: traces) :=
  ⟨by simp [exprsGap?, h.gapless, hs.gapless], .cons h.annotated hs.annotated⟩

theorem Expr.write_of_gap? {e : Expr} (h : e.gap? = none) : e.write = .ok e.text := by
  rw [write, h]

theorem Expr.write_eq_ok {e : Expr} {text : String} (h : e.write = .ok text) :
    e.gap? = none ∧ text = e.text := by
  unfold write at h
  split at h
  · cases h
  · exact ⟨‹_›, (Except.ok.inj h).symm⟩

/-! ## Parts -/

theorem traced_recounts {x : Except EvalError Int} {gap? : Option Gap} {text trace : String}
    (h : Recounts gap? text trace) :
    (liftM (do return (⟨← x, trace⟩ : Traced Int)) : Eval (Traced Int)).Ensures (fun _ => True)
      fun t => Recounts gap? text t.trace :=
  Eval.ensures_liftM fun t ht => by
    rw [(traced_eq_ok ht).2]
    exact h

theorem throwOne_recounts {die : Die (Traced Int)} {gap? : Option Gap} {text : String}
    (h : Recounts gap? text (die.map Traced.trace).text) :
    (throwOne die).Ensures (fun _ => True) fun t => Recounts gap? text t.trace :=
  .bind (.of_true _) fun face _ => .pure ⟨h.gapless, h.annotated.face face⟩

theorem throwSet_recounts {count : Eval (Traced Int)} {die : Eval (Die (Traced Int))}
    {modify : Die Int → List ThrownDie → Eval (List ThrownDie × List (Modifier String))}
    {c : Option Expr} {d : Die Expr} {ms : List (Modifier Expr)}
    (hcount : count.Ensures (fun _ => True) fun t =>
      Recounts (countGap? c) (countText c) t.trace)
    (hdie : die.Ensures (fun _ => True) fun die =>
      Recounts d.gap? d.texts.text (die.map Traced.trace).text)
    (hmodify : ∀ faces dice, (modify faces dice).Ensures (fun _ => True) fun r =>
      Recounts (modifiersGap? ms) (String.join ((modifierTexts ms).map Modifier.text))
        (String.join (r.2.map Modifier.text))) :
    (throwSet limits count die modify).Ensures (fun _ => True) fun t =>
      Recounts (Expr.dice c d ms).gap? (Expr.dice c d ms).text t.trace := by
  refine hcount.bind fun count hcount => .bind (.of_true _) fun _ _ => ?_
  refine hdie.bind fun die hdie => .bind (.of_true _) fun thrown _ => ?_
  refine (hmodify _ thrown).bind fun r hr => .pure ⟨?_, ?_⟩
  · simp [Expr.gap?, hcount.gapless, hdie.gapless, hr.gapless]
  · exact ((hcount.annotated.append hdie.annotated).append hr.annotated).dice r.1

theorem Builtin.name_of_find {name : String} {f : Builtin} (h : find name = .ok f) :
    f.name = name := by
  unfold find at h
  split at h
  · rename_i f' hf
    obtain rfl := Except.ok.inj h
    simpa using List.find?_some hf
  · cases h

theorem callFunction_recounts {name : String} {args : List Expr} {given : Nat}
    {arguments : (ks : List Kind) → given = ks.length → Eval (Arguments ks × List String)}
    (h : ∀ ks hks, (arguments ks hks).Ensures (fun _ => True) fun r => RecountsAll args r.2) :
    (callFunction limits name given arguments).Ensures (fun _ => True) fun t =>
      Recounts (Expr.call name args).gap? (Expr.call name args).text t.trace := by
  refine (Eval.ensures_liftM fun f hf => Builtin.name_of_find hf).bind fun f hname => ?_
  split
  · refine (h _ _).bind fun r hr => .bind (.of_true _) fun result _ =>
      .bind (.of_true _) fun v _ => .pure ⟨?_, ?_⟩
    · rw [Expr.gap?, hr.gapless]
    · rw [Expr.text, hname]
      exact .call name hr.annotated
  · trivial

theorem repeatValue_recounts {count : Eval (Traced Int)} {item : Eval (List Element)}
    {c inner : Expr}
    (hcount : count.Ensures (fun _ => True) fun t => Recounts c.gap? c.text t.trace) :
    (repeatValue limits count item inner).Ensures (fun _ => True) fun t =>
      Recounts (Expr.repeated c inner).gap? (Expr.repeated c inner).text t.trace := by
  refine hcount.bind fun count hcount => .ite (fun _ => trivial) fun _ =>
    .ite (fun _ => trivial) fun _ => .bind (.of_true _) fun elements _ => ?_
  split
  · rename_i text hwrite
    obtain ⟨hgap, rfl⟩ := Expr.write_eq_ok hwrite
    exact .pure ⟨by simp [Expr.gap?, hcount.gapless, hgap], hcount.annotated.repeated (.refl _)⟩
  · trivial

/-! ## Expressions -/

-- One case for each equation of the evaluation, as it puts the trace together from those of the
-- parts; the text is put together in the same way.
mutual

/-- The trace of an expression's own value recounts it. -/
theorem Expr.evaluate_recounts : (e : Expr) →
    (e.evaluate limits).Ensures (fun _ => True) fun t => Recounts e.gap? e.text t.trace
  | .int n => by
    exact (traced_recounts ⟨rfl, .refl _⟩).bind fun t ht => .pure ht
  | .paren inner => by
    refine (Expr.evaluate_recounts inner).bind fun t ht => .pure ?_
    exact ⟨ht.gapless, ht.annotated.parens⟩
  | .binary op left right => by
    refine (Expr.number_recounts "" left).bind fun l hl =>
      (Expr.number_recounts "" right).bind fun r hr => ?_
    refine (traced_recounts ⟨?_, hl.annotated.binary op hr.annotated⟩).bind fun t ht => .pure ht
    simp [Expr.gap?, hl.gapless, hr.gapless]
  | .negate inner => by
    refine (Expr.number_recounts "" inner).bind fun t ht => ?_
    have hminus := (Annotated.refl "-").append ht.annotated
    exact (traced_recounts ⟨ht.gapless, hminus⟩).bind fun t ht => .pure ht
  | .die d => by
    exact (evaluateDie_recounts d).bind fun d hd => (throwOne_recounts hd).bind fun t ht => .pure ht
  | .dice count d ms => by
    refine (throwSet_recounts (evaluateCount_recounts count) (evaluateDie_recounts d) ?_).bind
      fun t ht => .pure ht
    exact modify_recounts ms
  | .call name args => by
    exact callFunction_recounts fun ks hks => evaluateArguments_recounts name args ks hks
  | .list items => by
    exact (evaluateItems_recounts items).bind fun ts hts => .pure ⟨hts.gapless, .refl _⟩
  | .repeated count inner => by
    exact (repeatValue_recounts (Expr.number_recounts "" count)).bind fun t ht => .pure ht
  | .gap g => by
    trivial

/-- The trace of an expression as a number recounts it. -/
theorem Expr.number_recounts (function : String) : (e : Expr) →
    (e.number limits function).Ensures (fun _ => True) fun t => Recounts e.gap? e.text t.trace
  | .int n => by
    exact traced_recounts ⟨rfl, .refl _⟩
  | .paren inner => by
    refine (Expr.number_recounts function inner).bind fun t ht => .pure ?_
    exact ⟨ht.gapless, ht.annotated.parens⟩
  | .binary op left right => by
    refine (Expr.number_recounts "" left).bind fun l hl =>
      (Expr.number_recounts "" right).bind fun r hr => ?_
    refine traced_recounts ⟨?_, hl.annotated.binary op hr.annotated⟩
    simp [Expr.gap?, hl.gapless, hr.gapless]
  | .negate inner => by
    refine (Expr.number_recounts "" inner).bind fun t ht => ?_
    exact traced_recounts ⟨ht.gapless, (Annotated.refl "-").append ht.annotated⟩
  | .die d => by
    exact (evaluateDie_recounts d).bind fun d hd => throwOne_recounts hd
  | .dice count d ms => by
    refine (throwSet_recounts (evaluateCount_recounts count) (evaluateDie_recounts d) ?_).bind
      fun t ht => .bind (.of_true _) fun n _ => .pure ht
    exact modify_recounts ms
  | .call name args => by
    refine (callFunction_recounts fun ks hks => evaluateArguments_recounts name args ks hks).bind
      fun t ht => ?_
    refine Eval.ensures_liftM fun n hn => ?_
    obtain rfl := asNumber_eq_ok hn
    exact ht
  | .list items => by
    exact .bind (.of_true _) fun _ _ => trivial
  | .repeated count inner => by
    exact .bind (.of_true _) fun _ _ => trivial
  | .gap g => by
    trivial

theorem evaluateItems_recounts : (es : List Expr) →
    (evaluateItems limits es).Ensures (fun _ => True) fun ts =>
      RecountsAll es (ts.map Traced.trace)
  | [] => by
    exact .pure .nil
  | e :: es => by
    refine (Expr.number_recounts "" e).bind fun t ht => ?_
    exact (evaluateItems_recounts es).bind fun ts hts => .pure (.cons ht hts)

theorem evaluateCount_recounts : (count : Option Expr) →
    (evaluateCount limits count).Ensures (fun _ => True) fun t =>
      Recounts (countGap? count) (countText count) t.trace
  | none => by
    exact .pure ⟨rfl, .refl _⟩
  | some e => by
    exact Expr.number_recounts "" e

theorem evaluateDie_recounts : (d : Die Expr) →
    (evaluateDie limits d).Ensures (fun _ => True) fun die =>
      Recounts d.gap? d.texts.text (die.map Traced.trace).text
  | .numbered sides => by
    refine (Expr.number_recounts "" sides).bind fun t ht => .bind (.of_true _) fun _ _ => .pure ?_
    exact ⟨ht.gapless, (Annotated.refl dieWord).append ht.annotated⟩
  | .custom [] => by
    trivial
  | .custom (face :: faces) => by
    refine (Expr.number_recounts "" face).bind fun t ht => ?_
    refine (evaluateItems_recounts faces).bind fun ts hts => .pure ?_
    have hall := RecountsAll.cons ht hts
    exact ⟨hall.gapless, (Annotated.refl dieWord).append (.braces hall.annotated)⟩

theorem evaluateCondition_recounts : (c : Condition Expr) →
    (evaluateCondition limits c).Ensures (fun _ => True) fun c' =>
      Recounts c.gap? c.texts.text (c'.map Traced.trace).text
  | ⟨comparison, target⟩ => by
    refine (Expr.number_recounts "" target).bind fun t ht => .pure ?_
    exact ⟨ht.gapless, (Annotated.refl comparison.text).append ht.annotated⟩

theorem evaluateModifier_recounts : (m : Modifier Expr) →
    (evaluateModifier limits m).Ensures (fun _ => True) fun m' =>
      Recounts m.gap? m.texts.text (m'.map Traced.trace).text
  | .select selection count => by
    refine (Expr.number_recounts "" count).bind fun t ht => .pure ?_
    exact ⟨ht.gapless, (Annotated.refl selection.word.text).append ht.annotated⟩
  | .filter keep c => by
    refine (evaluateCondition_recounts c).bind fun c' hc => .pure ⟨hc.gapless, ?_⟩
    cases keep with
    | true => exact (Annotated.refl ModifierWord.keepWhere.text).append hc.annotated
    | false => exact (Annotated.refl ModifierWord.dropWhere.text).append hc.annotated
  | .reroll untilClear c => by
    refine (evaluateCondition_recounts c).bind fun c' hc => .pure ⟨hc.gapless, ?_⟩
    cases untilClear with
    | true => exact ((Annotated.refl rerollWord).append hc.annotated).append (.refl "!")
    | false => exact (Annotated.refl rerollWord).append hc.annotated
  | .explode none => by
    exact .pure ⟨rfl, .refl _⟩
  | .explode (some c) => by
    refine (evaluateCondition_recounts c).bind fun c' hc => .pure ⟨hc.gapless, ?_⟩
    exact (Annotated.refl "!").append hc.annotated

theorem modify_recounts : (ms : List (Modifier Expr)) → (die : Die Int) →
    (dice : List ThrownDie) → (modify limits ms die dice).Ensures (fun _ => True) fun r =>
      Recounts (modifiersGap? ms) (String.join ((modifierTexts ms).map Modifier.text))
        (String.join (r.2.map Modifier.text))
  | [], _, _ => by
    exact .pure ⟨rfl, .refl _⟩
  | m :: ms, die, dice => by
    refine (evaluateModifier_recounts m).bind fun m' hm => .bind (.of_true _) fun dice _ => ?_
    refine (modify_recounts ms die dice).bind fun r hr => .pure ⟨?_, ?_⟩
    · simp [modifiersGap?, hm.gapless, hr.gapless]
    · rw [modifierTexts, List.map_cons, List.map_cons, String.join_cons, String.join_cons]
      exact hm.annotated.append hr.annotated

theorem evaluateArguments_recounts (function : String) : (es : List Expr) → (ks : List Kind) →
    (hks : es.length = ks.length) → (evaluateArguments limits function es ks hks).Ensures
      (fun _ => True) fun r => RecountsAll es r.2
  | [], [], _ => by
    exact .pure .nil
  | e :: es, .scalar :: ks, hks => by
    refine (Expr.number_recounts function e).bind fun t ht => ?_
    exact (evaluateArguments_recounts function es ks _).bind fun r hr => .pure (.cons ht hr)
  | e :: es, .list :: ks, hks => by
    refine (Expr.evaluate_recounts e).bind fun t ht => ?_
    refine (Eval.ensures_liftM fun _ h => asList_eq_ok h).bind fun elements helements => ?_
    obtain rfl := helements
    exact (evaluateArguments_recounts function es ks _).bind fun r hr => .pure (.cons ht hr)

end

theorem Roll.evaluate_recounts (roll : Roll) :
    (roll.evaluate limits).Ensures (fun _ => True) fun t =>
      Recounts roll.expr.gap? roll.expr.text t.trace := by
  unfold evaluate
  split
  · exact (roll.expr.number_recounts "").bind fun t ht => .pure ht
  · exact roll.expr.evaluate_recounts

/-! ## Runs -/

/-- The trace is the expression in canonical notation with records put into it. Without them it is
that notation again, if nothing in there looks like the start of a record. -/
structure Expr.ToldBy (e : Expr) (trace : String) : Prop where
  write_eq : e.write = .ok e.text
  annotated : Annotated trace e.text
  withoutRecords_eq : ¬ [' ', '['] <:+: e.text.toList → withoutRecords trace = e.text

theorem Recounts.toldBy {e : Expr} {trace : String} (h : Recounts e.gap? e.text trace) :
    e.ToldBy trace :=
  ⟨Expr.write_of_gap? h.gapless, h.annotated, h.annotated.withoutRecords_eq⟩

/-- Nothing that is parsed is written with what looks like the start of a record. -/
theorem Roll.not_record_of_parse {text : String} {parsed : Roll}
    (h : parse limits text = .ok parsed) : ¬ [' ', '['] <:+: parsed.expr.text.toList := by
  obtain ⟨ls, _, hrenders, _⟩ := exists_renders h
  have hbracket : '[' ∉ parsed.expr.text.toList := hrenders.notMem (by decide) fun _ hl =>
    hl.plain.notMem (by decide) (by decide) (by rintro ⟨⟩ <;> decide)
  exact fun hrecord => hbracket (hrecord.subset (by simp))

/-- The trace of a run tells of the expression, and taking the records out of it gives back the
canonical notation of all that is parsed. -/
theorem Roll.run_withoutRecords (limits : Limits) {σ : Type} (next? : σ → Option (Nat × σ)) :
    (∀ (e : Expr) (t : Traced Value) (source rest : σ),
      (e.evaluate limits).run next? source = (.value t, rest) → e.ToldBy t.trace) ∧
    (∀ (e : Expr) (function : String) (t : Traced Int) (source rest : σ),
      (e.number limits function).run next? source = (.value t, rest) → e.ToldBy t.trace) ∧
    (∀ (roll : Roll) (t : Traced Value) (source rest : σ),
      (roll.evaluate limits).run next? source = (.value t, rest) → roll.expr.ToldBy t.trace) ∧
    ∀ (text : String) (parsed : Roll), parse limits text = .ok parsed →
      ¬ [' ', '['] <:+: parsed.expr.text.toList := by
  refine ⟨fun e t _ _ hrun => ?_, fun e function t _ _ hrun => ?_, fun roll t _ _ hrun => ?_,
    fun text parsed hparse => not_record_of_parse hparse⟩
  · exact (e.evaluate_recounts.of_run hrun).toldBy
  · exact ((e.number_recounts function).of_run hrun).toldBy
  · exact (roll.evaluate_recounts.of_run hrun).toldBy

/-- Dice that count dice. -/
theorem Roll.run_withoutRecords_nested : ∃ roll t rest,
    (Roll.evaluate {} roll).run Source.next? (.script [1, 2, 3]) = (.value t, rest) ∧
      t.trace = "(d4 [2])d6 [3, 4]" ∧ withoutRecords t.trace = "(d4)d6" := by
  let count : Expr := .paren (.die (.numbered (.int 4)))
  let roll : Roll := ⟨.list, .dice (some count) (.numbered (.int 6)) []⟩
  have hrun : (roll.evaluate {}).run Source.next? (.script [1, 2, 3]) =
      (.value ⟨.list [⟨3, ""⟩, ⟨4, ""⟩], "(d4 [2])d6 [3, 4]"⟩, .script []) := rfl
  have htold := (Roll.run_withoutRecords {} Source.next?).2.2.1 roll _ _ _ hrun
  exact ⟨roll, _, _, hrun, rfl, htold.withoutRecords_eq (by decide +kernel)⟩

/-- A call that is repeated no times is written but not made, so that its name may be anything. -/
theorem Expr.run_withoutRecords_ne : ∃ e t rest,
    (Expr.evaluate {} e).run Source.next? (.script []) = (.value t, rest) ∧
      e.write = .ok "0#x [y]()" ∧ withoutRecords t.trace = "0#x()" ∧
      e.write ≠ .ok (withoutRecords t.trace) :=
  ⟨.repeated (.int 0) (.call "x [y]" []), ⟨.list [], "0#x [y]()"⟩, _, rfl, rfl, rfl, by
    rintro ⟨⟩⟩

end DiceLang
