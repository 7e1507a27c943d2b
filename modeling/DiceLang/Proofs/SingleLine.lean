import DiceLang.Proofs.Annotation
import DiceLang.Proofs.Parts
import DiceLang.Proofs.Results
import DiceLang.Proofs.RoundTrip

/-!
# Outcomes on one line

No text in the outcome of a roll has a line break: not the expression, as no lexeme has one; not the
trace, which adds records of dice to it; and not the labels, which are traces and parts of records.

* `Written.oneLine_dice` and the like: a form is on one line if its parts are;
* `Expr.evaluate_oneLine`, `Expr.number_oneLine`: an evaluation;
* `roll_oneLine`: a roll from beginning to end.
-/

namespace DiceLang

open Chance

/-- There is no line break in the text. -/
def OneLine (text : String) : Prop := '\n' ∉ text.toList

instance : DecidablePred OneLine := fun _ => inferInstanceAs (Decidable (¬ _))

theorem oneLine_empty : OneLine "" := by decide

variable {limits : Limits}

@[simp] theorem oneLine_append {s t : String} : OneLine (s ++ t) ↔ OneLine s ∧ OneLine t := by
  simp [OneLine]

@[simp] theorem oneLine_repr (n : Int) : OneLine n.repr :=
  Text.notMem_repr (by decide) (by decide) n

theorem oneLine_intercalate {sep : String} (hsep : OneLine sep) {parts : List String} :
    OneLine (sep.intercalate parts) ↔ ∀ p ∈ parts, OneLine p := by
  induction parts with
  | nil => simp [OneLine]
  | cons p parts ih =>
    cases parts with
    | nil => simp
    | cons p' parts =>
      rw [String.intercalate_cons_cons, oneLine_append, oneLine_append, ih,
        List.forall_mem_cons (a := p)]
      simp [hsep]

/-! ## Forms, given the texts of their parts -/

namespace Written

theorem oneLine_commas {parts : List String} : OneLine (commas parts) ↔ ∀ p ∈ parts, OneLine p :=
  oneLine_intercalate (by decide)

theorem oneLine_parens {inner : String} : OneLine (parens inner) ↔ OneLine inner := by
  have hopen : OneLine "(" := by decide
  have hclose : OneLine ")" := by decide
  simp [parens, hopen, hclose]

theorem oneLine_braces {items : List String} : OneLine (braces items) ↔ ∀ p ∈ items, OneLine p := by
  have hopen : OneLine "\x7b" := by decide
  have hclose : OneLine "\x7d" := by decide
  simp [braces, hopen, hclose, oneLine_commas]

theorem oneLine_binary {op : Operator} {left right : String} :
    OneLine (binary op left right) ↔ OneLine left ∧ OneLine right := by
  have hop : OneLine op.text := by cases op <;> decide
  have hblank : OneLine " " := by decide
  cases op <;> simp [binary, hop, hblank]

theorem oneLine_negate {inner : String} : OneLine (negate inner) ↔ OneLine inner := by
  have hminus : OneLine "-" := by decide
  simp [negate, hminus]

theorem oneLine_call {function : String} {args : List String} :
    OneLine (call function args) ↔ OneLine function ∧ ∀ p ∈ args, OneLine p := by
  simp [call, oneLine_parens, oneLine_commas]

theorem oneLine_repeated {count inner : String} :
    OneLine (repeated count inner) ↔ OneLine count ∧ OneLine inner := by
  have hhash : OneLine "#" := by decide
  simp [repeated, hhash]

end Written

theorem Die.oneLine_text {d : Die String} : OneLine d.text ↔ ∀ p ∈ d.parts, OneLine p := by
  have hword : OneLine dieWord := by decide
  cases d <;> simp [text, parts, hword, Written.oneLine_braces]

theorem Condition.oneLine_text {c : Condition String} : OneLine c.text ↔ OneLine c.target := by
  have hcomparison : OneLine c.comparison.text := by cases c.comparison <;> decide
  simp [text, hcomparison]

theorem Modifier.oneLine_text {m : Modifier String} :
    OneLine m.text ↔ ∀ p ∈ m.parts, OneLine p := by
  have hword : ∀ word : ModifierWord, OneLine word.text := by rintro ⟨⟩ <;> decide
  have hreroll : OneLine rerollWord := by decide
  have hbang : OneLine "!" := by decide
  cases m with
  | select s count => simp [text, parts, hword]
  | filter keep c => cases keep <;> simp [text, parts, hword, Condition.oneLine_text]
  | reroll untilClear c =>
    cases untilClear <;> simp [text, parts, hreroll, hbang, Condition.oneLine_text]
  | explode c => cases c <;> simp [text, parts, hbang, Condition.oneLine_text]

theorem Written.oneLine_dice {count : String} {d : Die String} {ms : List (Modifier String)} :
    OneLine (dice count d ms) ↔ OneLine count ∧ OneLine d.text ∧ ∀ m ∈ ms, OneLine m.text := by
  have hjoin : OneLine (String.join (ms.map Modifier.text)) ↔ ∀ m ∈ ms, OneLine m.text := by
    induction ms with
    | nil => simp [OneLine]
    | cons m ms ih => simp [ih]
  simp [dice, hjoin, and_assoc]

theorem ThrownDie.oneLine_fragment (d : ThrownDie) : OneLine d.fragment :=
  d.notMem_fragment (by decide) (by decide) (by decide) (by decide) (by decide)

theorem oneLine_record {fragments : List String} (h : ∀ p ∈ fragments, OneLine p) :
    OneLine (record fragments) := by
  have hopen : OneLine " [" := by decide
  have hclose : OneLine "]" := by decide
  simp only [record, oneLine_append, Written.oneLine_commas]
  exact ⟨⟨hopen, h⟩, hclose⟩

/-! ## Steps of an evaluation -/

def Value.labels : Value → List String
  | .scalar _ => []
  | .list elements => elements.map Element.label

/-- No label of the value has a line break. -/
def Value.LabelsOneLine (v : Value) : Prop := ∀ l ∈ v.labels, OneLine l

@[simp] theorem Value.labelsOneLine_scalar (n : Int) : (scalar n).LabelsOneLine := by
  simp [LabelsOneLine, labels]

@[simp] theorem Value.labelsOneLine_list {elements : List Element} :
    (list elements).LabelsOneLine ↔ ∀ x ∈ elements, OneLine x.label := by
  simp [LabelsOneLine, labels]

/-- There is no line break in the trace, and none in the labels. -/
structure Traced.IsOneLine (t : Traced Value) : Prop where
  trace : OneLine t.trace
  labels : t.value.LabelsOneLine

theorem Traced.oneLine_element {t : Traced Int} (h : OneLine t.trace) :
    OneLine t.element.label := by
  unfold element
  split
  · exact oneLine_empty
  · exact h

theorem Value.labelsOneLine_passed : Value.Passed limits Value.LabelsOneLine where
  checked _ := labelsOneLine_scalar _
  part hsub h := labelsOneLine_list.mpr fun x hx => labelsOneLine_list.mp h x (hsub hx)
  range _ _ := labelsOneLine_list.mpr fun x hx => by
    obtain ⟨i, _, rfl⟩ := List.mem_map.mp hx
    exact oneLine_empty

theorem keptElements_oneLine (dice : List ThrownDie) :
    (Value.list (keptElements dice)).LabelsOneLine :=
  Value.labelsOneLine_list.mpr fun x hx => by
    obtain ⟨d, _, rfl⟩ := List.mem_map.mp hx
    show OneLine d.label
    unfold ThrownDie.label
    split
    · exact oneLine_empty
    · exact d.oneLine_fragment

theorem traced_oneLine {x : Except EvalError Int} {trace : String} (h : OneLine trace) :
    (liftM (do return (⟨← x, trace⟩ : Traced Int)) : Eval (Traced Int)).Ensures (fun _ => True)
      fun t => OneLine t.trace :=
  Eval.ensures_liftM fun t ht => by
    rw [(traced_eq_ok ht).2]
    exact h

theorem throwOne_oneLine {die : Die (Traced Int)} (h : OneLine (die.map Traced.trace).text) :
    (throwOne die).Ensures (fun _ => True) fun t => OneLine t.trace :=
  .bind (.of_true _) fun face _ =>
    .pure (oneLine_append.mpr ⟨h, oneLine_record (by simp)⟩)

theorem throwSet_oneLine {count : Eval (Traced Int)} {die : Eval (Die (Traced Int))}
    {modify : Die Int → List ThrownDie → Eval (List ThrownDie × List (Modifier String))}
    (hcount : count.Ensures (fun _ => True) fun t => OneLine t.trace)
    (hdie : die.Ensures (fun _ => True) fun d => OneLine (d.map Traced.trace).text)
    (hmodify : ∀ faces dice, (modify faces dice).Ensures (fun _ => True) fun r =>
      ∀ m ∈ r.2, OneLine m.text) :
    (throwSet limits count die modify).Ensures (fun _ => True) fun t => OneLine t.trace := by
  refine hcount.bind fun count hcount => .bind (.of_true _) fun _ _ => ?_
  refine hdie.bind fun die hdie => .bind (.of_true _) fun thrown _ => ?_
  refine (hmodify _ thrown).bind fun r hr => .pure (oneLine_append.mpr ⟨?_, ?_⟩)
  · exact Written.oneLine_dice.mpr ⟨hcount, hdie, hr⟩
  · exact oneLine_record (List.forall_mem_map.mpr fun d _ => d.oneLine_fragment)

theorem callFunction_oneLine {name : String} {given : Nat}
    {arguments : (ks : List Kind) → given = ks.length → Eval (Arguments ks × List String)}
    (h : ∀ ks hks, (arguments ks hks).Ensures (fun _ => True) fun r =>
      Arguments.All Value.LabelsOneLine ks r.1 ∧ ∀ t ∈ r.2, OneLine t) :
    (callFunction limits name given arguments).Ensures (fun _ => True) Traced.IsOneLine := by
  refine (Value.labelsOneLine_passed.callFunction (q := fun ts => ∀ t ∈ ts, OneLine t) h).imp ?_
  rintro t ⟨hlabels, f, traces, htrace, htraces⟩
  have hname : OneLine f.name := by cases f <;> decide
  exact ⟨htrace ▸ Written.oneLine_call.mpr ⟨hname, htraces⟩, hlabels⟩

theorem repeatItem_oneLine (limit : Nat) {item : Eval (List Element)}
    (h : item.Ensures (fun _ => True) fun elements => ∀ x ∈ elements, OneLine x.label)
    (count : Nat) {elements : List Element} (helements : ∀ x ∈ elements, OneLine x.label) :
    (repeatItem limit item count elements).Ensures (fun _ => True) fun elements =>
      ∀ x ∈ elements, OneLine x.label := by
  induction count generalizing elements with
  | zero => exact .pure helements
  | succ count ih =>
    refine h.bind fun more hmore => ?_
    exact .ite (fun _ => trivial) fun _ => ih (List.forall_mem_append.mpr ⟨helements, hmore⟩)

theorem repeatValue_oneLine {count : Eval (Traced Int)} {item : Eval (List Element)} {inner : Expr}
    (hcount : count.Ensures (fun _ => True) fun t => OneLine t.trace)
    (hitem : item.Ensures (fun _ => True) fun elements => ∀ x ∈ elements, OneLine x.label)
    (hinner : OneLine inner.text) :
    (repeatValue limits count item inner).Ensures (fun _ => True) fun t =>
      (t.map Value.list).IsOneLine := by
  refine hcount.bind fun count hcount => .ite (fun _ => trivial) fun _ =>
    .ite (fun _ => trivial) fun _ => ?_
  refine (repeatItem_oneLine _ hitem _ (by simp)).bind fun elements helements => ?_
  unfold Expr.write
  cases inner.gap? with
  | none =>
    exact .pure ⟨Written.oneLine_repeated.mpr ⟨hcount, hinner⟩,
      Value.labelsOneLine_list.mpr helements⟩
  | some g => trivial

theorem itemElements_oneLine {item : Expr} {value : Eval (Traced Value)}
    {number : Eval (Traced Int)} (hvalue : value.Ensures (fun _ => True) Traced.IsOneLine)
    (hnumber : number.Ensures (fun _ => True) fun t => OneLine t.trace) :
    (itemElements item value number).Ensures (fun _ => True) fun elements =>
      ∀ x ∈ elements, OneLine x.label := by
  refine .ite (fun _ => hvalue.map fun t ht => ?_) fun _ => hnumber.map fun t ht => ?_
  · obtain ⟨v, trace⟩ := t
    cases v with
    | scalar n => exact List.forall_mem_singleton.mpr (Traced.oneLine_element ht.trace)
    | list elements => exact Value.labelsOneLine_list.mp ht.labels
  · exact List.forall_mem_singleton.mpr (Traced.oneLine_element ht)

/-! ## Expressions -/

-- One case for each equation of the evaluation. The text of the expression is on one line, and with
-- it the texts of its parts; only a repetition takes over a text that is not evaluated.
mutual

/-- There is no line break in what an expression on one line comes to. -/
theorem Expr.evaluate_oneLine : (e : Expr) → OneLine e.text →
    (e.evaluate limits).Ensures (fun _ => True) Traced.IsOneLine
  | .int n, _ => by
    exact (traced_oneLine (oneLine_repr n)).bind fun t ht =>
      .pure ⟨ht, Value.labelsOneLine_scalar _⟩
  | .paren inner, h => by
    refine (Expr.evaluate_oneLine inner (Written.oneLine_parens.mp h)).bind fun t ht => .pure ?_
    exact ⟨Written.oneLine_parens.mpr ht.trace, ht.labels⟩
  | .binary op left right, h => by
    obtain ⟨hleft, hright⟩ := Written.oneLine_binary.mp h
    refine (Expr.number_oneLine "" left hleft).bind fun l hl =>
      (Expr.number_oneLine "" right hright).bind fun r hr => ?_
    exact (traced_oneLine (Written.oneLine_binary.mpr ⟨hl, hr⟩)).bind fun t ht =>
      .pure ⟨ht, Value.labelsOneLine_scalar _⟩
  | .negate inner, h => by
    refine (Expr.number_oneLine "" inner (Written.oneLine_negate.mp h)).bind fun t ht => ?_
    exact (traced_oneLine (Written.oneLine_negate.mpr ht)).bind fun t ht =>
      .pure ⟨ht, Value.labelsOneLine_scalar _⟩
  | .die d, h => by
    exact (evaluateDie_oneLine d h).bind fun d hd => (throwOne_oneLine hd).bind fun t ht =>
      .pure ⟨ht, Value.labelsOneLine_scalar _⟩
  | .dice count d ms, h => by
    obtain ⟨hcount, hd, hms⟩ := Written.oneLine_dice.mp h
    refine (throwSet_oneLine (evaluateCount_oneLine count hcount) (evaluateDie_oneLine d hd)
      (modify_oneLine ms hms)).bind fun t ht => .pure ⟨ht, keptElements_oneLine _⟩
  | .call name args, h => by
    exact callFunction_oneLine fun ks hks =>
      evaluateArguments_oneLine name args ks hks (Written.oneLine_call.mp h).2
  | .list items, h => by
    refine (evaluateItems_oneLine items (Written.oneLine_braces.mp h)).bind fun ts hts =>
      .pure ⟨h, Value.labelsOneLine_list.mpr ?_⟩
    exact List.forall_mem_map.mpr fun t ht => Traced.oneLine_element (hts t ht)
  | .repeated count inner, h => by
    obtain ⟨hcount, hinner⟩ := Written.oneLine_repeated.mp h
    refine (repeatValue_oneLine (Expr.number_oneLine "" count hcount) ?_ hinner).bind
      fun t ht => .pure ht
    exact itemElements_oneLine (Expr.evaluate_oneLine inner hinner)
      (Expr.number_oneLine "" inner hinner)
  | .gap g, _ => by
    trivial

theorem Expr.number_oneLine (function : String) : (e : Expr) → OneLine e.text →
    (e.number limits function).Ensures (fun _ => True) fun t => OneLine t.trace
  | .int n, _ => by
    exact traced_oneLine (oneLine_repr n)
  | .paren inner, h => by
    refine (Expr.number_oneLine function inner (Written.oneLine_parens.mp h)).bind
      fun t ht => .pure ?_
    exact Written.oneLine_parens.mpr ht
  | .binary op left right, h => by
    obtain ⟨hleft, hright⟩ := Written.oneLine_binary.mp h
    refine (Expr.number_oneLine "" left hleft).bind fun l hl =>
      (Expr.number_oneLine "" right hright).bind fun r hr => ?_
    exact traced_oneLine (Written.oneLine_binary.mpr ⟨hl, hr⟩)
  | .negate inner, h => by
    refine (Expr.number_oneLine "" inner (Written.oneLine_negate.mp h)).bind fun t ht => ?_
    exact traced_oneLine (Written.oneLine_negate.mpr ht)
  | .die d, h => by
    exact (evaluateDie_oneLine d h).bind fun d hd => throwOne_oneLine hd
  | .dice count d ms, h => by
    obtain ⟨hcount, hd, hms⟩ := Written.oneLine_dice.mp h
    refine (throwSet_oneLine (evaluateCount_oneLine count hcount) (evaluateDie_oneLine d hd)
      (modify_oneLine ms hms)).bind fun t ht => .bind (.of_true _) fun n _ => .pure ht
  | .call name args, h => by
    refine (callFunction_oneLine fun ks hks =>
      evaluateArguments_oneLine name args ks hks (Written.oneLine_call.mp h).2).bind fun t ht => ?_
    refine Eval.ensures_liftM fun n hn => ?_
    obtain rfl := asNumber_eq_ok hn
    exact ht.trace
  | .list items, _ => by
    exact .bind (.of_true _) fun _ _ => trivial
  | .repeated count inner, _ => by
    exact .bind (.of_true _) fun _ _ => trivial
  | .gap g, _ => by
    trivial

theorem evaluateItems_oneLine : (es : List Expr) → (∀ t ∈ exprTexts es, OneLine t) →
    (evaluateItems limits es).Ensures (fun _ => True) fun ts => ∀ t ∈ ts, OneLine t.trace
  | [], _ => by
    exact .pure (List.forall_mem_nil _)
  | e :: es, h => by
    obtain ⟨he, hes⟩ := List.forall_mem_cons.mp h
    refine (Expr.number_oneLine "" e he).bind fun t ht => ?_
    exact (evaluateItems_oneLine es hes).bind fun ts hts =>
      .pure (List.forall_mem_cons.mpr ⟨ht, hts⟩)

theorem evaluateCount_oneLine : (count : Option Expr) → OneLine (countText count) →
    (evaluateCount limits count).Ensures (fun _ => True) fun t => OneLine t.trace
  | none, h => by
    exact .pure h
  | some e, h => by
    exact Expr.number_oneLine "" e h

theorem evaluateDie_oneLine : (d : Die Expr) → OneLine d.texts.text →
    (evaluateDie limits d).Ensures (fun _ => True) fun d => OneLine (d.map Traced.trace).text
  | .numbered sides, h => by
    have hsides := Die.oneLine_text.mp h sides.text List.mem_cons_self
    refine (Expr.number_oneLine "" sides hsides).bind fun t ht => .bind (.of_true _) fun _ _ => ?_
    exact .pure (Die.oneLine_text.mpr (List.forall_mem_singleton.mpr ht))
  | .custom [], _ => by
    trivial
  | .custom (face :: faces), h => by
    obtain ⟨hface, hfaces⟩ := List.forall_mem_cons.mp (Die.oneLine_text.mp h)
    refine (Expr.number_oneLine "" face hface).bind fun t ht => ?_
    refine (evaluateItems_oneLine faces hfaces).bind fun ts hts => .pure ?_
    exact Die.oneLine_text.mpr (List.forall_mem_cons.mpr ⟨ht, List.forall_mem_map.mpr hts⟩)

theorem evaluateCondition_oneLine : (c : Condition Expr) → OneLine c.texts.target →
    (evaluateCondition limits c).Ensures (fun _ => True) fun c => OneLine c.target.trace
  | ⟨comparison, target⟩, h => by
    exact (Expr.number_oneLine "" target h).bind fun t ht => .pure ht

theorem evaluateModifier_oneLine : (m : Modifier Expr) → OneLine m.texts.text →
    (evaluateModifier limits m).Ensures (fun _ => True) fun m => OneLine (m.map Traced.trace).text
  | .select selection count, h => by
    have hcount := Modifier.oneLine_text.mp h count.text List.mem_cons_self
    refine (Expr.number_oneLine "" count hcount).bind fun t ht => .pure ?_
    exact Modifier.oneLine_text.mpr (List.forall_mem_singleton.mpr ht)
  | .filter keep c, h => by
    have hc := Modifier.oneLine_text.mp h c.texts.target List.mem_cons_self
    refine (evaluateCondition_oneLine c hc).bind fun c' hc => .pure ?_
    exact Modifier.oneLine_text.mpr (List.forall_mem_singleton.mpr hc)
  | .reroll untilClear c, h => by
    have hc := Modifier.oneLine_text.mp h c.texts.target List.mem_cons_self
    refine (evaluateCondition_oneLine c hc).bind fun c' hc => .pure ?_
    exact Modifier.oneLine_text.mpr (List.forall_mem_singleton.mpr hc)
  | .explode none, h => by
    exact .pure h
  | .explode (some c), h => by
    have hc := Modifier.oneLine_text.mp h c.texts.target List.mem_cons_self
    refine (evaluateCondition_oneLine c hc).bind fun c' hc => .pure ?_
    exact Modifier.oneLine_text.mpr (List.forall_mem_singleton.mpr hc)

theorem modify_oneLine : (ms : List (Modifier Expr)) → (∀ m ∈ modifierTexts ms, OneLine m.text) →
    (die : Die Int) → (dice : List ThrownDie) →
    (modify limits ms die dice).Ensures (fun _ => True) fun r => ∀ m ∈ r.2, OneLine m.text
  | [], _, _, _ => by
    exact .pure (List.forall_mem_nil _)
  | m :: ms, h, die, dice => by
    obtain ⟨hm, hms⟩ := List.forall_mem_cons.mp h
    refine (evaluateModifier_oneLine m hm).bind fun m' hm => .bind (.of_true _) fun dice _ => ?_
    exact (modify_oneLine ms hms die dice).bind fun r hr =>
      .pure (List.forall_mem_cons.mpr ⟨hm, hr⟩)

theorem evaluateArguments_oneLine (function : String) : (es : List Expr) → (ks : List Kind) →
    (hks : es.length = ks.length) → (∀ t ∈ exprTexts es, OneLine t) →
    (evaluateArguments limits function es ks hks).Ensures (fun _ => True) fun r =>
      Arguments.All Value.LabelsOneLine ks r.1 ∧ ∀ t ∈ r.2, OneLine t
  | [], [], _, _ => by
    exact .pure ⟨trivial, List.forall_mem_nil _⟩
  | e :: es, .scalar :: ks, hks, h => by
    obtain ⟨he, hes⟩ := List.forall_mem_cons.mp h
    refine (Expr.number_oneLine function e he).bind fun t ht => ?_
    refine (evaluateArguments_oneLine function es ks _ hes).bind fun r hr => .pure ?_
    exact ⟨⟨Value.labelsOneLine_scalar _, hr.1⟩, List.forall_mem_cons.mpr ⟨ht, hr.2⟩⟩
  | e :: es, .list :: ks, hks, h => by
    obtain ⟨he, hes⟩ := List.forall_mem_cons.mp h
    refine (Expr.evaluate_oneLine e he).bind fun t ht => ?_
    refine (Eval.ensures_liftM fun _ h => asList_eq_ok h).bind fun elements helements => ?_
    obtain rfl := helements
    refine (evaluateArguments_oneLine function es ks _ hes).bind fun r hr => .pure ?_
    exact ⟨⟨ht.labels, hr.1⟩, List.forall_mem_cons.mpr ⟨ht.trace, hr.2⟩⟩

end

/-! ## Rolls -/

theorem Roll.evaluate_oneLine {roll : Roll} (h : OneLine roll.expr.text) :
    (roll.evaluate limits).Ensures (fun _ => True) Traced.IsOneLine := by
  unfold evaluate
  split
  · exact (roll.expr.number_oneLine "" h).bind fun t ht =>
      .pure ⟨ht, Value.labelsOneLine_scalar _⟩
  · exact roll.expr.evaluate_oneLine h

/-- What is read is written on one line. -/
theorem Roll.oneLine_of_parse {text : String} {parsed : Roll}
    (h : parse limits text = .ok parsed) : OneLine parsed.expr.text := by
  obtain ⟨ls, _, hrenders, _⟩ := exists_renders h
  exact hrenders.notMem (by decide) fun _ hl =>
    hl.plain.notMem (by decide) (by decide) (by rintro ⟨⟩ <;> decide)

/-- There is no line break in the trace, the expression and the labels. The description may be any
text. -/
structure Outcome.IsOneLine (o : Outcome) : Prop where
  trace : OneLine o.trace
  expression : OneLine o.expression
  labels : o.value.LabelsOneLine

theorem roll_oneLine (settings : Settings) (text description : Option String) :
    (roll settings text description).Ensures (fun _ => True) Outcome.IsOneLine := by
  unfold roll
  cases hparse : Roll.parse settings.limits (requested settings text) with
  | error e => trivial
  | ok parsed =>
    have hexpr := Roll.oneLine_of_parse hparse
    refine ((Roll.evaluate_oneLine hexpr).adapt fun _ _ => trivial).bind fun t ht => .pure ?_
    exact ⟨ht.trace, hexpr, ht.labels⟩

end DiceLang
