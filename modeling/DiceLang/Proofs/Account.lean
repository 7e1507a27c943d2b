import DiceLang.Proofs.Legible
import DiceLang.Proofs.Parts
import DiceLang.Proofs.Trace
import DiceLang.Proofs.Yields

/-!
# A trace accounts for the value

Two evaluations of one expression that have the same trace have the same value, whatever was drawn
for them: the trace has the records of all dice, and what they do not tell is the expression's.
Lists and repetitions are left out, for their traces are their texts.

* `Expr.evaluate_legible`, `Expr.number_legible`: the trace of what an evaluation may come to;
* `Expr.run_value_eq_of_trace_eq`: the traces of two runs.
-/

namespace DiceLang

open Chance

variable {limits : Limits} {α β γ : Type}

/-! ## One computation after another -/

namespace Legible

section

variable {x : Eval α} {y : Eval β} {s : α → String} {t : β → String}

/-- What comes after draws nothing, and puts other texts around what is told, if at all. -/
theorem andThen (h : Legible x.Yields s) {f : α → Eval β} {text : β → String} (left right : String)
    (htext : ∀ a b, (f a).Yields b → text b = left ++ (s a ++ right))
    (hunique : ∀ a b b', (f a).Yields b → (f a).Yields b' → b = b') :
    Legible (x >>= f).Yields text := by
  intro b hb b' hb' u v heq
  obtain ⟨a, ha, hb⟩ := yields_bind.mp hb
  obtain ⟨a', ha', hb'⟩ := yields_bind.mp hb'
  simp only [htext a b hb, htext a' b' hb', String.append_assoc, String.append_right_inj] at heq
  obtain ⟨rfl, hrest⟩ := h ha ha' heq
  exact ⟨hunique a b b' hb hb', (String.append_right_inj _).mp hrest⟩

theorem andThen_liftM (h : Legible x.Yields s) {f : α → Except EvalError β} {text : β → String}
    (left right : String) (htext : ∀ a b, f a = .ok b → text b = left ++ (s a ++ right)) :
    Legible (x >>= fun a => liftM (f a) : Eval β).Yields text :=
  h.andThen left right (fun a b hb => htext a b (Eval.yields_liftM.mp hb)) fun _ _ _ hb hb' =>
    Except.ok.inj ((Eval.yields_liftM.mp hb).symm.trans (Eval.yields_liftM.mp hb'))

theorem image (h : Legible x.Yields s) (f : α → β) {text : β → String} (left right : String)
    (htext : ∀ a, text (f a) = left ++ (s a ++ right)) : Legible (f <$> x).Yields text :=
  h.andThen_liftM (f := fun a => .ok (f a)) left right fun a _ hb => Except.ok.inj hb ▸ htext a

/-- Two computations, of which the second does not depend on the first. -/
theorem both_liftM (hx : Legible x.Yields s) (hy : Legible y.Yields t)
    {f : α → β → Except EvalError γ} {text : γ → String} (left mid right : String)
    (htext : ∀ a b c, f a b = .ok c → text c = left ++ (s a ++ (mid ++ (t b ++ right)))) :
    Legible (do let a ← x; let b ← y; liftM (f a b) : Eval γ).Yields text := by
  intro c hc c' hc' u v heq
  simp only [yields_bind, Eval.yields_liftM] at hc hc'
  obtain ⟨a, ha, b, hb, hf⟩ := hc
  obtain ⟨a', ha', b', hb', hf'⟩ := hc'
  simp only [htext a b c hf, htext a' b' c' hf', String.append_assoc,
    String.append_right_inj] at heq
  obtain ⟨rfl, hnext⟩ := hx ha ha' heq
  obtain ⟨rfl, hrest⟩ := hy hb hb' ((String.append_right_inj _).mp hnext)
  exact ⟨Except.ok.inj (hf.symm.trans hf'), (String.append_right_inj _).mp hrest⟩

theorem both (hx : Legible x.Yields s) (hy : Legible y.Yields t) (f : α → β → γ)
    {text : γ → String} (left mid right : String)
    (htext : ∀ a b, text (f a b) = left ++ (s a ++ (mid ++ (t b ++ right)))) :
    Legible (do let a ← x; let b ← y; return f a b : Eval γ).Yields text :=
  hx.both_liftM (f := fun a b => .ok (f a b)) hy left mid right fun a b _ hc =>
    Except.ok.inj hc ▸ htext a b

end

section

variable {x : Eval (Traced α)}

theorem map (h : Legible x.Yields Traced.trace) (f : α → β) :
    Legible (Traced.map f <$> x).Yields Traced.trace :=
  h.image (Traced.map f) "" "" fun t => by simp [Traced.map]

theorem bind_map {y : Eval γ} {f : γ → Eval (Traced α)}
    (h : Legible (y >>= f).Yields Traced.trace) (g : α → β) :
    Legible (y >>= fun a => Traced.map g <$> f a).Yields Traced.trace := by
  rw [← map_bind]
  exact h.map g

end

end Legible

/-! ## Steps of an evaluation -/

theorem legible_pure (a : α) (text : α → String) : Legible (pure a : Eval α).Yields text :=
  .of_unique (fun _ _ ha hb => (yields_done.mp ha).trans (yields_done.mp hb).symm) text

theorem legible_failed (failure : Failure) (text : α → String) :
    Legible (.failed failure : Eval α).Yields text :=
  .of_unique (fun _ _ ha => absurd ha not_yields_failed) text

theorem legible_liftM (x : Except EvalError α) (text : α → String) :
    Legible (liftM x : Eval α).Yields text :=
  .of_unique (fun _ _ ha hb =>
    Except.ok.inj ((Eval.yields_liftM.mp ha).symm.trans (Eval.yields_liftM.mp hb))) text

/-- An operator as it stands between its operands. -/
def Operator.joint : Operator → String
  | .power => Operator.power.text
  | op => " " ++ op.text ++ " "

theorem Written.binary_eq (op : Operator) (left right : String) :
    binary op left right = left ++ (op.joint ++ right) := by
  cases op <;> simp [binary, Operator.joint, String.append_assoc]

theorem legible_combine (limits : Limits) {left right : Eval (Traced Int)} (op : Operator)
    (hleft : Legible left.Yields Traced.trace) (hright : Legible right.Yields Traced.trace) :
    Legible (do let l ← left; let r ← right; liftM (combine limits op l r) :
      Eval (Traced Int)).Yields Traced.trace :=
  hleft.both_liftM hright "" op.joint "" fun l r t ht => by
    rw [(traced_eq_ok ht).2, Written.binary_eq]
    simp

theorem legible_opposite {x : Eval (Traced Int)} (h : Legible x.Yields Traced.trace) :
    Legible (x >>= fun t => liftM (opposite limits t) : Eval (Traced Int)).Yields Traced.trace :=
  h.andThen_liftM "-" "" fun t t' ht => by
    rw [(traced_eq_ok ht).2, Written.negate]
    simp

theorem legible_throwOne {die : Eval (Die (Traced Int))}
    (h : Legible die.Yields fun d => (d.map Traced.trace).text) :
    Legible (die >>= throwOne).Yields Traced.trace := by
  intro t ht t' ht' u v heq
  simp only [throwOne, yields_bind, pure_eq, yields_done] at ht ht'
  obtain ⟨d, hd, face, -, rfl⟩ := ht
  obtain ⟨d', hd', face', -, rfl⟩ := ht'
  simp only [String.append_assoc] at heq
  obtain ⟨rfl, hrecord⟩ := h hd hd' heq
  obtain ⟨rfl, hrest⟩ := legible_face trivial trivial hrecord
  exact ⟨rfl, hrest⟩

/-- The texts of the modifiers tell where they end; the dice are told by the record. -/
theorem legible_throwSet (limits : Limits) {count : Eval (Traced Int)}
    {die : Eval (Die (Traced Int))}
    {modify : Die Int → List ThrownDie → Eval (List ThrownDie × List (Modifier String))}
    (hcount : Legible count.Yields Traced.trace)
    (hdie : Legible die.Yields fun d => (d.map Traced.trace).text)
    (hmodify : Legible
      (fun texts => ∃ faces thrown dice, (modify faces thrown).Yields (dice, texts)) fun texts =>
        String.join (texts.map Modifier.text)) :
    Legible (throwSet limits count die modify).Yields Traced.trace := by
  intro t ht t' ht' u v heq
  simp only [throwSet, yields_bind, pure_eq, yields_done] at ht ht'
  obtain ⟨c, hc, -, -, d, hd, thrown, -, ⟨dice, texts⟩, hr, rfl⟩ := ht
  obtain ⟨c', hc', -, -, d', hd', thrown', -, ⟨dice', texts'⟩, hr', rfl⟩ := ht'
  simp only [Written.dice, String.append_assoc] at heq
  obtain ⟨rfl, hdice⟩ := hcount hc hc' heq
  obtain ⟨rfl, hmodifiers⟩ := hdie hd hd' hdice
  obtain ⟨rfl, hrecord⟩ := hmodify ⟨_, _, _, hr⟩ ⟨_, _, _, hr'⟩ hmodifiers
  obtain ⟨rfl, hrest⟩ := legible_dice trivial trivial hrecord
  exact ⟨rfl, hrest⟩

theorem legible_callFunction (limits : Limits) {name : String} {given : Nat}
    {arguments : (ks : List Kind) → given = ks.length → Eval (Arguments ks × List String)}
    (h : ∀ ks hks, Legible (arguments ks hks).Yields fun r => Written.commas r.2) :
    Legible (callFunction limits name given arguments).Yields Traced.trace := by
  intro t ht t' ht' u v heq
  obtain ⟨f, hf, ht⟩ := yields_bind.mp ht
  obtain ⟨f', hf', ht'⟩ := yields_bind.mp ht'
  obtain rfl : f = f' :=
    Except.ok.inj ((Eval.yields_liftM.mp hf).symm.trans (Eval.yields_liftM.mp hf'))
  split at ht
  · rw [dif_pos ‹_›] at ht'
    simp only [yields_bind, Eval.yields_liftM, pure_eq, yields_done] at ht ht'
    obtain ⟨r, hr, result, happly, value, hcheck, rfl⟩ := ht
    obtain ⟨r', hr', result', happly', value', hcheck', rfl⟩ := ht'
    simp only [Written.call, Written.parens, String.append_assoc, String.append_right_inj] at heq
    obtain ⟨rfl, hrest⟩ := h _ _ hr hr' heq
    obtain rfl := Except.ok.inj (happly.symm.trans happly')
    obtain rfl := Except.ok.inj (hcheck.symm.trans hcheck')
    exact ⟨rfl, (String.append_right_inj _).mp hrest⟩
  · exact absurd ht not_yields_failed

theorem legible_numbered (limits : Limits) {sides : Eval (Traced Int)}
    (h : Legible sides.Yields Traced.trace) :
    Legible (do let n ← sides; liftM (checkSides limits n.value); return .numbered n :
      Eval (Die (Traced Int))).Yields fun d => (d.map Traced.trace).text := by
  have hdie : ∀ (n : Traced Int) (d : Die (Traced Int)),
      (do liftM (checkSides limits n.value); return .numbered n :
        Eval (Die (Traced Int))).Yields d → d = .numbered n := fun n d hd => by
    simp only [yields_bind, pure_eq, yields_done] at hd
    obtain ⟨-, -, rfl⟩ := hd
    rfl
  refine h.andThen dieWord "" (fun n d hd => ?_) fun n d d' hd hd' => ?_
  · rw [hdie n d hd]
    simp [Die.map, Die.text]
  · rw [hdie n d hd, hdie n d' hd']

/-- An argument and those after it. -/
theorem legible_argument {x : Eval (Traced α)} {xs : Eval (β × List String)}
    (h : Legible x.Yields Traced.trace) (hs : Legible xs.Yields fun r => Written.listed r.2) :
    Legible (do let t ← x; let (rest, traces) ← xs; return ((t.value, rest), t.trace :: traces) :
      Eval ((α × β) × List String)).Yields fun r => Written.listed r.2 :=
  h.both hs (fun t r => ((t.value, r.1), t.trace :: r.2)) ", " "" "" fun t r => by
    simp [Written.listed_cons, String.append_assoc]

theorem legible_arguments {function : String} {es : List Expr} {ks : List Kind}
    {hks : es.length = ks.length}
    (h : Legible (evaluateArguments limits function es ks hks).Yields fun r =>
      Written.listed r.2) :
    Legible (evaluateArguments limits function es ks hks).Yields fun r => Written.commas r.2 := by
  have hlength : ∀ r, (evaluateArguments limits function es ks hks).Yields r →
      r.2.length = (exprTexts es).length := fun r hr =>
    ((evaluateArguments_recounts function es ks hks).of_yields hr).annotated.length_eq
  refine legible_commas h fun r r' hr hr' => ?_
  rw [← List.length_eq_zero_iff, ← List.length_eq_zero_iff, hlength r hr, hlength r' hr']

/-! ## Expressions -/

/-- The trace of the node tells of what was drawn for it, and is not just its text. -/
def Expr.IsAccounted : Expr → Prop
  | .list _ | .repeated _ _ => False
  | _ => True

section

variable (limits : Limits)

-- One case for each form but lists and repetitions. The modifiers of a set of dice are followed on
-- any dice: which they were is not yet known where the modifiers stand in the trace.
mutual

/-- The trace of an expression's own value. -/
theorem Expr.evaluate_legible : (e : Expr) → e.Everywhere Expr.IsAccounted →
    Legible (e.evaluate limits).Yields Traced.trace
  | .int n, _ => by
    exact (legible_liftM _ _).map Value.scalar
  | .paren inner, h => by
    have hinner := Expr.evaluate_legible inner (h.part (by simp [Expr.parts]))
    exact hinner.image Traced.wrapped "(" ")" fun t => String.append_assoc
  | .binary op left right, h => by
    have hleft := Expr.number_legible "" left (h.part (by simp [Expr.parts]))
    have hright := Expr.number_legible "" right (h.part (by simp [Expr.parts]))
    have hcombined := (legible_combine limits op hleft hright).map Value.scalar
    simp only [map_bind] at hcombined
    exact hcombined
  | .negate inner, h => by
    have hinner := Expr.number_legible "" inner (h.part (by simp [Expr.parts]))
    exact (legible_opposite hinner).bind_map Value.scalar
  | .die d, h => by
    have hdie := evaluateDie_legible d fun x hx => h.part (by simpa [Expr.parts] using hx)
    exact (legible_throwOne hdie).bind_map Value.scalar
  | .dice count d ms, h => by
    have hcount := evaluateCount_legible count fun x hx => h.part (by simp [Expr.parts, hx])
    have hdie := evaluateDie_legible d fun x hx => h.part (by simp [Expr.parts, hx])
    have hmodify := modify_legible ms fun x hx => h.part (by simp_all [Expr.parts])
    have hdice := legible_throwSet limits hcount hdie hmodify
    exact hdice.map fun dice => Value.list (keptElements dice)
  | .call name args, h => by
    exact legible_callFunction limits fun ks hks => legible_arguments
      (evaluateArguments_legible name args ks hks fun x hx => h.part hx)
  | .list items, h => by
    exact h.here.elim
  | .repeated count inner, h => by
    exact h.here.elim
  | .gap g, _ => by
    exact legible_failed _ _

/-- The trace of an expression as a number. -/
theorem Expr.number_legible (function : String) : (e : Expr) → e.Everywhere Expr.IsAccounted →
    Legible (e.number limits function).Yields Traced.trace
  | .int n, _ => by
    exact legible_liftM _ _
  | .paren inner, h => by
    have hinner := Expr.number_legible function inner (h.part (by simp [Expr.parts]))
    exact hinner.image Traced.wrapped "(" ")" fun t => String.append_assoc
  | .binary op left right, h => by
    have hleft := Expr.number_legible "" left (h.part (by simp [Expr.parts]))
    have hright := Expr.number_legible "" right (h.part (by simp [Expr.parts]))
    exact legible_combine limits op hleft hright
  | .negate inner, h => by
    exact legible_opposite (Expr.number_legible "" inner (h.part (by simp [Expr.parts])))
  | .die d, h => by
    have hdie := evaluateDie_legible d fun x hx => h.part (by simpa [Expr.parts] using hx)
    exact legible_throwOne hdie
  | .dice count d ms, h => by
    have hcount := evaluateCount_legible count fun x hx => h.part (by simp [Expr.parts, hx])
    have hdie := evaluateDie_legible d fun x hx => h.part (by simp [Expr.parts, hx])
    have hmodify := modify_legible ms fun x hx => h.part (by simp_all [Expr.parts])
    refine (legible_throwSet limits hcount hdie hmodify).andThen "" "" (fun dice t ht => ?_)
      fun dice t t' ht ht' => ?_
    · simp only [yields_bind, pure_eq, yields_done] at ht
      obtain ⟨n, -, rfl⟩ := ht
      simp
    · simp only [yields_bind, Eval.yields_liftM, pure_eq, yields_done] at ht ht'
      obtain ⟨n, hn, rfl⟩ := ht
      obtain ⟨n', hn', rfl⟩ := ht'
      rw [Except.ok.inj (hn.symm.trans hn')]
  | .call name args, h => by
    have hcall : Legible (callFunction limits name args.length
        (evaluateArguments limits name args)).Yields Traced.trace :=
      legible_callFunction limits fun ks hks => legible_arguments
        (evaluateArguments_legible name args ks hks fun x hx => h.part hx)
    refine hcall.andThen_liftM "" "" fun t n hn => ?_
    obtain rfl := asNumber_eq_ok hn
    simp [Traced.map]
  | .list items, h => by
    exact h.here.elim
  | .repeated count inner, h => by
    exact h.here.elim
  | .gap g, _ => by
    exact legible_failed _ _

theorem evaluateItems_legible : (es : List Expr) → (∀ x ∈ es, x.Everywhere Expr.IsAccounted) →
    Legible (evaluateItems limits es).Yields fun ts => Written.listed (ts.map Traced.trace)
  | [], _ => by
    exact legible_pure _ _
  | e :: es, h => by
    obtain ⟨he, hes⟩ := List.forall_mem_cons.mp h
    refine (Expr.number_legible "" e he).both (evaluateItems_legible es hes) List.cons ", " "" ""
      fun t ts => ?_
    simp [Written.listed_cons, String.append_assoc]

theorem evaluateCount_legible : (count : Option Expr) →
    (∀ x ∈ count.toList, x.Everywhere Expr.IsAccounted) →
    Legible (evaluateCount limits count).Yields Traced.trace
  | none, _ => by
    exact legible_pure _ _
  | some e, h => by
    exact Expr.number_legible "" e (h e (by simp))

theorem evaluateDie_legible : (d : Die Expr) → (∀ x ∈ d.parts, x.Everywhere Expr.IsAccounted) →
    Legible (evaluateDie limits d).Yields fun d => (d.map Traced.trace).text
  | .numbered sides, h => by
    exact legible_numbered limits (Expr.number_legible "" sides (h sides (by simp [Die.parts])))
  | .custom [], _ => by
    exact legible_failed _ _
  | .custom (face :: faces), h => by
    obtain ⟨hface, hfaces⟩ := List.forall_mem_cons.mp h
    refine (Expr.number_legible "" face hface).both (evaluateItems_legible faces hfaces)
      (fun t ts => Die.custom (t :: ts)) (dieWord ++ "\x7b") "" "\x7d" fun t ts => ?_
    simp [Die.map, Die.text, Written.braces, Written.commas_cons, String.append_assoc]

theorem evaluateCondition_legible : (c : Condition Expr) → c.target.Everywhere Expr.IsAccounted →
    Legible (evaluateCondition limits c).Yields fun c => (c.map Traced.trace).text
  | ⟨comparison, target⟩, h => by
    exact (Expr.number_legible "" target h).image (Condition.mk comparison) comparison.text ""
      fun t => by simp [Condition.map, Condition.text]

theorem evaluateModifier_legible : (m : Modifier Expr) →
    (∀ x ∈ m.parts, x.Everywhere Expr.IsAccounted) →
    Legible (evaluateModifier limits m).Yields fun m => (m.map Traced.trace).text
  | .select selection count, h => by
    have hcount := Expr.number_legible "" count (h count (by simp [Modifier.parts]))
    refine hcount.image (Modifier.select selection) selection.word.text "" fun t => ?_
    simp [Modifier.map, Modifier.text]
  | .filter keep c, h => by
    have hc := evaluateCondition_legible c (h c.target (by simp [Modifier.parts]))
    let word := if keep then ModifierWord.keepWhere else ModifierWord.dropWhere
    refine hc.image (Modifier.filter keep) word.text "" fun c => ?_
    cases keep <;> simp [word, Modifier.map, Modifier.text]
  | .reroll untilClear c, h => by
    have hc := evaluateCondition_legible c (h c.target (by simp [Modifier.parts]))
    let mark := if untilClear then "!" else ""
    refine hc.image (Modifier.reroll untilClear) rerollWord mark fun c => ?_
    cases untilClear <;> simp [mark, Modifier.map, Modifier.text, String.append_assoc]
  | .explode none, _ => by
    exact legible_pure _ _
  | .explode (some c), h => by
    have hc := evaluateCondition_legible c (h c.target (by simp [Modifier.parts]))
    refine hc.image (fun c => Modifier.explode (some c)) "!" "" fun c => ?_
    simp [Modifier.map, Modifier.text]

theorem modify_legible : (ms : List (Modifier Expr)) →
    (∀ x ∈ ms.flatMap Modifier.parts, x.Everywhere Expr.IsAccounted) →
    Legible (fun texts => ∃ faces thrown dice, (modify limits ms faces thrown).Yields (dice, texts))
      fun texts => String.join (texts.map Modifier.text)
  | [], _ => by
    refine .of_unique ?_ _
    rintro texts texts' ⟨_, _, _, h⟩ ⟨_, _, _, h'⟩
    exact (Prod.mk.inj (yields_done.mp h)).2.trans (Prod.mk.inj (yields_done.mp h')).2.symm
  | m :: ms, h => by
    have hm := evaluateModifier_legible m fun x hx => h x (by simp_all)
    have hms := modify_legible ms fun x hx => h x (by simp_all)
    rintro texts ⟨die, thrown, dice, ht⟩ texts' ⟨die', thrown', dice', ht'⟩ u v heq
    obtain ⟨a, ha, ht⟩ := yields_bind.mp ht
    obtain ⟨a', ha', ht'⟩ := yields_bind.mp ht'
    obtain ⟨rethrown, -, ht⟩ := yields_bind.mp ht
    obtain ⟨rethrown', -, ht'⟩ := yields_bind.mp ht'
    obtain ⟨⟨last, rest⟩, hrest, ht⟩ := yields_bind.mp ht
    obtain ⟨⟨last', rest'⟩, hrest', ht'⟩ := yields_bind.mp ht'
    obtain ⟨-, rfl⟩ := Prod.mk.inj (yields_done.mp ht)
    obtain ⟨-, rfl⟩ := Prod.mk.inj (yields_done.mp ht')
    simp only [List.map_cons, String.join_cons, String.append_assoc] at heq
    obtain ⟨rfl, hnext⟩ := hm ha ha' heq
    obtain ⟨rfl, hafter⟩ := hms ⟨_, _, _, hrest⟩ ⟨_, _, _, hrest'⟩ hnext
    exact ⟨rfl, hafter⟩

theorem evaluateArguments_legible (function : String) : (es : List Expr) → (ks : List Kind) →
    (hks : es.length = ks.length) → (∀ x ∈ es, x.Everywhere Expr.IsAccounted) →
    Legible (evaluateArguments limits function es ks hks).Yields fun r => Written.listed r.2
  | [], [], _, _ => by
    exact legible_pure _ _
  | e :: es, .scalar :: ks, hks, h => by
    obtain ⟨he, hes⟩ := List.forall_mem_cons.mp h
    exact legible_argument (Expr.number_legible function e he)
      (evaluateArguments_legible function es ks _ hes)
  | e :: es, .list :: ks, hks, h => by
    obtain ⟨he, hes⟩ := List.forall_mem_cons.mp h
    have helements : Legible (e.elements limits function).Yields Traced.trace :=
      (Expr.evaluate_legible e he).andThen_liftM "" "" fun t elements helements => by
        obtain rfl := asList_eq_ok helements
        simp [Traced.map]
    have hargument := legible_argument helements
      (evaluateArguments_legible function es ks (by simpa using hks) hes)
    rw [Expr.elements, bind_assoc] at hargument
    exact hargument

end

end

/-- Who needs a number does not matter where there is one. -/
theorem Expr.number_yields_of {function : String} {t : Traced Int} (function' : String) :
    (e : Expr) → (e.number limits function).Yields t → (e.number limits function').Yields t
  | .paren inner, h => by
    obtain ⟨n, hn, ht⟩ := yields_bind.mp h
    exact yields_bind.mpr ⟨n, number_yields_of function' inner hn, ht⟩
  | .call name args, h => by
    obtain ⟨v, hv, hnumber⟩ := yields_bind.mp h
    refine yields_bind.mpr ⟨v, hv, Eval.yields_liftM.mpr ?_⟩
    obtain rfl := asNumber_eq_ok (Eval.yields_liftM.mp hnumber)
    rfl
  | .list items, h => by
    obtain ⟨_, _, hfail⟩ := yields_bind.mp h
    exact absurd hfail not_yields_failed
  | .repeated count inner, h => by
    obtain ⟨_, _, hfail⟩ := yields_bind.mp h
    exact absurd hfail not_yields_failed
  | .int _, h | .binary _ _ _, h | .negate _, h | .die _, h | .dice _ _ _, h | .gap _, h => h

/-! ## Runs -/

/-- Two runs of an expression without lists and repetitions that have the same trace have the same
value, with the same labels, whatever they draw. -/
theorem Expr.run_value_eq_of_trace_eq (limits : Limits) {e : Expr} (he : e.Everywhere IsAccounted)
    {σ σ' : Type} (next? : σ → Option (Nat × σ)) (next?' : σ' → Option (Nat × σ')) :
    (∀ (t t' : Traced Value) (source rest : σ) (source' rest' : σ'),
      (e.evaluate limits).run next? source = (.value t, rest) →
      (e.evaluate limits).run next?' source' = (.value t', rest') →
        t.trace = t'.trace → t.value = t'.value) ∧
    ∀ (function function' : String) (t t' : Traced Int) (source rest : σ) (source' rest' : σ'),
      (e.number limits function).run next? source = (.value t, rest) →
      (e.number limits function').run next?' source' = (.value t', rest') →
        t.trace = t'.trace → t.value = t'.value := by
  constructor
  · intro t t' source rest source' rest' hrun hrun' htrace
    rw [(e.evaluate_legible limits he).eq_of_text_eq (.of_run hrun) (.of_run hrun') htrace]
  · intro function function' t t' source rest source' rest' hrun hrun' htrace
    have hyields' := e.number_yields_of function (.of_run hrun')
    rw [(e.number_legible limits function he).eq_of_text_eq (.of_run hrun) hyields' htrace]

/-- Other raw numbers that show the same faces: of two dice one explodes, and the other is
dropped. -/
theorem Expr.run_value_eq_of_trace_eq_exploding : ∃ e t t' rest rest',
    Expr.Everywhere IsAccounted e ∧
      (Expr.evaluate {} e).run Source.next? (.script [5, 1, 2]) = (.value t, rest) ∧
      (Expr.evaluate {} e).run Source.next? (.script [11, 7, 8]) = (.value t', rest') ∧
      t.trace = "2d6!k>2 [6!, 3, ~~2~~]" ∧ t.trace = t'.trace ∧ t.value = t'.value := by
  let e : Expr :=
    .dice (some (.int 2)) (.numbered (.int 6)) [.explode none, .filter true ⟨.gt, .int 2⟩]
  have he : e.Everywhere IsAccounted := .intro trivial fun x hx => by
    have hx : x ∈ [Expr.int 2, .int 2, .int 6] := hx
    simp only [List.mem_cons, List.not_mem_nil, or_false] at hx
    rcases hx with rfl | rfl | rfl
    all_goals exact .intro trivial fun _ hx => nomatch hx
  have hrun : (e.evaluate {}).run Source.next? (.script [5, 1, 2]) =
      (.value ⟨.list [⟨6, "6!"⟩, ⟨3, ""⟩], "2d6!k>2 [6!, 3, ~~2~~]"⟩, .script []) := rfl
  have hrun' : (e.evaluate {}).run Source.next? (.script [11, 7, 8]) =
      (.value ⟨.list [⟨6, "6!"⟩, ⟨3, ""⟩], "2d6!k>2 [6!, 3, ~~2~~]"⟩, .script []) := rfl
  exact ⟨e, _, _, _, _, he, hrun, hrun', rfl, rfl,
    (run_value_eq_of_trace_eq {} he Source.next? Source.next?).1 _ _ _ _ _ _ hrun hrun' rfl⟩

end DiceLang
