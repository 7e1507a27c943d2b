import DiceLang.Proofs.Fitting
import DiceLang.Proofs.Separation
import DiceLang.Proofs.SingleLine
import Mathlib

/-!
# Messages tell the numbers

Two outcomes whose messages are the same have the same numbers, whichever form each message has. A
message shows its value on its last line, says that there is none, or has a line for each element
(`Layout`), and no message can be taken for one of another layout. A header may hold line breaks and
may imitate all of that, so only what comes after the last line break can be relied on; where there
are lines to count, both messages have the same header.

* `Value.shown_inj`, `elementLine_inj`: what a line tells;
* `Layout.agree`: what a message tells;
* `Outcome.numbers_eq_of_render_eq`: the same for messages that are not cut.
-/

namespace DiceLang

open Chance

/-! ## Values and lines -/

@[simp] theorem Value.kind_mapLabels (f : String → String) (v : Value) :
    (v.mapLabels f).kind = v.kind := by
  cases v <;> rfl

@[simp] theorem Value.numbers_mapLabels (f : String → String) (v : Value) :
    (v.mapLabels f).numbers = v.numbers := by
  cases v <;> simp [mapLabels, numbers, Function.comp_def]

/-- The numbers of a value as a message shows them on one line. -/
def Value.shown : Value → String
  | .scalar n => toString n
  | .list elements => Written.braces ((Value.list elements).numbers.map toString)

@[simp] theorem Value.shown_mapLabels (f : String → String) (v : Value) :
    (v.mapLabels f).shown = v.shown := by
  cases v <;> simp [mapLabels, shown, numbers, Function.comp_def]

theorem Value.notMem_shown {c : Char} (hminus : c ≠ '-') (hdigit : c.isDigit = false)
    (hother : c ∉ "\x7b, \x7d".toList) (v : Value) : c ∉ v.shown.toList := by
  cases v with
  | scalar n => exact Text.notMem_repr hminus hdigit n
  | list elements =>
    have hbraces : c ≠ '\x7b' ∧ c ∉ ", ".toList ∧ c ≠ '\x7d' := by simp_all
    have hcommas : c ∉ (", ".intercalate ((list elements).numbers.map toString)).toList :=
      Text.notMem_intercalate hbraces.2.1
        (List.forall_mem_map.mpr fun n _ => Text.notMem_repr hminus hdigit n)
    simp_all [shown, Written.braces, Written.commas]

theorem Value.shown_inj {v w : Value} (hv : v ≠ .list []) (hw : w ≠ .list [])
    (h : v.shown = w.shown) : v.kind = w.kind ∧ v.numbers = w.numbers := by
  have hbrace : ∀ (n : Int) (numbers : List Int),
      toString n ≠ Written.braces (numbers.map toString) := fun n numbers h => by
    have hmem : '\x7b' ∈ n.repr.toList := by
      rw [← Int.toString_eq_repr, h]
      simp [Written.braces]
    exact Text.notMem_repr (by decide) (by decide) n hmem
  cases v with
  | scalar n =>
    cases w with
    | scalar m =>
      obtain rfl := Int.repr_inj.mp h
      exact ⟨rfl, rfl⟩
    | list elements => exact absurd h (hbrace n _)
  | list elements =>
    cases w with
    | scalar m => exact absurd h.symm (hbrace m _)
    | list elements' =>
      refine ⟨rfl, ?_⟩
      have hcommas := (String.append_right_inj _).mp ((String.append_left_inj _).mp h)
      have hcomma : ∀ numbers : List Int, ∀ p ∈ numbers.map toString, ',' ∉ p.toList :=
        fun numbers => List.forall_mem_map.mpr fun n _ =>
          Text.notMem_repr (by decide) (by decide) n
      have hmap := Text.intercalate_inj rfl (hcomma _) (hcomma _)
        (by simp_all [Value.numbers]) hcommas
      exact List.map_injective_iff.mpr (fun _ _ => Int.repr_inj.mp) hmap

theorem oneLine_code {text : String} : OneLine (code text) ↔ OneLine text := by
  have hbacktick : OneLine "\x60" := by decide
  simp [code, hbacktick]

theorem oneLine_elementLine {e : Element} (h : OneLine e.label) : OneLine (elementLine e) := by
  have harrow : OneLine " ⟵ " := by decide
  have hpadding : ∀ n, OneLine (String.ofList (List.replicate n ' ')) := fun n => by
    simp [OneLine, List.mem_replicate]
  simp [elementLine, oneLine_code, harrow, hpadding, h]

/-- A line tells the number, whatever its label is. -/
theorem elementLine_inj {e e' : Element} (h : elementLine e = elementLine e') :
    e.value = e'.value := by
  have hbacktick : ∀ n : Int, '\x60' ∉ (toString n).toList :=
    Text.notMem_repr (by decide) (by decide)
  simp only [elementLine, code, String.append_assoc, String.append_right_inj] at h
  exact Int.repr_inj.mp (Text.cut_first (hbacktick _) (hbacktick _) h).1

theorem values_eq_of_map_elementLine {elements elements' : List Element}
    (h : elements.map elementLine = elements'.map elementLine) :
    elements.map Element.value = elements'.map Element.value := by
  induction elements generalizing elements' with
  | nil => simp_all
  | cons e elements ih =>
    cases elements' with
    | nil => cases h
    | cons e' elements' =>
      obtain ⟨he, helements⟩ := List.cons.inj h
      rw [List.map_cons, List.map_cons, elementLine_inj he, ih helements]

/-! ## Layouts -/

/-- How a message about a value is laid out, under a header or under one with less markup. -/
inductive Layout (header : String) (v : Value) (message : String) : Prop
  /-- The value stands on the last line. -/
  | output (above : String) (hv : v ≠ .list [])
      (hmessage : message = above ++ ("\n" ++ ("Output: " ++ v.shown)))
  | nothing (plainer : String) (hv : v = .list [])
      (hplainer : markupTotal plainer ≤ markupTotal header)
      (hmessage : message = plainer ++ "No output.")
  /-- Each element stands on a line of its own. -/
  | lines (trace : String) (elements : List Element) (hv : v = .list elements)
      (hne : elements ≠ []) (htrace : OneLine trace) (hlabels : ∀ x ∈ elements, OneLine x.label)
      (hmessage : message = header ++ "\n  ".intercalate (code trace :: elements.map elementLine))

theorem Value.stripLabels_eq_self {elements : List Element} (h : ∀ x ∈ elements, x.label = "") :
    (list elements).stripLabels = list elements := by
  have hmap : elements.map (fun x => (⟨x.value, ""⟩ : Element)) = elements.map id :=
    List.map_congr_left fun x hx => by rw [← h x hx, id]
  rw [stripLabels, mapLabels, hmap, List.map_id]

theorem messageText_labelled (header trace : String) {elements : List Element}
    (h : (Value.list elements).stripLabels ≠ .list elements) :
    messageText header (.list elements) trace =
      header ++ "\n  ".intercalate (code trace :: elements.map elementLine) := by
  have hall : ¬ elements.all (·.label.isEmpty) = true := fun hall =>
    h (Value.stripLabels_eq_self (by simpa using hall))
  cases elements with
  | nil => exact absurd rfl hall
  | cons e elements =>
    rw [List.map_cons, String.intercalate_cons_cons]
    simp [messageText, hall, String.append_assoc]

theorem layout_stripLabels {plainer header : String}
    (h : markupTotal plainer ≤ markupTotal header) (v : Value) (trace : String) :
    Layout header v.stripLabels (messageText plainer v.stripLabels trace) := by
  cases v with
  | scalar n =>
    refine .output (plainer ++ trace ++ ".") (by simp [Value.stripLabels, Value.mapLabels]) ?_
    have hbreak : ".\nOutput: " = "." ++ ("\n" ++ "Output: ") := by decide
    show plainer ++ trace ++ ".\nOutput: " ++ toString n = _
    rw [hbreak]
    simp only [String.append_assoc]
    rfl
  | list elements =>
    by_cases hnil : elements = []
    · subst hnil
      exact .nothing plainer rfl h rfl
    · refine .output (plainer ++ code trace) (by simp [Value.stripLabels, Value.mapLabels, hnil]) ?_
      have hbreak : "\nOutput: " = "\n" ++ "Output: " := by decide
      rw [messageText_stripLabels _ _ hnil, hbreak, Value.stripLabels, Value.shown_mapLabels]
      simp only [String.append_assoc]
      rfl

theorem layout_messageText (header : String) {v : Value} {trace : String} (htrace : OneLine trace)
    (hlabels : v.LabelsOneLine) : Layout header v (messageText header v trace) := by
  by_cases hv : v.stripLabels = v
  · rw [← hv]
    exact layout_stripLabels (Nat.le_refl _) v trace
  · cases v with
    | scalar n => exact absurd rfl hv
    | list elements =>
      refine .lines trace elements rfl ?_ htrace (Value.labelsOneLine_list.mp hlabels) ?_
      · rintro rfl
        exact hv rfl
      · rw [messageText_labelled _ _ hv]

theorem markupTotal_le_intercalate (sep p : String) (parts : List String) :
    markupTotal p ≤ markupTotal (sep.intercalate (p :: parts)) := by
  cases parts with
  | nil => rw [String.intercalate_singleton]
  | cons q parts =>
    rw [String.intercalate_cons_cons, markupTotal_append, markupTotal_append]
    omega

namespace Layout

variable {header message : String} {v w : Value}

/-- A message that has the value on its last line does not end in a full stop. -/
theorem output_ne_nothing (above plainer : String) (v : Value) :
    above ++ ("\n" ++ ("Output: " ++ v.shown)) ≠ plainer ++ "No output." := by
  intro h
  have hlast : (' ' :: v.shown.toList).getLast? = some '.' := by
    simpa using congrArg (fun t => t.toList.getLast?) h
  have hdot : '.' ∉ v.shown.toList := v.notMem_shown (by decide) (by decide) (by decide)
  simpa [hdot] using List.mem_of_getLast? hlast

/-- The line of an element is set in, the last line with a value is not. -/
theorem output_ne_lines (above front trace : String) (v : Value) {elements : List Element}
    (hne : elements ≠ []) (hlabels : ∀ x ∈ elements, OneLine x.label) :
    above ++ ("\n" ++ ("Output: " ++ v.shown)) ≠
      front ++ "\n  ".intercalate (code trace :: elements.map elementLine) := by
  intro h
  obtain ⟨before, last, hlast, heq⟩ := Text.intercalate_cons_eq_append "\n  " (code trace)
    (mt List.map_eq_nil_iff.mp hne)
  obtain ⟨e, he, rfl⟩ := List.mem_map.mp hlast
  have hbreak : "\n  " = "\n" ++ "  " := by decide
  have hmessage : front ++ (before ++ ("\n  " ++ elementLine e)) =
      (front ++ before) ++ ("\n" ++ ("  " ++ elementLine e)) := by
    rw [hbreak]
    simp only [String.append_assoc]
  rw [heq, hmessage] at h
  have hshown : OneLine ("Output: " ++ v.shown) :=
    oneLine_append.mpr ⟨by decide, v.notMem_shown (by decide) (by decide) (by decide)⟩
  have hline : OneLine ("  " ++ elementLine e) :=
    oneLine_append.mpr ⟨by decide, oneLine_elementLine (hlabels e he)⟩
  have hlines := (Text.cut_last hshown hline h).2
  simpa using congrArg (fun t => t.toList.head?) hlines

/-- A trace has markup around it, which a message without one has not. -/
theorem nothing_ne_lines {plainer : String} (hplainer : markupTotal plainer ≤ markupTotal header)
    (trace : String) (lines : List String) :
    plainer ++ "No output." ≠ header ++ "\n  ".intercalate (code trace :: lines) := by
  intro h
  have htotal := congrArg markupTotal h
  have hnothing : markupTotal "No output." = 0 := by decide +kernel
  have hcode := markupTotal_le_intercalate "\n  " (code trace) lines
  rw [markupTotal_append, markupTotal_append, hnothing] at htotal
  rw [markupTotal_code] at hcode
  omega

theorem agree (hv : Layout header v message) (hw : Layout header w message) :
    v.kind = w.kind ∧ v.numbers = w.numbers := by
  cases hv with
  | output above hv hmessage =>
    cases hw with
    | output above' hw hmessage' =>
      rw [hmessage] at hmessage'
      have hshown : ∀ v : Value, OneLine ("Output: " ++ v.shown) := fun v =>
        oneLine_append.mpr ⟨by decide, v.notMem_shown (by decide) (by decide) (by decide)⟩
      have hlines := (Text.cut_last (hshown v) (hshown w) hmessage').2
      exact Value.shown_inj hv hw ((String.append_right_inj _).mp hlines)
    | nothing plainer _ _ hmessage' =>
      exact absurd (hmessage.symm.trans hmessage') (output_ne_nothing _ _ _)
    | lines trace elements _ hne _ hlabels hmessage' =>
      exact absurd (hmessage.symm.trans hmessage') (output_ne_lines _ _ _ _ hne hlabels)
  | nothing plainer hv hplainer hmessage =>
    cases hw with
    | output above' _ hmessage' =>
      exact absurd (hmessage'.symm.trans hmessage) (output_ne_nothing _ _ _)
    | nothing => simp_all
    | lines trace elements _ _ _ _ hmessage' =>
      exact absurd (hmessage.symm.trans hmessage') (nothing_ne_lines hplainer _ _)
  | lines trace elements hv hne htrace hlabels hmessage =>
    cases hw with
    | output above' _ hmessage' =>
      exact absurd (hmessage'.symm.trans hmessage) (output_ne_lines _ _ _ _ hne hlabels)
    | nothing plainer _ hplainer hmessage' =>
      exact absurd (hmessage'.symm.trans hmessage) (nothing_ne_lines hplainer _ _)
    | lines trace' elements' hw hne' htrace' hlabels' hmessage' =>
      rw [hmessage, String.append_right_inj] at hmessage'
      have hlines := Text.intercalate_inj rfl
        (List.forall_mem_cons.mpr ⟨oneLine_code.mpr htrace, List.forall_mem_map.mpr fun e he =>
          oneLine_elementLine (hlabels e he)⟩)
        (List.forall_mem_cons.mpr ⟨oneLine_code.mpr htrace', List.forall_mem_map.mpr fun e he =>
          oneLine_elementLine (hlabels' e he)⟩)
        (by simp) hmessage'
      have hvalues := values_eq_of_map_elementLine (List.cons.inj hlines).2
      rw [hv, hw]
      exact ⟨rfl, hvalues⟩

end Layout

/-! ## Messages that are not cut -/

theorem Value.labelsOneLine_simplify (v : Value) : v.simplify.LabelsOneLine := by
  have hdots : OneLine "..." := by decide
  cases v <;> simp [simplify, mapLabels, hdots]

theorem oneLine_marker (v : Value) : OneLine (marker v) := by
  have hundisplayable : OneLine undisplayable := by decide
  cases v <;> simp [marker, oneLine_code, hundisplayable]

theorem Outcome.uncut_layout (limits : MessageLimits) {o : Outcome} (h : o.IsOneLine)
    (author : String) :
    ∃ v : Value, v.kind = o.value.kind ∧ v.numbers = o.value.numbers ∧
      Layout (header author o.description) v (o.uncut limits author) := by
  unfold uncut
  split
  · exact ⟨o.value, rfl, rfl, layout_messageText _ h.trace h.labels⟩
  · split
    · refine ⟨o.value.simplify, Value.kind_mapLabels _ _, Value.numbers_mapLabels _ _,
        layout_messageText _ ?_ ?_⟩
      · have hblank : OneLine " " := by decide
        simp [h.expression, hblank, oneLine_marker]
      · exact o.value.labelsOneLine_simplify
    · exact ⟨o.value.stripLabels, Value.kind_mapLabels _ _, Value.numbers_mapLabels _ _,
        layout_stripLabels (by simp) _ _⟩

/-- Where the same message is made of two outcomes, with one header and not cut, the outcomes have
the same numbers: provided that they are on one line, as those of a roll are. -/
theorem Outcome.numbers_eq_of_render_eq (limits : MessageLimits) (author : String) :
    (∀ o₁ o₂ : Outcome, o₁.description = o₂.description → o₁.IsOneLine → o₂.IsOneLine →
      (o₁.uncut limits author).length ≤ limits.maxLength →
      (o₂.uncut limits author).length ≤ limits.maxLength →
      o₁.render limits author = o₂.render limits author →
        o₁.value.kind = o₂.value.kind ∧ o₁.value.numbers = o₂.value.numbers) ∧
    ∀ (settings : Settings) (text description : Option String) {σ : Type}
      (next? : σ → Option (Nat × σ)) (source rest : σ) (o : Outcome),
      (roll settings text description).run next? source = (.value o, rest) → o.IsOneLine := by
  refine ⟨fun o₁ o₂ hdescription h₁ h₂ hlength₁ hlength₂ hrender => ?_,
    fun settings text description _ _ _ _ _ hrun =>
      (roll_oneLine settings text description).of_run hrun⟩
  rw [render_eq, render_eq, MessageLimits.truncate, if_pos hlength₁, MessageLimits.truncate,
    if_pos hlength₂] at hrender
  obtain ⟨v, hvkind, hvnumbers, hv⟩ := o₁.uncut_layout limits h₁ author
  obtain ⟨w, hwkind, hwnumbers, hw⟩ := o₂.uncut_layout limits h₂ author
  rw [← hdescription, ← hrender] at hw
  rw [← hvkind, ← hvnumbers, ← hwkind, ← hwnumbers]
  exact hv.agree hw

/-- A full message that looks like a bare one, and a bare one. -/
theorem Outcome.numbers_eq_of_render_eq_bare : ∃ o₁ o₂ : Outcome,
    o₁ ≠ o₂ ∧ o₁.IsOneLine ∧ o₂.IsOneLine ∧
      o₁.render ⟨2, 100⟩ "me" = "me rolled: \x60[could not display rolls]\x60.\nOutput: 5" ∧
      o₂.render ⟨2, 100⟩ "me" = "me rolled: \x60[could not display rolls]\x60.\nOutput: 5" ∧
      o₁.value.kind = o₂.value.kind ∧ o₁.value.numbers = o₂.value.numbers := by
  let o₁ : Outcome := ⟨.scalar 5, "\x60[could not display rolls]\x60", "x", none⟩
  let o₂ : Outcome := ⟨.scalar 5, "~~~~~~~~", "~~~~~~~~", none⟩
  have h₁ : o₁.IsOneLine := ⟨by decide, by decide, by simp [o₁]⟩
  have h₂ : o₂.IsOneLine := ⟨by decide, by decide, by simp [o₂]⟩
  refine ⟨o₁, o₂, by decide, h₁, h₂, by decide +kernel, by decide +kernel, ?_⟩
  exact (numbers_eq_of_render_eq ⟨2, 100⟩ "me").1 o₁ o₂ rfl h₁ h₂ (by decide +kernel)
    (by decide +kernel) (by decide +kernel)

end DiceLang
