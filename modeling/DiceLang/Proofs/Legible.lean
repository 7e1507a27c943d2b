import DiceLang.Proofs.Annotation
import DiceLang.Proofs.Separation
import Mathlib

/-!
# Texts that tell what they are about

A text tells what it is about (`Legible`) if that, and where the text ends, can be seen from it
whatever comes behind. So it is for the record of the dice: it ends at its bracket, and each
fragment tells all that happened to a die.

* `ThrownDie.fragment_injective`: the fragment of a die;
* `legible_dice`, `legible_face`: the record of a throw;
* `legible_commas`: a list of texts with commas in between.
-/

namespace DiceLang

variable {α : Type}

/-- Among all that satisfy `P`, the text tells which one it is about, and where it ends. -/
def Legible (P : α → Prop) (text : α → String) : Prop :=
  ∀ ⦃a⦄, P a → ∀ ⦃b⦄, P b → ∀ ⦃u v⦄, text a ++ u = text b ++ v → a = b ∧ u = v

namespace Legible

variable {P : α → Prop} {text : α → String}

theorem eq_of_text_eq (h : Legible P text) {a b : α} (ha : P a) (hb : P b)
    (heq : text a = text b) : a = b :=
  (h ha hb (congrArg (· ++ "") heq)).1

theorem of_unique (h : ∀ a b, P a → P b → a = b) (text : α → String) : Legible P text := by
  intro a ha b hb u v heq
  obtain rfl := h a b ha hb
  exact ⟨rfl, (String.append_right_inj _).mp heq⟩

end Legible

/-! ## The fragment of a die -/

namespace ThrownDie

theorem struck_injective : Function.Injective struck := fun m n h => by
  simp only [struck, String.append_left_inj, String.append_right_inj] at h
  exact Int.repr_inj.mp h

/-- What a die shows tells all about it but its rerolls. -/
theorem current_inj {d d' : ThrownDie} (h : d.current = d'.current) :
    d.value = d'.value ∧ d.kept = d'.kept ∧ d.exploded = d'.exploded := by
  have htilde : ∀ d : ThrownDie, '~' ∉ d.current.toList ↔ d.kept = true := fun d => by
    have hvalue := Text.notMem_repr (c := '~') (by decide) (by decide) d.value
    cases hkept : d.kept <;> cases hexploded : d.exploded <;>
      simp [current, struck, hkept, hexploded, hvalue]
  have hbang : ∀ d : ThrownDie, '!' ∈ d.current.toList ↔ d.exploded = true := fun d => by
    have hvalue := Text.notMem_repr (c := '!') (by decide) (by decide) d.value
    cases hkept : d.kept <;> cases hexploded : d.exploded <;>
      simp [current, struck, hkept, hexploded, hvalue]
  have hkept : d.kept = d'.kept := Bool.eq_iff_iff.mpr (by rw [← htilde, h, htilde])
  have hexploded : d.exploded = d'.exploded := Bool.eq_iff_iff.mpr (by rw [← hbang, h, hbang])
  refine ⟨?_, hkept, hexploded⟩
  rw [current, current, hkept, hexploded, String.append_left_inj] at h
  split at h
  · exact Int.repr_inj.mp h
  · exact struck_injective h

theorem fragment_injective : Function.Injective fragment := fun d d' h => by
  have hblank : ∀ d : ThrownDie, ∀ p ∈ d.pieces, ' ' ∉ p.toList := fun d =>
    notMem_pieces (by decide) (by decide) (by decide) (by decide) d
  have hpieces := Text.intercalate_inj rfl (hblank d) (hblank d') (by simp [pieces]) h
  obtain ⟨hdiscarded, hcurrent⟩ := List.append_inj' hpieces rfl
  obtain ⟨hvalue, hkept, hexploded⟩ := current_inj (List.singleton_inj.mp hcurrent)
  have hdiscarded := List.map_injective_iff.mpr struck_injective hdiscarded
  cases d
  cases d'
  simp_all

theorem fragment_ne_empty (d : ThrownDie) : d.fragment ≠ "" := by
  intro h
  have hcurrent := Text.eq_empty_of_intercalate h d.current
    (List.mem_append_right _ (List.mem_singleton_self _))
  have hvalue := Text.repr_ne_empty d.value
  cases hkept : d.kept <;> simp_all [current, struck]

end ThrownDie

/-! ## Records -/

theorem record_inj {ps qs : List String} (hps : ∀ p ∈ ps, ']' ∉ p.toList)
    (hqs : ∀ q ∈ qs, ']' ∉ q.toList) {u v : String} (h : record ps ++ u = record qs ++ v) :
    Written.commas ps = Written.commas qs ∧ u = v := by
  have hbracket : ∀ ps : List String, (∀ p ∈ ps, ']' ∉ p.toList) →
      ']' ∉ (Written.commas ps).toList := fun ps hps => Text.notMem_intercalate (by decide) hps
  simp only [record, String.append_assoc, String.append_right_inj] at h
  exact Text.cut_first (hbracket ps hps) (hbracket qs hqs) h

/-- The record of the dice tells all that happened to each. -/
theorem legible_dice :
    Legible (fun _ => True) fun dice : List ThrownDie => record (dice.map ThrownDie.fragment) := by
  intro dice _ dice' _ u v h
  have hbracket : ∀ dice : List ThrownDie, ∀ p ∈ dice.map ThrownDie.fragment, ']' ∉ p.toList :=
    fun dice => List.forall_mem_map.mpr fun d _ =>
      d.notMem_fragment (by decide) (by decide) (by decide) (by decide) (by decide)
  have hcomma : ∀ dice : List ThrownDie, ∀ p ∈ dice.map ThrownDie.fragment, ',' ∉ p.toList :=
    fun dice => List.forall_mem_map.mpr fun d _ =>
      d.notMem_fragment (by decide) (by decide) (by decide) (by decide) (by decide)
  obtain ⟨hcommas, hrest⟩ := record_inj (hbracket dice) (hbracket dice') h
  have hnil : ∀ dice : List ThrownDie,
      Written.commas (dice.map ThrownDie.fragment) = "" → dice = [] := fun dice hempty =>
    List.eq_nil_iff_forall_not_mem.mpr fun d hd => d.fragment_ne_empty
      (Text.eq_empty_of_intercalate hempty _ (List.mem_map_of_mem hd))
  have hboth : dice = [] ↔ dice' = [] :=
    ⟨by rintro rfl; exact hnil dice' hcommas.symm, by rintro rfl; exact hnil dice hcommas⟩
  have hfragments := Text.intercalate_inj rfl (hcomma dice) (hcomma dice') (by simpa using hboth)
    hcommas
  exact ⟨List.map_injective_iff.mpr ThrownDie.fragment_injective hfragments, hrest⟩

theorem legible_face : Legible (fun _ => True) fun n : Int => record [toString n] := by
  intro n _ m _ u v h
  have hbracket : ∀ n : Int, ∀ p ∈ [toString n], ']' ∉ p.toList := fun n =>
    List.forall_mem_singleton.mpr (Text.notMem_repr (by decide) (by decide) n)
  obtain ⟨hface, hrest⟩ := record_inj (hbracket n) (hbracket m) h
  exact ⟨Int.repr_inj.mp hface, hrest⟩

/-! ## Lists -/

/-- The texts, each behind a comma. -/
def Written.listed (parts : List String) : String := String.join (parts.map (", " ++ ·))

theorem Written.listed_cons (p : String) (parts : List String) :
    listed (p :: parts) = ", " ++ p ++ listed parts := by
  rw [listed, List.map_cons, String.join_cons, listed]

theorem Written.commas_cons (p : String) (parts : List String) :
    commas (p :: parts) = p ++ listed parts := by
  induction parts generalizing p with
  | nil => simp [commas, listed]
  | cons q parts ih =>
    have htail : commas (q :: parts) = ", ".intercalate (q :: parts) := rfl
    rw [commas, String.intercalate_cons_cons, ← htail, ih, listed_cons]
    simp only [String.append_assoc]

/-- Where one list has texts if and only if any other has some, commas in between will do. -/
theorem legible_commas {P : α → Prop} {texts : α → List String}
    (h : Legible P fun a => Written.listed (texts a))
    (hnil : ∀ a b, P a → P b → (texts a = [] ↔ texts b = [])) :
    Legible P fun a => Written.commas (texts a) := by
  intro a ha b hb u v heq
  refine h ha hb ?_
  cases hta : texts a with
  | nil =>
    have htb := (hnil a b ha hb).mp hta
    simpa [hta, htb, Written.commas, Written.listed] using heq
  | cons p ps =>
    cases htb : texts b with
    | nil => simp [(hnil a b ha hb).mpr htb] at hta
    | cons q qs =>
      simp only [hta, htb, Written.commas_cons, Written.listed_cons, String.append_assoc] at heq ⊢
      rw [heq]

end DiceLang
