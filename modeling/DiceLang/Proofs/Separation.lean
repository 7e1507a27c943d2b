import Mathlib.Data.List.Basic

/-!
# Texts that come apart

A text that is put together from parts with a separator between them comes apart in one way only,
provided that no part holds the character that the separator starts with.

* `Text.cut_first`, `Text.cut_last`: two texts that are cut at the first, or at the last, place of a
  character;
* `Text.intercalate_inj`: two lists of parts with the same separator.
-/

namespace DiceLang.Text

section

variable {α : Type} {x : α} {a b s t : List α}

theorem append_cons_inj_first (ha : x ∉ a) (hb : x ∉ b) (h : a ++ x :: s = b ++ x :: t) :
    a = b ∧ s = t := by
  rcases List.append_eq_append_iff.mp h with ⟨m, hm, hs⟩ | ⟨m, hm, ht⟩
  · cases m with
    | nil => exact ⟨by simpa using hm.symm, (List.cons.inj hs).2⟩
    | cons y m =>
      obtain ⟨rfl, -⟩ := List.cons.inj hs
      exact absurd (by simp [hm]) hb
  · cases m with
    | nil => exact ⟨by simpa using hm, (List.cons.inj ht).2.symm⟩
    | cons y m =>
      obtain ⟨rfl, -⟩ := List.cons.inj ht
      exact absurd (by simp [hm]) ha

theorem append_cons_inj_last (hs : x ∉ s) (ht : x ∉ t) (h : a ++ x :: s = b ++ x :: t) :
    a = b ∧ s = t := by
  have hreverse : s.reverse ++ x :: a.reverse = t.reverse ++ x :: b.reverse := by
    simpa using congrArg List.reverse h
  have hcut := append_cons_inj_first (by simpa using hs) (by simpa using ht) hreverse
  simpa [and_comm] using hcut

theorem intercalate_cons_inj {sep : List α} {ps qs : List (List α)} (hps : ∀ p ∈ ps, x ∉ p)
    (hqs : ∀ q ∈ qs, x ∉ q) (hnil : ps = [] ↔ qs = [])
    (h : (x :: sep).intercalate ps = (x :: sep).intercalate qs) : ps = qs := by
  induction ps generalizing qs with
  | nil => exact (hnil.mp rfl).symm
  | cons p ps ih =>
    obtain ⟨hp, hps'⟩ := List.forall_mem_cons.mp hps
    cases qs with
    | nil => exact hnil.mpr rfl
    | cons q qs =>
      obtain ⟨hq, hqs'⟩ := List.forall_mem_cons.mp hqs
      cases ps with
      | nil =>
        cases qs with
        | nil => simpa using h
        | cons q' qs =>
          rw [List.intercalate_singleton, List.intercalate_cons_cons] at h
          exact absurd (by simp [h]) hp
      | cons p' ps =>
        cases qs with
        | nil =>
          rw [List.intercalate_singleton, List.intercalate_cons_cons] at h
          exact absurd (by simp [← h]) hq
        | cons q' qs =>
          rw [List.intercalate_cons_cons, List.intercalate_cons_cons] at h
          simp only [List.append_assoc, List.cons_append] at h
          obtain ⟨rfl, hrest⟩ := append_cons_inj_first hp hq h
          rw [ih hps' hqs' (by simp) (List.append_cancel_left hrest)]

end

/-! ## Cutting texts -/

section

variable {c : Char} {a b s t : String}

/-- Two texts that are cut at their first `c`. -/
theorem cut_first (ha : c ∉ a.toList) (hb : c ∉ b.toList)
    (h : a ++ (String.singleton c ++ s) = b ++ (String.singleton c ++ t)) : a = b ∧ s = t := by
  have hlists : a.toList ++ c :: s.toList = b.toList ++ c :: t.toList := by
    simpa using congrArg String.toList h
  exact (append_cons_inj_first ha hb hlists).imp String.toList_inj.mp String.toList_inj.mp

/-- Two texts that are cut at their last `c`. -/
theorem cut_last (hs : c ∉ s.toList) (ht : c ∉ t.toList)
    (h : a ++ (String.singleton c ++ s) = b ++ (String.singleton c ++ t)) : a = b ∧ s = t := by
  have hlists : a.toList ++ c :: s.toList = b.toList ++ c :: t.toList := by
    simpa using congrArg String.toList h
  exact (append_cons_inj_last hs ht hlists).imp String.toList_inj.mp String.toList_inj.mp

/-- Two lists of parts that are put together with the same separator. -/
theorem intercalate_inj {sep : String} {cs : List Char} (hsep : sep.toList = c :: cs)
    {ps qs : List String} (hps : ∀ p ∈ ps, c ∉ p.toList) (hqs : ∀ q ∈ qs, c ∉ q.toList)
    (hnil : ps = [] ↔ qs = []) (h : sep.intercalate ps = sep.intercalate qs) : ps = qs := by
  have hlists := congrArg String.toList h
  rw [String.toList_intercalate, String.toList_intercalate, hsep] at hlists
  have hmap := intercalate_cons_inj (List.forall_mem_map.mpr hps) (List.forall_mem_map.mpr hqs)
    (by simpa using hnil) hlists
  exact List.map_injective_iff.mpr (fun _ _ => String.toList_injective) hmap

theorem notMem_intercalate {sep : String} {parts : List String} (hsep : c ∉ sep.toList)
    (h : ∀ p ∈ parts, c ∉ p.toList) : c ∉ (sep.intercalate parts).toList := by
  induction parts with
  | nil => simp
  | cons p parts ih =>
    obtain ⟨hp, hparts⟩ := List.forall_mem_cons.mp h
    cases parts with
    | nil => simpa using hp
    | cons p' parts =>
      rw [String.intercalate_cons_cons, String.toList_append, String.toList_append]
      simp only [List.mem_append, hp, hsep, ih hparts, or_self, not_false_iff]

/-- Where nothing is there, all the parts are nothing. -/
theorem eq_empty_of_intercalate {sep : String} {parts : List String}
    (h : sep.intercalate parts = "") : ∀ p ∈ parts, p = "" := by
  induction parts with
  | nil => exact fun p hp => nomatch hp
  | cons p parts ih =>
    cases parts with
    | nil => simpa using h
    | cons q parts =>
      rw [String.intercalate_cons_cons, String.append_eq_empty_iff] at h
      exact List.forall_mem_cons.mpr ⟨(String.append_eq_empty_iff.mp h.1).1, ih h.2⟩

/-- What stands last in parts that are put together. -/
theorem intercalate_cons_eq_append (sep p : String) {parts : List String} (h : parts ≠ []) :
    ∃ front, ∃ last ∈ parts, sep.intercalate (p :: parts) = front ++ (sep ++ last) := by
  induction parts generalizing p with
  | nil => exact absurd rfl h
  | cons q parts ih =>
    rw [String.intercalate_cons_cons]
    by_cases hparts : parts = []
    · subst hparts
      exact ⟨p, q, List.mem_singleton_self q, by rw [String.intercalate_singleton,
        String.append_assoc]⟩
    · obtain ⟨front, last, hlast, heq⟩ := ih q hparts
      exact ⟨p ++ sep ++ front, last, List.mem_cons_of_mem q hlast, by
        rw [heq]
        simp only [String.append_assoc]⟩

end

end DiceLang.Text
