import DiceLang.Evaluate
import DiceLang.Proofs.Numeral
import DiceLang.Proofs.Separation
import Mathlib.Data.List.Forall2

/-!
# Records in a trace

A trace is a text into which records of dice have been put (`Annotated`). They are taken out of it
again by what they look like (`withoutRecords`).

* `Annotated.append`, `Annotated.commas`, `Annotated.record`: how annotated texts are put together;
* `Annotated.withoutRecords_eq`: what is left when the records are taken out, provided that nothing
  else looks like the start of one.
-/

namespace DiceLang

variable {t t₁ t₂ p p₁ p₂ : String}

/-! ## Taking records out -/

/-- The characters outside of records: a record is a ` [` with all that follows it up to the next
`]`. -/
def outsideRecords : (inside : Bool) → List Char → List Char
  | _, [] => []
  | true, c :: cs => outsideRecords (c != ']') cs
  | false, ' ' :: '[' :: cs =>
    if ']' ∈ cs then outsideRecords true cs else ' ' :: '[' :: outsideRecords false cs
  | false, c :: cs => c :: outsideRecords false cs

/-- The text without its records. -/
def withoutRecords (t : String) : String := String.ofList (outsideRecords false t.toList)

theorem outsideRecords_body {body cs : List Char} (h : ']' ∉ body) :
    outsideRecords true (body ++ ']' :: cs) = outsideRecords false cs := by
  induction body with
  | nil => rfl
  | cons c body ih =>
    obtain ⟨hc, hbody⟩ := not_or.mp (mt List.mem_cons.mpr h)
    rw [List.cons_append, outsideRecords, bne_iff_ne.mpr (Ne.symm hc), ih hbody]

theorem outsideRecords_record {body cs : List Char} (h : ']' ∉ body) :
    outsideRecords false (' ' :: '[' :: (body ++ ']' :: cs)) = outsideRecords false cs := by
  rw [outsideRecords, if_pos (by simp), outsideRecords_body h]

theorem outsideRecords_cons {c : Char} {cs : List Char} (h : ¬ [' ', '['] <+: c :: cs) :
    outsideRecords false (c :: cs) = c :: outsideRecords false cs := by
  rw [outsideRecords]
  rintro cs rfl rfl
  exact h (List.prefix_append _ _)

/-! ## Putting records in -/

/-- The characters `t` are the characters `p` with records put between them. -/
inductive Annotates : List Char → List Char → Prop
  | nil : Annotates [] []
  | char (c : Char) {t p : List Char} : Annotates t p → Annotates (c :: t) (c :: p)
  | record {body t p : List Char} : ']' ∉ body → Annotates t p →
    Annotates (' ' :: '[' :: (body ++ ']' :: t)) p

namespace Annotates

variable {t t₁ t₂ p p₁ p₂ : List Char}

theorem refl (p : List Char) : Annotates p p := by
  induction p with
  | nil => exact .nil
  | cons c p ih => exact .char c ih

theorem append (h₁ : Annotates t₁ p₁) (h₂ : Annotates t₂ p₂) :
    Annotates (t₁ ++ t₂) (p₁ ++ p₂) := by
  induction h₁ with
  | nil => exact h₂
  | char c _ ih => exact .char c ih
  | record hbody _ ih => simpa using Annotates.record hbody ih

/-- Only a record puts a blank first. -/
theorem head?_eq (h : Annotates t p) (ht : t.head? ≠ some ' ') : p.head? = t.head? := by
  cases h with
  | nil => rfl
  | char c h => rfl
  | record => exact absurd rfl ht

theorem outsideRecords_eq (h : Annotates t p) (hp : ¬ [' ', '['] <:+: p) :
    outsideRecords false t = p := by
  induction h with
  | nil => rfl
  | @char c t p h ih =>
    rw [outsideRecords_cons, ih fun hrecord => hp (List.infix_cons hrecord)]
    -- a record cannot begin with a blank of `p`: the bracket would be one of `p` too
    intro hprefix
    obtain ⟨rfl, ht⟩ := List.cons_prefix_cons.mp hprefix
    obtain ⟨t, rfl⟩ := ht
    obtain ⟨p, rfl⟩ := List.head?_eq_some_iff.mp (h.head?_eq (by simp))
    exact hp (List.prefix_append [' ', '['] p).isInfix
  | record hbody h ih => rw [outsideRecords_record hbody, ih hp]

end Annotates

/-- The text `t` is the text `p` with records put into it. -/
def Annotated (t p : String) : Prop := Annotates t.toList p.toList

namespace Annotated

theorem refl (p : String) : Annotated p p := Annotates.refl _

theorem append (h₁ : Annotated t₁ p₁) (h₂ : Annotated t₂ p₂) :
    Annotated (t₁ ++ t₂) (p₁ ++ p₂) := by
  unfold Annotated at *
  rw [String.toList_append, String.toList_append]
  exact h₁.append h₂

theorem withoutRecords_eq (h : Annotated t p) (hp : ¬ [' ', '['] <:+: p.toList) :
    withoutRecords t = p := by
  rw [withoutRecords, h.outsideRecords_eq hp, String.ofList_toList]

theorem commas {ts ps : List String} (h : List.Forall₂ Annotated ts ps) :
    Annotated (Written.commas ts) (Written.commas ps) := by
  induction h with
  | nil => exact refl _
  | @cons t p ts ps ht hts ih =>
    cases hts with
    | nil => simpa [Written.commas] using ht
    | cons ht' hts =>
      rw [Written.commas, Written.commas, String.intercalate_cons_cons,
        String.intercalate_cons_cons]
      exact (ht.append (refl ", ")).append ih

theorem record {fragments : List String} (h : Annotated t p)
    (hfragments : ']' ∉ (Written.commas fragments).toList) :
    Annotated (t ++ record fragments) p := by
  have hrecord : Annotates (DiceLang.record fragments).toList [] := by
    simpa [DiceLang.record] using Annotates.record hfragments .nil
  unfold Annotated at *
  rw [String.toList_append]
  simpa using h.append hrecord

theorem parens (h : Annotated t p) : Annotated (Written.parens t) (Written.parens p) :=
  ((refl "(").append h).append (refl ")")

theorem braces {ts ps : List String} (h : List.Forall₂ Annotated ts ps) :
    Annotated (Written.braces ts) (Written.braces ps) :=
  ((refl "\x7b").append (commas h)).append (refl "\x7d")

theorem binary (op : Operator) (h₁ : Annotated t₁ p₁) (h₂ : Annotated t₂ p₂) :
    Annotated (Written.binary op t₁ t₂) (Written.binary op p₁ p₂) := by
  cases op with
  | power => exact (h₁.append (refl _)).append h₂
  | _ => exact (((h₁.append (refl " ")).append (refl _)).append (refl " ")).append h₂

theorem call {ts ps : List String} (function : String) (h : List.Forall₂ Annotated ts ps) :
    Annotated (Written.call function ts) (Written.call function ps) :=
  (refl function).append (commas h).parens

theorem repeated (h₁ : Annotated t₁ p₁) (h₂ : Annotated t₂ p₂) :
    Annotated (Written.repeated t₁ t₂) (Written.repeated p₁ p₂) :=
  (h₁.append (refl "#")).append h₂

end Annotated

/-! ## Records of dice -/

namespace ThrownDie

/-- The last piece of a fragment, for what the die shows. -/
def current (d : ThrownDie) : String :=
  (if d.kept then toString d.value else struck d.value) ++ (if d.exploded then "!" else "")

/-- What a fragment is made of, with blanks in between. -/
def pieces (d : ThrownDie) : List String := d.discarded.map struck ++ [d.current]

theorem fragment_eq (d : ThrownDie) : d.fragment = " ".intercalate d.pieces := rfl

section

variable {c : Char} (hminus : c ≠ '-') (hdigit : c.isDigit = false) (htilde : c ≠ '~')
include hminus hdigit htilde

theorem notMem_struck (n : Int) : c ∉ (struck n).toList := by
  rw [struck, String.toList_append, String.toList_append]
  simp [htilde, Text.notMem_repr hminus hdigit n]

theorem notMem_pieces (hbang : c ≠ '!') (d : ThrownDie) : ∀ p ∈ d.pieces, c ∉ p.toList := by
  intro p hp
  rcases List.mem_append.mp hp with hp | hp
  · obtain ⟨n, _, rfl⟩ := List.mem_map.mp hp
    exact notMem_struck hminus hdigit htilde n
  · obtain rfl := List.mem_singleton.mp hp
    rw [current, String.toList_append, List.mem_append, not_or]
    constructor
    · split
      · exact Text.notMem_repr hminus hdigit _
      · exact notMem_struck hminus hdigit htilde _
    · split <;> simp [hbang]

theorem notMem_fragment (hbang : c ≠ '!') (hblank : c ≠ ' ') (d : ThrownDie) :
    c ∉ d.fragment.toList := by
  rw [fragment_eq]
  exact Text.notMem_intercalate (by simp [hblank]) (notMem_pieces hminus hdigit htilde hbang d)

end

end ThrownDie

theorem Annotated.dice (h : Annotated t p) (dice : List ThrownDie) :
    Annotated (t ++ DiceLang.record (dice.map ThrownDie.fragment)) p := by
  refine h.record (Text.notMem_intercalate (by simp) fun p hp => ?_)
  obtain ⟨d, _, rfl⟩ := List.mem_map.mp hp
  exact d.notMem_fragment (by decide) (by decide) (by decide) (by decide) (by decide)

theorem Annotated.face (h : Annotated t p) (n : Int) :
    Annotated (t ++ DiceLang.record [toString n]) p := by
  refine h.record ?_
  simpa [Written.commas] using Text.notMem_repr (c := ']') (by decide) (by decide) n

end DiceLang
