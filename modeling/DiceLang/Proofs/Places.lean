import DiceLang.Proofs.PhraseInduction

/-!
# The places of a reading

Which places a reading comes to is settled by a few rules, one for each step that it can take: it
passes over a lexeme, it looks for something where it stands, it breaks off where a limit is broken.
Whatever set of places the steps do not lead out of (`Places.Lasting`), no phrase of the notation
does (`Phrase.KeepsTo`).

* `KeepsTo.closed`: the rules, once for all such sets;
* `Phrase.StaysIn`: a reading stays among the lexemes that it is given;
* `Places.behind`: it has only passed over lexemes that fit and are converted, and it breaks off at
  a number that does not (`Limit.Broken`).
-/

namespace DiceLang

variable {α β : Type} {n maxDigits : Nat} {all : List Lexeme}

/-! ## Sets of places -/

/-- Where a reading may stand, where it may look for something in vain, and where it may break
off. -/
structure Places where
  stands : Cursor → Prop
  looked : Nat → Prop
  refused : Limit → Cursor → Prop

/-- No step of a reading leads out of the places. -/
structure Places.Lasting (maxDigits : Nat) (s : Places) : Prop where
  next : ∀ {c : Cursor} {l : Lexeme}, s.stands c → c.ahead.head? = some l → l.Passable maxDigits →
    s.stands c.next
  looked : ∀ {c : Cursor}, s.stands c → s.looked c.index
  tooDeep : ∀ {c : Cursor}, s.stands c → s.refused .depth c
  tooLong : ∀ {c : Cursor} {digits : String}, s.stands c →
    c.ahead.head? = some (.number digits) → ¬ (Lexeme.number digits).Fits maxDigits →
    s.refused .digits c
  unconverted : ∀ {c : Cursor} {digits : String}, s.stands c →
    c.ahead.head? = some (.number digits) → (Lexeme.number digits).Fits maxDigits →
    ¬ (Lexeme.number digits).Converts → s.refused .conversion c

variable {s : Places}

/-- The reply speaks of these places only. -/
def Reply.At (s : Places) : Reply α → Prop
  | .matched _ rest missed => s.stands rest ∧ ∀ f ∈ missed, s.looked f.index
  | .unmatched stopped missed => s.stands stopped ∧ s.looked missed.index
  | .refused limit place => s.refused limit place

theorem Frontier.looked_join {a b : Frontier} (ha : s.looked a.index) (hb : s.looked b.index) :
    s.looked (a.join b).index := by
  unfold join
  split
  · exact hb
  · split
    · exact ha
    · exact ha

theorem Reply.At.after {r : Reply α} {missed : Option Frontier} (h : r.At s)
    (hmissed : ∀ f ∈ missed, s.looked f.index) : (r.after missed).At s := by
  cases r with
  | matched a rest missed' =>
    refine ⟨h.1, ?_⟩
    cases missed with
    | none =>
      rw [Option.merge_none_left]
      exact h.2
    | some m =>
      cases missed' with
      | none =>
        rw [Option.merge_none_right]
        exact hmissed
      | some m' =>
        rintro f hf
        obtain rfl := Option.some.inj hf
        exact Frontier.looked_join (hmissed m rfl) (h.2 m' rfl)
  | unmatched stopped missed' =>
    cases missed with
    | none => exact h
    | some m => exact ⟨h.1, Frontier.looked_join (hmissed m rfl) h.2⟩
  | refused limit place => exact h

namespace Phrase

/-- From one of the places, `p` keeps to them. -/
def KeepsTo (s : Places) (p : Phrase α) (c : Cursor) : Prop := s.stands c → (p c).At s

namespace KeepsTo

variable {p q : Phrase α} {f : α → Phrase β} {c : Cursor}

theorem bind (h : KeepsTo s p c) (h' : ∀ a rest, KeepsTo s (f a) rest) :
    KeepsTo s (p >>= f) c := fun hc => by
  have hp := h hc
  rw [bind_apply]
  generalize p c = reply at hp ⊢
  cases reply with
  | matched a rest missed => exact (h' a rest hp.1).after hp.2
  | unmatched stopped missed => exact hp
  | refused limit place => exact hp

theorem orWanted (hs : s.Lasting maxDigits) {wanted : List Expectation} (h : KeepsTo s p c) :
    KeepsTo s (p.orWanted wanted) c := fun hc => by
  have hp := h hc
  unfold Phrase.orWanted
  generalize p c = reply at hp ⊢
  cases reply with
  | matched a rest missed => exact hp
  | unmatched stopped missed => exact ⟨hp.1, Frontier.looked_join hp.2 (hs.looked hp.1)⟩
  | refused limit place => exact hp

theorem orElse (h : KeepsTo s p c) (h' : KeepsTo s q c) : KeepsTo s (p.orElse q) c := fun hc => by
  have hp := h hc
  unfold Phrase.orElse
  generalize p c = reply at hp ⊢
  cases reply with
  | matched a rest missed => exact hp
  | unmatched stopped missed =>
    refine (h' hc).after fun f hf => ?_
    obtain rfl := Option.some.inj hf
    exact hp.2
  | refused limit place => exact hp

/-- A reading passes over a lexeme only if it is there, and says nothing of other places. -/
theorem closed (hs : s.Lasting maxDigits) : Closed maxDigits (KeepsTo s) where
  pure hc := ⟨hc, fun _ hf => nomatch hf⟩
  bind := .bind
  ahead h hc := (h hc).after fun _ hf => nomatch hf
  skip hd hl hc := ⟨hs.next hc hd hl, fun _ hf => nomatch hf⟩
  missing hc := ⟨hc, fun f hf => by
    obtain rfl := Option.some.inj hf
    exact hs.looked hc⟩
  giveUp hc := ⟨hc, hs.looked hc⟩
  tooDeep := hs.tooDeep
  tooLong hd hlong hc := hs.tooLong hc hd hlong
  unconverted hd hfits hlong hc := hs.unconverted hc hd hfits hlong
  orWanted := .orWanted hs
  orElse := .orElse

end KeepsTo

end Phrase

/-! ## Among the lexemes -/

/-- The cursor stands at a place among `n` lexemes. -/
def Cursor.In (n : Nat) (c : Cursor) : Prop := c.index + c.ahead.length = n

theorem Cursor.In.index_le {c : Cursor} (h : c.In n) : c.index ≤ n := by
  unfold In at h
  omega

theorem Cursor.In.next {c : Cursor} {l : Lexeme} (h : c.In n) (hd : c.ahead.head? = some l) :
    c.next.In n := by
  obtain ⟨ls, hc⟩ := List.head?_eq_some_iff.mp hd
  unfold In at h ⊢
  simp only [Cursor.next, hc, List.tail_cons, List.length_cons] at h ⊢
  omega

/-- The places before one of `n` lexemes or at their end. -/
def Places.among (n : Nat) : Places where
  stands := Cursor.In n
  looked i := i ≤ n
  refused _ := Cursor.In n

theorem Places.among_lasting (maxDigits : Nat) : (among n).Lasting maxDigits where
  next hc hd _ := Cursor.In.next hc hd
  looked := Cursor.In.index_le
  tooDeep hc := hc
  tooLong hc _ _ := hc
  unconverted hc _ _ _ := hc

/-- From a place among `n` lexemes, `p` stays among them. -/
abbrev Phrase.StaysIn (n : Nat) (p : Phrase α) (c : Cursor) : Prop := p.KeepsTo (.among n) c

namespace Phrase.StaysIn

variable {c : Cursor}

theorem closed (maxDigits : Nat) : Closed maxDigits (StaysIn n) :=
  KeepsTo.closed (Places.among_lasting maxDigits)

theorem symbol {s : Symbol} : StaysIn n (symbol s) c := (closed 0).symbol

theorem endOfInput : StaysIn n endOfInput c := (closed 0).endOfInput

end Phrase.StaysIn

/-- What is read one level further down stays among the lexemes. -/
def Grammar.BelowStays (n : Nat) (below : Nested → Phrase Expr) : Prop :=
  ∀ what c, Phrase.StaysIn n (below what) c

theorem Roll.phrase_staysIn (limits : Limits) (c : Cursor) : Phrase.StaysIn n (phrase limits) c :=
  (Phrase.StaysIn.closed _).roll c

/-! ## Behind lexemes that may be passed over -/

/-- The lexemes ahead are those behind the place. -/
def Cursor.Among (all : List Lexeme) (c : Cursor) : Prop := c.ahead = all.drop c.index

theorem Cursor.Among.next {c : Cursor} (h : c.Among all) : c.next.Among all := by
  rw [Among, Cursor.next, h, List.tail_drop]

theorem Cursor.Among.getElem?_index {c : Cursor} (h : c.Among all) :
    all[c.index]? = c.ahead.head? := by
  rw [h, List.head?_drop]

/-- What the next lexeme is where the limit is broken. -/
def Limit.Broken (maxDigits : Nat) (next : Option Lexeme) : Limit → Prop
  | .depth => True
  | .digits => ∃ digits, next = some (.number digits) ∧ ¬ (Lexeme.number digits).Fits maxDigits
  | .conversion => ∃ digits, next = some (.number digits) ∧
      (Lexeme.number digits).Fits maxDigits ∧ ¬ (Lexeme.number digits).Converts

/-- The places of a text behind lexemes that a reading may pass over. -/
def Places.behind (maxDigits : Nat) (all : List Lexeme) : Places where
  stands c := c.Among all ∧ ∀ l ∈ all.take c.index, l.Passable maxDigits
  looked i := ∀ l ∈ all.take i, l.Passable maxDigits
  refused limit place := limit.Broken maxDigits all[place.index]?

theorem Places.behind_lasting : (behind maxDigits all).Lasting maxDigits where
  next {c l} hc hd hl := by
    have hindex : all[c.index]? = some l := hc.1.getElem?_index.trans hd
    refine ⟨hc.1.next, ?_⟩
    rw [Cursor.next, List.take_add_one, hindex, Option.toList_some, List.forall_mem_append]
    exact ⟨hc.2, by simpa using hl⟩
  looked hc := hc.2
  tooDeep _ := trivial
  tooLong hc hd hlong := ⟨_, hc.1.getElem?_index.trans hd, hlong⟩
  unconverted hc hd hfits hlong := ⟨_, hc.1.getElem?_index.trans hd, hfits, hlong⟩

theorem Phrase.KeepsTo.not_stumbles {p : Phrase α}
    (h : p.KeepsTo (.behind maxDigits all) ⟨0, all⟩) (hall : ∀ l ∈ all, l.Converts) :
    ¬ p.Stumbles ⟨0, all⟩ := by
  rintro ⟨place, hplace⟩
  have hat := h ⟨rfl, by simp⟩
  rw [hplace] at hat
  obtain ⟨digits, hnext, _, hlong⟩ := hat
  exact hlong (hall _ (List.mem_of_getElem? hnext))

theorem Roll.phrase_behind (limits : Limits) (all : List Lexeme) :
    (phrase limits ⟨0, all⟩).At (.behind limits.maxDigits all) :=
  (Phrase.KeepsTo.closed Places.behind_lasting).roll ⟨0, all⟩ ⟨rfl, by simp⟩

/-! ## A number that cannot be converted -/

variable {digits : String} {c : Cursor}

theorem Grammar.count_eq_refused {below : Nested → Phrase Expr}
    (hc : c.ahead.head? = some (.number digits)) (hfits : (Lexeme.number digits).Fits maxDigits)
    (hlong : ¬ (Lexeme.number digits).Converts) :
    count maxDigits below c = .refused .conversion c := by
  have hlong : Text.maxNumeralLength < digits.length := Nat.not_le.mp hlong
  rw [count, Phrase.bind_apply]
  simp only [Phrase.ahead, hc, if_neg (Nat.not_lt.mpr hfits), if_pos hlong]
  rfl

/-- Where a text starts with such a number, the first of the readings breaks off, and so no other is
tried. -/
theorem Roll.phrase_eq_refused {limits : Limits} (hc : c.ahead.head? = some (.number digits))
    (hfits : (Lexeme.number digits).Fits limits.maxDigits)
    (hlong : ¬ (Lexeme.number digits).Converts) :
    phrase limits c = .refused .conversion c := by
  have hcount : Grammar.count limits.maxDigits (Grammar.nested limits.maxDigits limits.maxDepth) c =
      .refused .conversion c := Grammar.count_eq_refused hc hfits hlong
  have hrepetition : Grammar.repetition limits.maxDigits
      (Grammar.nested limits.maxDigits limits.maxDepth) c = .refused .conversion c := by
    show (Grammar.count _ _ >>= _) c = _
    rw [Phrase.bind_apply, hcount]
  show Phrase.orElse (whole (.list, Grammar.repetition _ _)) _ c = _
  rw [Phrase.orElse, whole, Phrase.bind_apply, hrepetition]

end DiceLang
