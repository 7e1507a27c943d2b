import DiceLang.Phrase

/-!
# What a phrase reads

Whether a phrase is read at a place and what lies behind it, without the account of what was looked
for in vain (`Phrase.Reads`, `Phrase.GivesUp`), or whether a number is in the way that cannot be
converted (`Phrase.Stumbles`), and two sets of rules that follow how a phrase is put together:

* `Consumes`: whatever is read at a place has a property of the lexemes that it was read from;
* `Takes`: given lexemes, with a property that each part of a phrase needs of its own, are read in
  front of what comes after them, unless a number among them cannot be converted.
-/

namespace DiceLang

/-! ## Numbers -/

/-- A number has at most `maxDigits` digits, zeros in front not counted. -/
def Lexeme.Fits (maxDigits : Nat) : Lexeme → Prop
  | .number digits => (digits.toList.dropWhile (· == '0')).length ≤ maxDigits
  | _ => True

/-- A number has no more digits than can be converted, zeros in front counted. -/
def Lexeme.Converts : Lexeme → Prop
  | .number digits => digits.length ≤ Text.maxNumeralLength
  | _ => True

/-- What a reading may pass over: a number must fit, and it must be converted. -/
structure Lexeme.Passable (maxDigits : Nat) (l : Lexeme) : Prop where
  fits : l.Fits maxDigits
  converts : l.Converts

@[simp] theorem Lexeme.passable_symbol {maxDigits : Nat} (s : Symbol) :
    (Lexeme.symbol s).Passable maxDigits := ⟨trivial, trivial⟩

@[simp] theorem Lexeme.passable_word {maxDigits : Nat} (letters : String) :
    (Lexeme.word letters).Passable maxDigits := ⟨trivial, trivial⟩

namespace Phrase

variable {α β : Type} {p q : Phrase α} {f : α → Phrase β} {c rest : Cursor} {a : α} {b : β}

/-- `p` is read at `c` as `a`, and `rest` lies behind it. -/
def Reads (p : Phrase α) (c : Cursor) (a : α) (rest : Cursor) : Prop :=
  ∃ missed, p c = .matched a rest missed

/-- `p` is given up at `c`, and no limit is broken. -/
def GivesUp (p : Phrase α) (c : Cursor) : Prop := ∃ stopped missed, p c = .unmatched stopped missed

/-- From `c` on, `p` comes upon a number that cannot be converted. -/
def Stumbles (p : Phrase α) (c : Cursor) : Prop := ∃ place, p c = .refused .conversion place

/-- `p` is given up at `c`, unless it stumbles. -/
def Declines (p : Phrase α) (c : Cursor) : Prop := p.GivesUp c ∨ p.Stumbles c

theorem GivesUp.not_reads (h : p.GivesUp c) : ¬ p.Reads c a rest := by
  rintro ⟨missed, e⟩
  obtain ⟨stopped, missed', e'⟩ := h
  rw [e] at e'
  cases e'

theorem Stumbles.not_reads (h : p.Stumbles c) : ¬ p.Reads c a rest := by
  rintro ⟨missed, e⟩
  obtain ⟨place, e'⟩ := h
  rw [e] at e'
  cases e'

theorem GivesUp.declines (h : p.GivesUp c) : p.Declines c := .inl h

theorem Declines.not_reads (h : p.Declines c) : ¬ p.Reads c a rest :=
  h.elim GivesUp.not_reads Stumbles.not_reads

theorem matched_after_iff {r : Reply α} {missed : Option Frontier} :
    (∃ missed', r.after missed = .matched a rest missed') ↔
      ∃ missed', r = .matched a rest missed' := by
  cases r with
  | matched a' rest' missed' => simp [Reply.after]
  | unmatched stopped missed' => simp [Reply.after]
  | refused limit place => simp [Reply.after]

theorem unmatched_after_iff {r : Reply α} {missed : Option Frontier} :
    (∃ stopped missed', r.after missed = .unmatched stopped missed') ↔
      ∃ stopped missed', r = .unmatched stopped missed' := by
  cases r with
  | matched a' rest' missed' => simp [Reply.after]
  | unmatched stopped missed' => simp [Reply.after]
  | refused limit place => simp [Reply.after]

theorem refused_after_iff {r : Reply α} {missed : Option Frontier} {limit : Limit}
    {place : Cursor} : r.after missed = .refused limit place ↔ r = .refused limit place := by
  cases r with
  | matched a' rest' missed' => simp [Reply.after]
  | unmatched stopped missed' => simp [Reply.after]
  | refused limit' place' => simp [Reply.after]

theorem bind_apply : (p >>= f) c = match p c with
    | .matched a rest missed => (f a rest).after missed
    | .unmatched stopped missed => .unmatched stopped missed
    | .refused limit place => .refused limit place := rfl

/-! ## Reading -/

@[simp] theorem reads_pure {a' : α} : (pure a : Phrase α).Reads c a' rest ↔ a = a' ∧ c = rest := by
  show (∃ missed, Reply.matched a c none = .matched a' rest missed) ↔ _
  simp

theorem reads_bind :
    (p >>= f).Reads c b rest ↔ ∃ a mid, p.Reads c a mid ∧ (f a).Reads mid b rest := by
  unfold Reads
  rw [bind_apply]
  cases p c with
  | matched a' mid missed => simp [and_assoc, matched_after_iff]
  | unmatched stopped missed => simp
  | refused limit place => simp

@[simp] theorem reads_ahead {ls : List Lexeme} :
    ahead.Reads c ls rest ↔ c.ahead = ls ∧ c = rest := by
  simp [ahead, Reads]

@[simp] theorem reads_skip {u : Unit} : skip.Reads c u rest ↔ c.next = rest := by
  simp [skip, Reads]

@[simp] theorem reads_giveUp {wanted : List Expectation} :
    ¬ (giveUp wanted : Phrase α).Reads c a rest := by
  simp [giveUp, Reads]

@[simp] theorem reads_missing {wanted : List Expectation} {u : Unit} :
    (missing wanted).Reads c u rest ↔ c = rest := by
  simp [missing, Reads]

@[simp] theorem reads_refuse {limit : Limit} : ¬ (refuse limit : Phrase α).Reads c a rest := by
  simp [refuse, Reads]

@[simp] theorem reads_ahead_bind {f : List Lexeme → Phrase β} :
    (ahead >>= f).Reads c b rest ↔ (f c.ahead).Reads c b rest := by
  simp [reads_bind, and_assoc]

@[simp] theorem reads_symbol {s : Symbol} {u : Unit} :
    (symbol s).Reads c u rest ↔ c.ahead.head? = some (.symbol s) ∧ c.next = rest := by
  rw [symbol, reads_ahead_bind]
  split <;> simp_all

@[simp] theorem reads_endOfInput {u : Unit} :
    endOfInput.Reads c u rest ↔ c.ahead = [] ∧ c = rest := by
  rw [endOfInput, reads_ahead_bind]
  cases h : c.ahead <;> simp

@[simp] theorem reads_orWanted {wanted : List Expectation} :
    (p.orWanted wanted).Reads c a rest ↔ p.Reads c a rest := by
  unfold Reads orWanted
  cases p c <;> simp

theorem reads_orElse :
    (p.orElse q).Reads c a rest ↔ p.Reads c a rest ∨ p.GivesUp c ∧ q.Reads c a rest := by
  unfold Reads GivesUp orElse
  cases p c with
  | matched a' rest' missed => simp
  | unmatched stopped missed => simp [matched_after_iff]
  | refused limit place => simp

/-! ## Giving up -/

theorem givesUp_bind :
    (p >>= f).GivesUp c ↔ p.GivesUp c ∨ ∃ a mid, p.Reads c a mid ∧ (f a).GivesUp mid := by
  unfold Reads GivesUp
  rw [bind_apply]
  cases p c with
  | matched a' mid missed => simp [and_assoc, unmatched_after_iff]
  | unmatched stopped missed => simp
  | refused limit place => simp

@[simp] theorem givesUp_giveUp {wanted : List Expectation} : (giveUp wanted : Phrase α).GivesUp c :=
  ⟨_, _, rfl⟩

theorem GivesUp.bind (h : p.GivesUp c) : (p >>= f).GivesUp c := givesUp_bind.mpr (.inl h)

theorem GivesUp.after (h : p.Reads c a rest) (h' : (f a).GivesUp rest) : (p >>= f).GivesUp c :=
  givesUp_bind.mpr (.inr ⟨a, rest, h, h'⟩)

theorem GivesUp.ahead {f : List Lexeme → Phrase β} (h : (f c.ahead).GivesUp c) :
    (ahead >>= f).GivesUp c :=
  .after (reads_ahead.mpr ⟨rfl, rfl⟩) h

theorem givesUp_symbol {s : Symbol} (h : c.ahead.head? ≠ some (.symbol s)) :
    (symbol s).GivesUp c := by
  refine .ahead ?_
  rw [if_neg h]
  exact givesUp_giveUp

theorem givesUp_endOfInput (h : c.ahead ≠ []) : endOfInput.GivesUp c := by
  refine .ahead ?_
  cases hc : c.ahead with
  | nil => exact absurd hc h
  | cons l ls => exact givesUp_giveUp

/-! ## Stumbling -/

theorem stumbles_bind :
    (p >>= f).Stumbles c ↔ p.Stumbles c ∨ ∃ a mid, p.Reads c a mid ∧ (f a).Stumbles mid := by
  unfold Reads Stumbles
  rw [bind_apply]
  cases p c with
  | matched a' mid missed => simp [and_assoc, refused_after_iff]
  | unmatched stopped missed => simp
  | refused limit place => simp

theorem stumbles_orWanted {wanted : List Expectation} :
    (p.orWanted wanted).Stumbles c ↔ p.Stumbles c := by
  unfold Stumbles orWanted
  cases p c <;> simp

theorem stumbles_orElse :
    (p.orElse q).Stumbles c ↔ p.Stumbles c ∨ p.GivesUp c ∧ q.Stumbles c := by
  unfold Stumbles GivesUp orElse
  cases p c with
  | matched a' rest' missed => simp
  | unmatched stopped missed => simp [refused_after_iff]
  | refused limit place => simp

theorem Stumbles.after (h : p.Reads c a rest) (h' : (f a).Stumbles rest) :
    (p >>= f).Stumbles c := stumbles_bind.mpr (.inr ⟨a, rest, h, h'⟩)

theorem Declines.bind (h : p.Declines c) : (p >>= f).Declines c :=
  h.imp GivesUp.bind fun h => stumbles_bind.mpr (.inl h)

theorem Declines.after (h : p.Reads c a rest) (h' : (f a).Declines rest) : (p >>= f).Declines c :=
  h'.imp (GivesUp.after h) (Stumbles.after h)

theorem Declines.ahead {f : List Lexeme → Phrase β} (h : (f c.ahead).Declines c) :
    (ahead >>= f).Declines c := .after (reads_ahead.mpr ⟨rfl, rfl⟩) h

/-! ## What the lexemes read are -/

/-- Whatever `p` reads at `c` it reads from lexemes that are all `ok` and that, with what is read,
satisfy `P`. -/
def Consumes (ok : Lexeme → Prop) (p : Phrase α) (c : Cursor) (P : List Lexeme → α → Prop) : Prop :=
  ∀ a rest, p.Reads c a rest → ∃ ls, c.ahead = ls ++ rest.ahead ∧ (∀ l ∈ ls, ok l) ∧ P ls a

namespace Consumes

variable {ok : Lexeme → Prop} {P : List Lexeme → α → Prop} {Q : List Lexeme → β → Prop}

theorem mono {P' : List Lexeme → α → Prop} (h : Consumes ok p c P)
    (hP : ∀ ls a, P ls a → P' ls a) : Consumes ok p c P' := fun a rest hr => by
  obtain ⟨ls, hc, hok, hp⟩ := h a rest hr
  exact ⟨ls, hc, hok, hP ls a hp⟩

theorem pure (h : P [] a) : Consumes ok (pure a) c P := fun a' rest hr => by
  obtain ⟨rfl, rfl⟩ := reads_pure.mp hr
  exact ⟨[], rfl, by simp, h⟩

theorem bind (h : Consumes ok p c P)
    (h' : ∀ ls a rest, p.Reads c a rest ∧ c.ahead = ls ++ rest.ahead → P ls a →
      Consumes ok (f a) rest fun ls' b => Q (ls ++ ls') b) :
    Consumes ok (p >>= f) c Q := fun b rest hr => by
  obtain ⟨a, mid, hp, hf⟩ := reads_bind.mp hr
  obtain ⟨ls, hc, hok, hP⟩ := h a mid hp
  obtain ⟨ls', hmid, hok', hQ⟩ := h' ls a mid ⟨hp, hc⟩ hP b rest hf
  refine ⟨ls ++ ls', by rw [hc, hmid, List.append_assoc], fun l hl => ?_, hQ⟩
  exact (List.mem_append.mp hl).elim (hok l) (hok' l)

theorem ahead {f : List Lexeme → Phrase β} (h : Consumes ok (f c.ahead) c Q) :
    Consumes ok (ahead >>= f) c Q := fun b rest hr => h b rest (reads_ahead_bind.mp hr)

/-- A lexeme that is passed over is one of those that are read. -/
theorem skip {l : Lexeme} {ls : List Lexeme} {f : Unit → Phrase β} (hc : c.ahead = l :: ls)
    (hl : ok l) (h : Consumes ok (f ()) c.next fun ls' b => Q (l :: ls') b) :
    Consumes ok (skip >>= f) c Q := fun b rest hr => by
  obtain ⟨u, mid, hs, hf⟩ := reads_bind.mp hr
  obtain rfl := reads_skip.mp hs
  obtain ⟨ls', hmid, hok, hQ⟩ := h b rest hf
  have hnext : c.next.ahead = ls := by rw [Cursor.next, hc, List.tail_cons]
  refine ⟨l :: ls', by rw [hc, ← hnext, hmid, List.cons_append], fun l' hl' => ?_, hQ⟩
  rcases List.mem_cons.mp hl' with rfl | hl'
  · exact hl
  · exact hok l' hl'

theorem missing {wanted : List Expectation} {f : Unit → Phrase β} (h : Consumes ok (f ()) c Q) :
    Consumes ok (missing wanted >>= f) c Q := fun b rest hr => by
  obtain ⟨u, mid, hm, hf⟩ := reads_bind.mp hr
  obtain rfl := reads_missing.mp hm
  exact h b rest hf

theorem giveUp {wanted : List Expectation} : Consumes ok (giveUp wanted) c P :=
  fun _ _ hr => absurd hr reads_giveUp

theorem refuse {limit : Limit} : Consumes ok (refuse limit) c P :=
  fun _ _ hr => absurd hr reads_refuse

theorem symbol {s : Symbol} (hs : ok (.symbol s)) :
    Consumes ok (symbol s) c fun ls _ => ls = [.symbol s] := fun u rest hr => by
  obtain ⟨hc, rfl⟩ := reads_symbol.mp hr
  obtain ⟨ls, hc⟩ := List.head?_eq_some_iff.mp hc
  exact ⟨[.symbol s], by rw [Cursor.next, hc]; rfl, by simpa using hs, rfl⟩

theorem orWanted {wanted : List Expectation} (h : Consumes ok p c P) :
    Consumes ok (p.orWanted wanted) c P := fun a rest hr => h a rest (reads_orWanted.mp hr)

theorem orElse (h : Consumes ok p c P) (h' : Consumes ok q c P) : Consumes ok (p.orElse q) c P :=
  fun a rest hr => (reads_orElse.mp hr).elim (h a rest) fun hq => h' a rest hq.2

end Consumes

/-! ## What is read in front of other lexemes -/

/-- In front of `after`, `p` reads just the lexemes `ls`, if they are all `ok`, and it reads them as
`a`, unless it stumbles. -/
def Takes (ok : Lexeme → Prop) (p : Phrase α) (ls after : List Lexeme) (a : α) : Prop :=
  (∀ l ∈ ls, ok l) → ∀ i,
    (∃ j, p.Reads ⟨i, ls ++ after⟩ a ⟨j, after⟩) ∨ p.Stumbles ⟨i, ls ++ after⟩

namespace Takes

variable {ok : Lexeme → Prop} {ls ls₁ ls₂ after : List Lexeme}

theorem pure : Takes ok (pure a) [] after a := fun _ i => .inl ⟨i, reads_pure.mpr ⟨rfl, rfl⟩⟩

/-- What is read in front of the next part, wherever that begins. -/
theorem of_reads {c mid : Cursor} (h : p.Reads c a mid) (hmid : mid.ahead = ls ++ after)
    (hok : ∀ l ∈ ls, ok l) (h' : (f a).Takes ok ls after b) :
    (∃ j, (p >>= f).Reads c b ⟨j, after⟩) ∨ (p >>= f).Stumbles c := by
  rcases h' hok mid.index with ⟨j, hj⟩ | hstumbles
  · rw [← hmid] at hj
    exact .inl ⟨j, reads_bind.mpr ⟨a, mid, h, hj⟩⟩
  · rw [← hmid] at hstumbles
    exact .inr (.after h hstumbles)

theorem bind (h : p.Takes ok ls₁ (ls₂ ++ after) a) (h' : (f a).Takes ok ls₂ after b) :
    (p >>= f).Takes ok (ls₁ ++ ls₂) after b := fun hok i => by
  obtain ⟨hok₁, hok₂⟩ := List.forall_mem_append.mp hok
  rw [List.append_assoc]
  rcases h hok₁ i with ⟨j, hj⟩ | hstumbles
  · exact of_reads hj rfl hok₂ h'
  · exact .inr (stumbles_bind.mpr (.inl hstumbles))

theorem declines (h : p.Takes ok ls after a) (hok : ∀ l ∈ ls, ok l)
    (h' : ∀ j, (f a).Declines ⟨j, after⟩) (i : Nat) : (p >>= f).Declines ⟨i, ls ++ after⟩ := by
  rcases h hok i with ⟨j, hj⟩ | hstumbles
  · exact .after hj (h' j)
  · exact .inr (stumbles_bind.mpr (.inl hstumbles))

/-- What is done with the last part of a phrase reads nothing. -/
theorem map (h : p.Takes ok ls after a) (h' : (f a).Takes ok [] after b) :
    (p >>= f).Takes ok ls after b := by
  rw [← List.append_nil ls]
  exact bind h h'

theorem ahead {f : List Lexeme → Phrase β} (h : (f (ls ++ after)).Takes ok ls after b) :
    (ahead >>= f).Takes ok ls after b := fun hok _ =>
  of_reads (reads_ahead.mpr ⟨rfl, rfl⟩) rfl hok h

theorem skip {l : Lexeme} {f : Unit → Phrase β} (h : (f ()).Takes ok ls after b) :
    (skip >>= f).Takes ok (l :: ls) after b := fun hok _ =>
  of_reads (reads_skip.mpr rfl) rfl (List.forall_mem_cons.mp hok).2 h

theorem missing {wanted : List Expectation} {f : Unit → Phrase β}
    (h : (f ()).Takes ok ls after b) : (missing wanted >>= f).Takes ok ls after b := fun hok _ =>
  of_reads (reads_missing.mpr rfl) rfl hok h

theorem symbol {s : Symbol} : (symbol s).Takes ok [.symbol s] after () := fun _ i =>
  .inl ⟨i + 1, reads_symbol.mpr ⟨rfl, rfl⟩⟩

theorem symbol_bind {s : Symbol} {f : Unit → Phrase β} (h : (f ()).Takes ok ls after b) :
    (Phrase.symbol s >>= f).Takes ok (.symbol s :: ls) after b := bind symbol h

theorem endOfInput : endOfInput.Takes ok [] [] () := fun _ i =>
  .inl ⟨i, reads_endOfInput.mpr ⟨rfl, rfl⟩⟩

theorem orWanted {wanted : List Expectation} (h : p.Takes ok ls after a) :
    (p.orWanted wanted).Takes ok ls after a := fun hok i =>
  (h hok i).imp (fun ⟨j, hj⟩ => ⟨j, reads_orWanted.mpr hj⟩) stumbles_orWanted.mpr

theorem orElse_left (h : p.Takes ok ls after a) : (p.orElse q).Takes ok ls after a :=
  fun hok i => (h hok i).imp (fun ⟨j, hj⟩ => ⟨j, reads_orElse.mpr (.inl hj)⟩) fun hs =>
    stumbles_orElse.mpr (.inl hs)

theorem orElse_right (h : (∀ l ∈ ls, ok l) → ∀ i, p.Declines ⟨i, ls ++ after⟩)
    (h' : q.Takes ok ls after a) : (p.orElse q).Takes ok ls after a := fun hok i => by
  rcases h hok i with hgive | hstumbles
  · exact (h' hok i).imp (fun ⟨j, hj⟩ => ⟨j, reads_orElse.mpr (.inr ⟨hgive, hj⟩)⟩)
      fun hs => stumbles_orElse.mpr (.inr ⟨hgive, hs⟩)
  · exact .inr (stumbles_orElse.mpr (.inl hstumbles))

end Takes

end Phrase

end DiceLang
