import DiceLang.Proofs.Continuation
import DiceLang.Proofs.Places

/-!
# What is looked for is due

A reading keeps account of what it looked for in vain at the furthest place that it reached. The
account is honest: the lexemes before that place begin a roll, and each thing that was looked for
there could have come next and did not.

There are exceptions. A phrase that was given up leaves the cursor further on, where what could have
stood in its place is looked for once more (`Expectation.Leftover`); and a `k` is looked for even
where it is found, if no comparison follows it.

* `Frontier.Honest`: an honest account;
* `Phrase.Honest`: the rules for it.
-/

namespace DiceLang

open Grammar

variable {α β : Type} {all before ls : List Lexeme} {i j : Nat}

/-! ## Places -/

/-- The cursor stands right after `before`, among all the lexemes of a text. -/
structure Cursor.After (all before : List Lexeme) (c : Cursor) : Prop where
  split : all = before ++ c.ahead
  index : c.index = before.length

namespace Cursor.After

variable {c rest : Cursor}

theorem isIn (h : c.After all before) : c.In all.length := by
  rw [Cursor.In, h.split, h.index, List.length_append]

theorem take_index (h : c.After all before) : all.take c.index = before := by
  rw [h.split, h.index, List.take_left]

theorem drop_index (h : c.After all before) : all.drop c.index = c.ahead := by
  rw [h.split, h.index, List.drop_left]

theorem getElem?_index (h : c.After all before) : all[c.index]? = c.ahead.head? := by
  rw [← h.drop_index, List.head?_drop]

theorem next {l : Lexeme} {tl : List Lexeme} (h : c.After all before) (hc : c.ahead = l :: tl) :
    c.next.After all (before ++ [l]) where
  split := by rw [Cursor.next, hc, h.split, hc, List.append_assoc]; rfl
  index := by rw [Cursor.next, h.index, List.length_append, List.length_singleton]

theorem of_read (h : c.After all before) (hls : c.ahead = ls ++ rest.ahead)
    (hrest : rest.In all.length) : rest.After all (before ++ ls) where
  split := by rw [h.split, hls, List.append_assoc]
  index := by
    rw [Cursor.In, h.split, hls] at hrest
    simp only [List.length_append] at hrest ⊢
    omega

/-- What is read between two places. -/
theorem ahead_eq (h : c.After all before) (hrest : rest.After all (before ++ ls)) :
    c.ahead = ls ++ rest.ahead := by
  have hsplit := h.split.symm.trans hrest.split
  rwa [List.append_assoc, List.append_cancel_left_eq] at hsplit

theorem drop_succ_index (h : c.After all before) : all.drop (c.index + 1) = c.ahead.tail := by
  rw [← h.drop_index, List.tail_drop]

theorem take_of_le (h : c.After all before) (hi : c.index ≤ i) :
    all.take i = before ++ c.ahead.take (i - before.length) := by
  have hindex := h.index
  rw [h.split, List.take_append, List.take_of_length_le (by omega)]

/-- Between the cursor and a later place there are lexemes. -/
theorem take_of_lt (h : c.After all before) (hi : c.index < i) (hi' : i ≤ all.length) :
    ∃ inside, inside ≠ [] ∧ all.take i = before ++ inside := by
  have hlength := congrArg List.length h.split
  have hindex := h.index
  rw [List.length_append] at hlength
  refine ⟨_, fun hnil => ?_, h.take_of_le (Nat.le_of_lt hi)⟩
  have := congrArg List.length hnil
  simp only [List.length_take, List.length_nil] at this
  omega

end Cursor.After

/-! ## What is due -/

namespace Expectation

theorem admits_symbol_of_ne {s : Symbol} {next : Option Lexeme}
    (h : next ≠ some (.symbol s)) : (symbol s).admits next = false := by
  cases next with
  | none => rfl
  | some l =>
    cases l with
    | symbol t => exact beq_eq_false_iff_ne.mpr fun hst => h (by rw [hst])
    | _ => rfl

theorem admits_word_of_ne {w : String} {next : Option Lexeme}
    (h : next ≠ some (.word w)) : (word w).admits next = false := by
  cases next with
  | none => rfl
  | some l =>
    cases l with
    | word v => exact beq_eq_false_iff_ne.mpr fun hwv => h (by rw [hwv])
    | _ => rfl

theorem admits_number_of_ne {next : Option Lexeme}
    (h : ∀ digits, next ≠ some (.number digits)) : number.admits next = false := by
  cases next with
  | none => rfl
  | some l =>
    cases l with
    | number digits => exact absurd rfl (h digits)
    | _ => rfl

theorem admits_functionName_of_ne {next : Option Lexeme}
    (h : ∀ w, next = some (.word w) → isReserved w = true) :
    functionName.admits next = false := by
  cases next with
  | none => rfl
  | some l =>
    cases l with
    | word w => simp [admits, h w rfl]
    | _ => rfl

/-- The expectation is left over from an earlier place, where it could have been met, or from dice
that are not read to their end; since then a phrase was begun, and given up right after `before`. -/
inductive Leftover (follows : List Lexeme → Expectation → Prop) (before : List Lexeme) :
    Expectation → Prop
  /-- A brace, where the sides of a die were begun. -/
  | die {front inside : List Lexeme} : before = front ++ .word dieWord :: inside → inside ≠ [] →
      follows (front ++ [.word dieWord]) (.symbol .openBrace) →
      Leftover follows before (.symbol .openBrace)
  /-- A comparison, where another one or the count of the condition was begun. -/
  | condition {front inside : List Lexeme} {comparison : Comparison} : before = front ++ inside →
      inside ≠ [] → follows front (.symbol (.ofComparison comparison)) →
      Leftover follows before (.symbol (.ofComparison comparison))
  /-- A modifier, where the text starts with dice whose sides or whose modifiers were begun. -/
  | dice {depth : Nat} {count : Option Expr} {front inside : List Lexeme} {e : Expectation} :
      CountDerives depth 0 count front → before = front ++ .word dieWord :: inside →
      e ∈ modifierStarts → Leftover follows before e

theorem Leftover.imp {follows follows' : List Lexeme → Expectation → Prop} {e : Expectation}
    (h : e.Leftover follows before)
    (hfollows : ∀ front inside e, before = front ++ inside → follows front e → follows' front e) :
    e.Leftover follows' before := by
  cases h with
  | die hbefore hne hfront =>
    exact .die hbefore hne (hfollows _ _ _ (by rw [hbefore, List.append_assoc]; rfl) hfront)
  | condition hbefore hne hfront => exact .condition hbefore hne (hfollows _ _ _ hbefore hfront)
  | dice hcount hbefore hstart => exact .dice hcount hbefore hstart

/-- What may be looked for in vain at place `i`. -/
inductive Due (all : List Lexeme) (i : Nat) (e : Expectation) : Prop
  /-- It may come next, and something else does. -/
  | missing : e.Follows (all.take i) → e.admits all[i]? = false → Due all i e
  /-- A `k` that no comparison follows. -/
  | bareKeep : e = .word ModifierWord.keepWhere.text → e.Follows (all.take i) →
      startsWithComparison (all.drop (i + 1)) = false → Due all i e
  | leftover : e.Leftover Follows (all.take i) → Due all i e

end Expectation

/-- The account of a place is honest. -/
structure Frontier.Honest (all : List Lexeme) (f : Frontier) : Prop where
  follows : ∃ e ∈ f.wanted, e.Follows (all.take f.index)
  due : ∀ e ∈ f.wanted, e.Due all f.index

theorem Frontier.le_index_join {a b : Frontier} : b.index ≤ (a.join b).index := by
  unfold join
  split
  · exact Nat.le_refl _
  · split
    · exact Nat.le_of_lt ‹_›
    · exact Nat.le_of_not_lt ‹_›

theorem Frontier.index_join_left {a b : Frontier} (h : b.index ≤ a.index) :
    (a.join b).index = a.index := by
  unfold join
  rw [if_neg (Nat.not_lt.mpr h)]
  split <;> rfl

theorem Frontier.mem_join_left {a b : Frontier} {e : Expectation} (h : b.index ≤ a.index)
    (he : e ∈ a.wanted) : e ∈ (a.join b).wanted := by
  unfold join
  rw [if_neg (Nat.not_lt.mpr h)]
  split
  · exact he
  · exact List.mem_append_left _ he

theorem Frontier.mem_join {a b : Frontier} {e : Expectation} (he : e ∈ (a.join b).wanted) :
    (a.join b).index = a.index ∧ e ∈ a.wanted ∨ (a.join b).index = b.index ∧ e ∈ b.wanted := by
  unfold join at he ⊢
  split at he <;> rename_i hlt
  · exact .inr ⟨by rw [if_pos hlt], he⟩
  · rw [if_neg hlt]
    split at he <;> rename_i hlt'
    · exact .inl ⟨by rw [if_pos hlt'], he⟩
    · rw [if_neg hlt']
      refine (List.mem_append.mp he).imp (fun he => ⟨rfl, he⟩) fun he => ?_
      exact ⟨Nat.le_antisymm (Nat.le_of_not_lt hlt') (Nat.le_of_not_lt hlt),
        List.mem_of_mem_filter he⟩

/-- What is added at the same place, or at an earlier one, must be due as well. -/
theorem Frontier.Honest.join_of_le {a b : Frontier} (ha : a.Honest all) (hle : b.index ≤ a.index)
    (hb : ∀ e ∈ b.wanted, e.Due all b.index) : (a.join b).Honest all where
  follows := by
    obtain ⟨e, he, hfollows⟩ := ha.follows
    exact ⟨e, mem_join_left hle he, by rwa [index_join_left hle]⟩
  due e he := by
    rcases mem_join he with ⟨hindex, he⟩ | ⟨hindex, he⟩
    · exact hindex ▸ ha.due e he
    · exact hindex ▸ hb e he

theorem Frontier.Honest.join {a b : Frontier} (ha : a.Honest all) (hb : b.Honest all) :
    (a.join b).Honest all := by
  rcases Nat.lt_or_ge a.index b.index with hlt | hle
  · rwa [Frontier.join, if_pos hlt]
  · exact ha.join_of_le hle hb.due

/-- The account of a reading that may have stopped at `start` or further on. -/
def Reply.Honest (all : List Lexeme) (start : Nat) : Reply α → Prop
  | .matched _ _ missed => ∀ f ∈ missed, f.Honest all
  | .unmatched stopped missed =>
    missed.Honest all ∧ start ≤ stopped.index ∧ stopped.index ≤ missed.index
  | .refused _ _ => True

theorem Reply.Honest.mono {r : Reply α} (h : r.Honest all j) (hij : i ≤ j) : r.Honest all i := by
  cases r with
  | matched a rest missed => exact h
  | unmatched stopped missed => exact ⟨h.1, Nat.le_trans hij h.2.1, h.2.2⟩
  | refused limit place => exact h

theorem Reply.Honest.after {r : Reply α} {missed : Option Frontier} (h : r.Honest all i)
    (hmissed : ∀ f ∈ missed, f.Honest all) : (r.after missed).Honest all i := by
  cases r with
  | matched a rest missed' =>
    cases missed with
    | none => rwa [Reply.after, Option.merge_none_left]
    | some m =>
      cases missed' with
      | none => rwa [Reply.after, Option.merge_none_right]
      | some m' =>
        rintro f hf
        obtain rfl := Option.some.inj hf
        exact (hmissed m rfl).join (h m' rfl)
  | unmatched stopped missed' =>
    cases missed with
    | none => exact h
    | some m =>
      exact ⟨(hmissed m rfl).join h.1, h.2.1, Nat.le_trans h.2.2 Frontier.le_index_join⟩
  | refused limit place => trivial

namespace Phrase

/-- From `c` on, `p` keeps an honest account. -/
def Honest (all : List Lexeme) (p : Phrase α) (c : Cursor) : Prop := (p c).Honest all c.index

namespace Honest

variable {p q : Phrase α} {f : α → Phrase β} {c : Cursor} {wanted : List Expectation}
  {ok : Lexeme → Prop} {P : List Lexeme → α → Prop}

theorem pure {a : α} : Honest all (pure a) c := fun _ hf => nomatch hf

theorem bind (hc : c.After all before) (h : Honest all p c) (hreads : Consumes ok p c P)
    (hstays : StaysIn all.length p c)
    (h' : ∀ ls a rest, p.Reads c a rest → rest.After all (before ++ ls) → P ls a →
      Honest all (f a) rest) : Honest all (p >>= f) c := by
  have hin := hstays hc.isIn
  unfold Honest at h ⊢
  rw [bind_apply]
  cases hp : p c with
  | matched a rest missed =>
    rw [hp] at h hin
    obtain ⟨ls, hls, _, hP⟩ := hreads a rest ⟨missed, hp⟩
    have hrest := hc.of_read hls hin.1
    refine Reply.Honest.after ((h' ls a rest ⟨missed, hp⟩ hrest hP).mono ?_) h
    rw [hc.index, hrest.index, List.length_append]
    exact Nat.le_add_right ..
  | unmatched stopped missed =>
    rw [hp] at h
    exact h
  | refused limit place => trivial

theorem ahead {f : List Lexeme → Phrase β} (h : Honest all (f c.ahead) c) :
    Honest all (ahead >>= f) c := Reply.Honest.after h fun _ hf => nomatch hf

theorem skip_reply {f : Unit → Phrase β} (h : Honest all (f ()) c.next) :
    ((skip >>= f) c).Honest all c.next.index := Reply.Honest.after h fun _ hf => nomatch hf

theorem skip {l : Lexeme} {tl : List Lexeme} {f : Unit → Phrase β} (hc : c.After all before)
    (hl : c.ahead = l :: tl) (h : c.next.After all (before ++ [l]) → Honest all (f ()) c.next) :
    Honest all (skip >>= f) c :=
  (skip_reply (h (hc.next hl))).mono (Nat.le_succ c.index)

theorem giveUp (hfollows : ∃ e ∈ wanted, e.Follows (all.take c.index))
    (hdue : ∀ e ∈ wanted, e.Due all c.index) : Honest all (giveUp wanted : Phrase α) c :=
  ⟨⟨hfollows, hdue⟩, Nat.le_refl _, Nat.le_refl _⟩

end Honest

/-- Each of the things that are wanted may come right after `before`, and something else comes next.
-/
structure Lacks (before : List Lexeme) (next : Option Lexeme) (wanted : List Expectation) :
    Prop where
  nonempty : wanted ≠ []
  follows : ∀ e ∈ wanted, e.Follows before
  absent : ∀ e ∈ wanted, e.admits next = false

namespace Lacks

variable {c : Cursor} {wanted : List Expectation}

theorem single {e : Expectation} {next : Option Lexeme} (hfollows : e.Follows before)
    (habsent : e.admits next = false) : Lacks before next [e] :=
  ⟨List.cons_ne_nil _ _, by simpa using hfollows, by simpa using habsent⟩

theorem cons {e : Expectation} {next : Option Lexeme} (hfollows : e.Follows before)
    (habsent : e.admits next = false) (h : Lacks before next wanted) :
    Lacks before next (e :: wanted) :=
  ⟨List.cons_ne_nil _ _, List.forall_mem_cons.mpr ⟨hfollows, h.follows⟩,
    List.forall_mem_cons.mpr ⟨habsent, h.absent⟩⟩

theorem honest (hc : c.After all before) (h : Lacks before c.ahead.head? wanted) :
    Frontier.Honest all ⟨c.index, wanted⟩ where
  follows := by
    obtain ⟨e, tl, rfl⟩ := List.exists_cons_of_ne_nil h.nonempty
    exact ⟨e, List.mem_cons_self, by rw [hc.take_index]; exact h.follows e List.mem_cons_self⟩
  due e he := .missing (by rw [hc.take_index]; exact h.follows e he)
    (by rw [hc.getElem?_index]; exact h.absent e he)

end Lacks

namespace Honest

variable {p q : Phrase α} {f : Unit → Phrase β} {c : Cursor} {wanted : List Expectation}

theorem lacking (hc : c.After all before) (h : Lacks before c.ahead.head? wanted) :
    Honest all (Phrase.giveUp wanted : Phrase α) c :=
  ⟨h.honest hc, Nat.le_refl _, Nat.le_refl _⟩

theorem missing (hc : c.After all before) (hlacks : Lacks before c.ahead.head? wanted)
    (h : Honest all (f ()) c) : Honest all (Phrase.missing wanted >>= f) c :=
  Reply.Honest.after h fun f hf => by
    obtain rfl := Option.some.inj hf
    exact hlacks.honest hc

theorem refuse {limit : Limit} : Honest all (Phrase.refuse limit : Phrase α) c := trivial

theorem symbol {s : Symbol} (hc : c.After all before) (h : (Expectation.symbol s).Follows before) :
    Honest all (Phrase.symbol s) c := by
  refine .ahead ?_
  split
  · exact fun _ hf => nomatch hf
  · rename_i hs
    exact lacking hc (.single h (Expectation.admits_symbol_of_ne hs))

theorem symbol_bind {s : Symbol} (hc : c.After all before)
    (h : (Expectation.symbol s).Follows before)
    (h' : ∀ rest, rest.After all (before ++ [.symbol s]) → Honest all (f ()) rest) :
    Honest all (Phrase.symbol s >>= f) c := by
  have hreads : Consumes (fun _ => True) (Phrase.symbol s) c fun ls _ => ls = [.symbol s] :=
    .symbol trivial
  refine .bind hc (symbol hc h) hreads .symbol fun ls _ rest _ hrest hls => ?_
  subst hls
  exact h' rest hrest

/-- What is wanted where `p` gives up must be due wherever that may be. -/
theorem orWanted_reply (hc : c.After all before) (h : (p c).Honest all i)
    (hstays : StaysIn all.length p c)
    (hdue : ∀ j, i ≤ j → j ≤ all.length → ∀ e ∈ wanted, e.Due all j) :
    (p.orWanted wanted c).Honest all i := by
  have hin := hstays hc.isIn
  unfold Phrase.orWanted
  cases hp : p c with
  | matched a rest missed =>
    rw [hp] at h
    exact h
  | unmatched stopped missed =>
    rw [hp] at h hin
    refine ⟨h.1.join_of_le h.2.2 (hdue _ h.2.1 hin.1.index_le), h.2.1, ?_⟩
    rw [Frontier.index_join_left h.2.2]
    exact h.2.2
  | refused limit place => trivial

theorem orElse (h : Honest all p c) (h' : Honest all q c) : Honest all (p.orElse q) c := by
  unfold Honest Phrase.orElse at *
  cases hp : p c with
  | matched a rest missed =>
    rw [hp] at h
    exact h
  | unmatched stopped missed =>
    rw [hp] at h
    refine h'.after fun f hf => ?_
    obtain rfl := Option.some.inj hf
    exact h.1
  | refused limit place => trivial

/-- With nothing left to try. -/
theorem orElse_giveUp (h : Honest all p c) : Honest all (p.orElse (Phrase.giveUp [])) c := by
  unfold Honest Phrase.orElse at *
  cases hp : p c with
  | matched a rest missed =>
    rw [hp] at h
    exact h
  | unmatched stopped missed =>
    rw [hp] at h
    have hle := Nat.le_trans h.2.1 h.2.2
    refine ⟨h.1.join_of_le hle nofun, Nat.le_refl _, ?_⟩
    rw [Frontier.index_join_left hle]
    exact hle
  | refused limit place => trivial

end Honest

end Phrase

end DiceLang
