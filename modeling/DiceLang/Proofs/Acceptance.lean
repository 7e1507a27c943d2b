import DiceLang.Proofs.Overlong
import DiceLang.Proofs.ReadingComplete

/-!
# What is accepted

A text is read as a roll just if its lexemes spell one, by the first alternative that derives them.

An alternative that is tried in vain is given up, and does not break a limit first: it takes no
level more than a later alternative that derives the same lexemes. So the order of the alternatives
decides on the kind of a roll, but not on whether there is one, nor on its tree. Only a number that
cannot be converted comes in the way, and then for whichever alternative meets it first.

* `call_or_declines`, `modifiedDice_or_declines`: what an alternative does not read is declined;
* `parse_eq_ok_iff`: a text is read as a roll just if its lexemes derive it and may all be passed
  over;
* `exists_parse_eq_ok_iff`: a tree is read just if some alternative derives it;
* `Spells.parse_eq_conversion`: what becomes of a tree with a number that cannot be converted.
-/

namespace DiceLang

open Phrase

namespace Grammar

variable {depth maxDigits n : Nat} {below : Nested → Phrase Expr} {ls after : List Lexeme}
  {e : Expr}

/-! ## What is given up -/

theorem list_givesUp {c : Cursor} (hc : c.ahead.head? ≠ some (.symbol .openBrace)) :
    (list below).GivesUp c := .bind (givesUp_symbol hc)

theorem call_givesUp {c : Cursor}
    (hc : ∀ name, isReserved name = false → c.ahead.head? ≠ some (.word name)) :
    (call below).GivesUp c := by
  refine .ahead ?_
  split
  · rename_i name hname
    split
    · exact givesUp_giveUp
    · exact absurd hname (hc name (by simpa using ‹¬ isReserved name = true›))
  · exact givesUp_giveUp

/-- How a text may start that is no repetition: with a brace, with a minus sign, or with a primary,
which is the whole tree if nothing follows it. -/
inductive Opening (depth : Nat) : List Lexeme → Expr → Prop
  | brace {tl e} : Opening depth (.symbol .openBrace :: tl) e
  | minus {tl e} : Opening depth (.symbol .minus :: tl) e
  | primary {ls₁ ls₂ e₁ e} : Derives depth 0 ls₁ (.primary e₁) → Stops 3 ls₂ →
      (ls₂ = [] → e = e₁) → Opening depth (ls₁ ++ ls₂) e

theorem Opening.list (h : Derives depth 0 ls (.list e)) : Opening depth ls e := by
  cases h
  exact .brace

theorem Opening.of_primary (h : Derives depth 0 ls (.primary e)) : Opening depth ls e := by
  rw [← List.append_nil ls]
  exact .primary h stops_nil fun _ => rfl

theorem Opening.call (h : Derives depth 0 ls (.call e)) : Opening depth ls e :=
  .of_primary (.called h)

theorem Opening.modifiedDice (h : Derives depth 0 ls (.modifiedDice e)) : Opening depth ls e := by
  cases h with
  | modifiedDice h => exact .of_primary h

theorem Opening.expr (h : Derives depth 0 ls (.expr e)) : Opening depth ls e := by
  rcases h.expr_start with ⟨tl, rfl⟩ | ⟨ls₁, ls₂, e₁, rfl, h₁, hrest, he⟩
  · exact .minus
  · exact .primary h₁ (by simpa using hrest [] stops_nil) he

theorem Opening.repetition_declines (h : Opening depth ls e)
    (hbelow : CompleteBelow depth maxDigits 0 below) (hfit : ∀ l ∈ ls, l.Fits maxDigits) (i : Nat) :
    (repetition maxDigits below).Declines ⟨i, ls⟩ := by
  cases h with
  | brace => exact (GivesUp.bind (count_givesUp (by simp [Lexeme.startsCount]))).declines
  | minus => exact (GivesUp.bind (count_givesUp (by simp [Lexeme.startsCount]))).declines
  | primary h₁ hstop =>
    exact repetition_declines_of_primary hbelow h₁ (List.forall_mem_append.mp hfit).1 hstop i

end Grammar

namespace Roll

open Grammar

variable {depth maxDigits i : Nat} {below : Nested → Phrase Expr} {ls ls₁ ls₂ : List Lexeme}
  {e : Expr} {kind : Kind} {reading : Phrase Expr} {part : Expr → Part}

/-! ## An earlier alternative -/

theorem whole_declines (h : reading.Declines ⟨i, ls⟩) :
    (whole (kind, reading)).Declines ⟨i, ls⟩ := .bind h

theorem whole_declines_of_givesUp (h : reading.GivesUp ⟨i, ls⟩) :
    (whole (kind, reading)).Declines ⟨i, ls⟩ := whole_declines h.declines

theorem whole_declines_of_takes {ok : Lexeme → Prop} (h : reading.Takes ok ls₁ ls₂ e)
    (hok : ∀ l ∈ ls₁, ok l) (hrest : ls₂ ≠ []) :
    (whole (kind, reading)).Declines ⟨i, ls₁ ++ ls₂⟩ :=
  h.declines hok (fun _ => (GivesUp.bind (givesUp_endOfInput hrest)).declines) i

/-- What is not a list is either a call or declined as one. -/
theorem call_or_declines (hbelow : CompleteBelow depth maxDigits 0 below)
    (hfit : ∀ l ∈ ls, l.Fits maxDigits) (h : Opening depth ls e) :
    Derives depth 0 ls (.call e) ∨ (whole (kind, call below)).Declines ⟨i, ls⟩ := by
  cases h with
  | brace => exact .inr (whole_declines_of_givesUp (call_givesUp (by simp)))
  | minus => exact .inr (whole_declines_of_givesUp (call_givesUp (by simp)))
  | @primary ls₁ ls₂ e₁ _ h₁ hstop he =>
    cases h₁.primary_shape with
    | count h₁ =>
      rcases h₁.count_head with ⟨digits, tl, rfl⟩ | ⟨tl, rfl⟩
      · exact .inr (whole_declines_of_givesUp (call_givesUp (by simp)))
      · exact .inr (whole_declines_of_givesUp (call_givesUp (by simp)))
    | dice hcount =>
      refine .inr (whole_declines_of_givesUp (call_givesUp fun name hname => ?_))
      cases hcount with
      | none =>
        have := ne_dieWord hname
        simp [Ne.symm this]
      | some hcount => rcases hcount.count_head with ⟨digits, tl, rfl⟩ | ⟨tl, rfl⟩ <;> simp
    | call h₁ =>
      by_cases hrest : ls₂ = []
      · rw [hrest, he hrest, List.append_nil]
        exact .inl h₁
      · exact .inr (whole_declines_of_takes
          (call_complete hbelow h₁ (stops_of_le (Nat.le_refl 4) _))
          (List.forall_mem_append.mp hfit).1 hrest)

theorem modifiedDice_declines_of_count (hbelow : CompleteBelow depth maxDigits 0 below)
    {after : List Lexeme} (hfit : ∀ l ∈ ls, l.Fits maxDigits) (h : Derives depth 0 ls (.count e))
    (hafter : after.head? ≠ some (.word dieWord)) :
    (modifiedDice maxDigits below).Declines ⟨i, ls ++ after⟩ := by
  refine .ahead ?_
  rw [if_neg]
  · refine (count_complete hbelow h (stops_of_le (Nat.le_refl 4) after)).declines hfit
      (fun j => .ahead ?_) i
    rw [if_neg hafter]
    exact givesUp_giveUp.declines
  · rcases h.count_head with ⟨digits, tl, rfl⟩ | ⟨tl, rfl⟩ <;> simp

theorem modified_declines {ok : Lexeme → Prop} {dice : Phrase Expr} (h : dice.Takes ok ls ls₁ e)
    (hok : ∀ l ∈ ls, ok l) (he : ∀ count d m ms, e ≠ .dice count d (m :: ms)) :
    (modified dice).Declines ⟨i, ls ++ ls₁⟩ := by
  refine (Takes.orWanted h).declines hok (fun j => ?_) i
  split
  · exact absurd rfl (he _ _ _ _)
  · exact givesUp_giveUp.declines

theorem modifiedDice_declines_of_nil (hbelow : CompleteBelow depth maxDigits 0 below)
    {ls₃ after : List Lexeme} {count : Option Expr} {d : Die Expr}
    (hcount : CountDerives depth 0 count ls₁) (hd : Derives depth 0 ls₂ (.die d))
    (hms : Derives depth 0 ls₃ (.modifiers []))
    (hfit : ∀ l ∈ ls₁ ++ .word dieWord :: (ls₂ ++ ls₃), l.Fits maxDigits) (hstop : Stops 3 after) :
    (modifiedDice maxDigits below).Declines ⟨i, ls₁ ++ .word dieWord :: (ls₂ ++ ls₃) ++ after⟩ := by
  obtain ⟨hfit₁, hfit₂⟩ := List.forall_mem_append.mp hfit
  have hdice : ∀ i, (modified (dice maxDigits below count)).Declines
      ⟨i, .word dieWord :: (ls₂ ++ ls₃) ++ after⟩ := fun i =>
    modified_declines (dice_complete hbelow hd hms hstop) hfit₂
      (by cases count <;> simp [diceExpr])
  refine .ahead ?_
  cases hcount with
  | none =>
    rw [List.nil_append, List.cons_append, List.head?_cons, if_pos rfl]
    exact hdice i
  | some h =>
    rw [if_neg, List.append_assoc]
    · refine (count_complete hbelow h (stops_of_le (Nat.le_refl 4) _)).declines hfit₁
        (fun j => .ahead ?_) i
      rw [List.cons_append, List.head?_cons, if_pos rfl]
      exact hdice j
    · rcases h.count_head with ⟨digits, tl, rfl⟩ | ⟨tl, rfl⟩ <;> simp

/-- What is neither a list nor a call is either a set of dice with modifiers or declined as one. -/
theorem modifiedDice_or_declines (hbelow : CompleteBelow depth maxDigits 0 below)
    (hfit : ∀ l ∈ ls, l.Fits maxDigits) (h : Opening depth ls e) :
    Derives depth 0 ls (.modifiedDice e) ∨
      (whole (kind, modifiedDice maxDigits below)).Declines ⟨i, ls⟩ := by
  have other : ∀ {l tl}, l ≠ .word dieWord → l.startsCount = false →
      (whole (kind, modifiedDice maxDigits below)).Declines ⟨i, l :: tl⟩ := fun hl hl' => by
    refine whole_declines_of_givesUp (.ahead ?_)
    rw [if_neg (by simpa using hl)]
    exact .bind (count_givesUp (by simpa using hl'))
  cases h with
  | brace => exact .inr (other (by simp) rfl)
  | minus => exact .inr (other (by simp) rfl)
  | @primary ls₁ ls₂ e₁ _ h₁ hstop he =>
    have hfit₁ := (List.forall_mem_append.mp hfit).1
    cases h₁.primary_shape with
    | count h₁ =>
      exact .inr (whole_declines (modifiedDice_declines_of_count hbelow hfit₁ h₁
        (hstop.head_ne (by decide))))
    | @dice _ _ _ count d ms hcount hd hms =>
      cases ms with
      | nil =>
        exact .inr (whole_declines (modifiedDice_declines_of_nil hbelow hcount hd hms hfit₁
          hstop))
      | cons m ms =>
        have h₁ : Derives depth 0 _ (.modifiedDice (.dice count d (m :: ms))) := .modifiedDice <| by
          cases count <;> exact h₁
        have he : ls₂ = [] → e = .dice count d (m :: ms) := fun hrest => by
          rw [he hrest]
          cases count <;> rfl
        by_cases hrest : ls₂ = []
        · rw [hrest, he hrest, List.append_nil]
          exact .inl h₁
        · exact .inr (whole_declines_of_takes (modifiedDice_complete hbelow h₁ hstop) hfit₁
            hrest)
    | call h₁ =>
      obtain ⟨name, tl, rfl, hname⟩ := h₁.call_head
      exact .inr (other (by simpa using ne_dieWord hname) rfl)

/-! ## The alternatives in order -/

/-- An alternative of a roll: its kind, how it is read and what it derives. -/
structure Alternative where
  kind : Kind
  reading : Phrase Expr
  part : Expr → Part

/-- How an alternative reads a whole text. -/
def Alternative.phrase (a : Alternative) : Phrase Roll := whole (a.kind, a.reading)

/-- At the start of a text, the alternative reads what it derives and nothing else, unless a number
cannot be converted. -/
structure Alternative.Exact (depth maxDigits : Nat) (a : Alternative) : Prop where
  sound : Sound depth maxDigits 0 a.reading a.part
  complete : ∀ {ls e}, Derives depth 0 ls (a.part e) →
    a.reading.Takes (Lexeme.Fits maxDigits) ls [] e
  keeps : ∀ ls, a.phrase.KeepsTo (.behind maxDigits ls) ⟨0, ls⟩

/-- What a later alternative derives, an earlier one either derives too, as the same tree, or
declines. -/
def Alternative.Yields (depth maxDigits : Nat) (earlier later : Alternative) : Prop :=
  ∀ {ls e}, Derives depth 0 ls (later.part e) → (∀ l ∈ ls, l.Fits maxDigits) →
    Derives depth 0 ls (earlier.part e) ∨ earlier.phrase.Declines ⟨0, ls⟩

variable {a b : Alternative} {rows : List Alternative} {roll : Roll}

theorem Alternative.Exact.reads_or_stumbles (h : a.Exact depth maxDigits)
    (hfit : ∀ l ∈ ls, l.Fits maxDigits) (hder : Derives depth 0 ls (a.part e)) :
    (∃ rest, a.phrase.Reads ⟨0, ls⟩ ⟨a.kind, e⟩ rest) ∨ a.phrase.Stumbles ⟨0, ls⟩ := by
  have htakes : a.phrase.Takes (Lexeme.Fits maxDigits) ls [] ⟨a.kind, e⟩ :=
    .map (h.complete hder) (.map .endOfInput .pure)
  have hstart := htakes hfit 0
  rw [List.append_nil] at hstart
  exact hstart.imp_left fun ⟨_, hread⟩ => ⟨_, hread⟩

theorem Alternative.Exact.reads_iff (h : a.Exact depth maxDigits) :
    (∃ rest, a.phrase.Reads ⟨0, ls⟩ roll rest) ↔
      (∀ l ∈ ls, l.Passable maxDigits) ∧
        ∃ e, roll = ⟨a.kind, e⟩ ∧ Derives depth 0 ls (a.part e) := by
  constructor
  · rintro ⟨rest, hread⟩
    obtain ⟨e, mid, he, hend⟩ := reads_bind.mp hread
    obtain ⟨u, mid', hend, hroll⟩ := reads_bind.mp hend
    obtain ⟨hnil, rfl⟩ := reads_endOfInput.mp hend
    obtain ⟨rfl, rfl⟩ := reads_pure.mp hroll
    obtain ⟨ls', hls, hpass, hder⟩ := h.sound _ e mid he
    rw [hnil, List.append_nil] at hls
    subst hls
    exact ⟨hpass, e, rfl, hder⟩
  · rintro ⟨hpass, e, rfl, hder⟩
    exact (h.reads_or_stumbles (fun l hl => (hpass l hl).fits) hder).resolve_right
      ((h.keeps ls).not_stumbles fun l hl => (hpass l hl).converts)

/-- Where all lexemes may be passed over, what is declined is given up. -/
theorem Alternative.Exact.givesUp (h : a.Exact depth maxDigits)
    (hpass : ∀ l ∈ ls, l.Passable maxDigits) (hdeclines : a.phrase.Declines ⟨0, ls⟩) :
    a.phrase.GivesUp ⟨0, ls⟩ :=
  hdeclines.resolve_right ((h.keeps ls).not_stumbles fun l hl => (hpass l hl).converts)

/-- The first of the alternatives that reads the whole text. -/
def first (rows : List Alternative) : Phrase Roll :=
  (rows.map Alternative.phrase).foldr orElse (giveUp [])

theorem first_reads_iff (hexact : ∀ a ∈ rows, a.Exact depth maxDigits)
    (hyields : rows.Pairwise (Alternative.Yields depth maxDigits)) :
    (∃ rest, (first rows).Reads ⟨0, ls⟩ roll rest) ↔
      (∀ l ∈ ls, l.Passable maxDigits) ∧
        DerivesFirst depth ls (rows.map fun a => (a.kind, a.part)) roll := by
  induction rows with
  | nil =>
    constructor
    · rintro ⟨rest, hread⟩
      exact absurd hread reads_giveUp
    · rintro ⟨_, hder⟩
      cases hder
  | cons a rows ih =>
    obtain ⟨hyields, hrows⟩ := List.pairwise_cons.mp hyields
    have ih := ih (fun b hb => hexact b (List.mem_cons_of_mem _ hb)) hrows
    have ha := hexact a List.mem_cons_self
    constructor
    · rintro ⟨rest, hread⟩
      rcases reads_orElse.mp hread with hread | ⟨hgive, hread⟩
      · obtain ⟨hpass, e, rfl, hder⟩ := ha.reads_iff.mp ⟨rest, hread⟩
        exact ⟨hpass, .here hder⟩
      · obtain ⟨hpass, hder⟩ := ih.mp ⟨rest, hread⟩
        refine ⟨hpass, .later (fun e he => ?_) hder⟩
        obtain ⟨rest', hread'⟩ := ha.reads_iff.mpr ⟨hpass, e, rfl, he⟩
        exact hgive.not_reads hread'
    · rintro ⟨hpass, hder⟩
      cases hder with
      | here hder =>
        obtain ⟨rest, hread⟩ := ha.reads_iff.mpr ⟨hpass, _, rfl, hder⟩
        exact ⟨rest, reads_orElse.mpr (.inl hread)⟩
      | later hno hder =>
        obtain ⟨rest, hread⟩ := ih.mpr ⟨hpass, hder⟩
        obtain ⟨_, hb, hb'⟩ := hder.exists_mem
        obtain ⟨b, hmem, rfl⟩ := List.mem_map.mp hb
        have hdeclines := (hyields b hmem hb' fun l hl => (hpass l hl).fits).resolve_left (hno _)
        exact ⟨rest, reads_orElse.mpr (.inr ⟨ha.givesUp hpass hdeclines, hread⟩)⟩

/-- Whichever alternative derives a tree, the first one that derives any derives it. -/
theorem first_derives_iff (hexact : ∀ a ∈ rows, a.Exact depth maxDigits)
    (hyields : rows.Pairwise (Alternative.Yields depth maxDigits))
    (hpass : ∀ l ∈ ls, l.Passable maxDigits) :
    (∃ kind, DerivesFirst depth ls (rows.map fun a => (a.kind, a.part)) ⟨kind, e⟩) ↔
      ∃ a ∈ rows, Derives depth 0 ls (a.part e) := by
  have hfit : ∀ l ∈ ls, l.Fits maxDigits := fun l hl => (hpass l hl).fits
  constructor
  · rintro ⟨kind, hder⟩
    obtain ⟨_, ha, ha'⟩ := hder.exists_mem
    obtain ⟨a, hmem, rfl⟩ := List.mem_map.mp ha
    exact ⟨a, hmem, ha'⟩
  · induction rows with
    | nil =>
      rintro ⟨a, ha, _⟩
      cases ha
    | cons a rows ih =>
      obtain ⟨hyields, hrows⟩ := List.pairwise_cons.mp hyields
      rintro ⟨b, hb, hder⟩
      rcases List.mem_cons.mp hb with rfl | hb
      · exact ⟨_, .here hder⟩
      · by_cases hhead : ∃ e', Derives depth 0 ls (a.part e')
        · have ha := hexact a List.mem_cons_self
          refine ⟨_, .here ((hyields b hb hder hfit).resolve_right fun hdeclines => ?_)⟩
          obtain ⟨e', he'⟩ := hhead
          obtain ⟨rest, hread⟩ := ha.reads_iff.mpr ⟨hpass, e', rfl, he'⟩
          exact hdeclines.not_reads hread
        · obtain ⟨kind, hlater⟩ := ih (fun b hb => hexact b (List.mem_cons_of_mem _ hb)) hrows
            ⟨b, hb, hder⟩
          exact ⟨kind, .later (fun e' he' => hhead ⟨e', he'⟩) hlater⟩

/-- What some alternative derives is stumbled over, if a number in it cannot be converted. -/
theorem first_stumbles (hexact : ∀ a ∈ rows, a.Exact depth maxDigits)
    (hyields : rows.Pairwise (Alternative.Yields depth maxDigits))
    (hfit : ∀ l ∈ ls, l.Fits maxDigits) (hlong : ¬ ∀ l ∈ ls, l.Converts) (hb : b ∈ rows)
    (hder : Derives depth 0 ls (b.part e)) : (first rows).Stumbles ⟨0, ls⟩ := by
  induction rows with
  | nil => cases hb
  | cons a rows ih =>
    obtain ⟨hyields, hrows⟩ := List.pairwise_cons.mp hyields
    have ha := hexact a List.mem_cons_self
    have own : Derives depth 0 ls (a.part e) → a.phrase.Stumbles ⟨0, ls⟩ := fun hder =>
      (ha.reads_or_stumbles hfit hder).resolve_left fun hread =>
        hlong fun l hl => ((ha.reads_iff.mp hread).1 l hl).converts
    rcases List.mem_cons.mp hb with rfl | hb
    · exact stumbles_orElse.mpr (.inl (own hder))
    · rcases hyields b hb hder hfit with hder' | hgive | hstumbles
      · exact stumbles_orElse.mpr (.inl (own hder'))
      · exact stumbles_orElse.mpr
          (.inr ⟨hgive, ih (fun b hb => hexact b (List.mem_cons_of_mem _ hb)) hrows hb⟩)
      · exact stumbles_orElse.mpr (.inl hstumbles)

/-! ## Whole texts -/

/-- The five alternatives, as they are read and as they are derived. -/
def table (limits : Limits) : List Alternative :=
  List.zipWith (fun r a => ⟨r.1, r.2, a.2⟩) (readings limits) alternatives

theorem table_exact (limits : Limits) :
    ∀ a ∈ table limits, a.Exact limits.maxDepth limits.maxDigits := by
  have hsound : SoundBelow limits.maxDepth limits.maxDigits 0
      (nested limits.maxDigits limits.maxDepth) := nested_sound (Nat.zero_add _)
  have hcomplete : CompleteBelow limits.maxDepth limits.maxDigits 0
      (nested limits.maxDigits limits.maxDepth) := nested_complete (Nat.zero_add _)
  have hkeeps : ∀ ls, Closed limits.maxDigits (KeepsTo (.behind limits.maxDigits ls)) := fun _ =>
    KeepsTo.closed Places.behind_lasting
  have hnested := fun ls => (hkeeps ls).nested limits.maxDepth
  simp only [table, readings, alternatives, List.zipWith, List.forall_mem_cons]
  exact ⟨⟨repetition_sound hsound, fun h => repetition_complete hcomplete h stops_nil,
      fun ls => (hkeeps ls).whole _ ((hkeeps ls).repetition (hnested ls) _)⟩,
    ⟨list_sound hsound, fun h => list_complete hcomplete h stops_nil,
      fun ls => (hkeeps ls).whole _ ((hkeeps ls).list (hnested ls) _)⟩,
    ⟨call_sound hsound, fun h => call_complete hcomplete h stops_nil,
      fun ls => (hkeeps ls).whole _ ((hkeeps ls).call (hnested ls) _)⟩,
    ⟨modifiedDice_sound hsound, fun h => modifiedDice_complete hcomplete h stops_nil,
      fun ls => (hkeeps ls).whole _ ((hkeeps ls).modifiedDice (hnested ls) _)⟩,
    ⟨expr_sound hsound, fun h => expr_complete hcomplete h stops_nil,
      fun ls => (hkeeps ls).whole _ (hnested ls .sum _)⟩, nofun⟩

theorem table_yields (limits : Limits) :
    (table limits).Pairwise (Alternative.Yields limits.maxDepth limits.maxDigits) := by
  have hbelow : CompleteBelow limits.maxDepth limits.maxDigits 0
      (nested limits.maxDigits limits.maxDepth) := nested_complete (Nat.zero_add _)
  have noRepetition : ∀ {ls e kind}, Opening limits.maxDepth ls e →
      (∀ l ∈ ls, l.Fits limits.maxDigits) → (whole (kind, repetition limits.maxDigits
        (nested limits.maxDigits limits.maxDepth))).Declines ⟨0, ls⟩ :=
    fun h hfit => whole_declines (h.repetition_declines hbelow hfit _)
  have noList : ∀ {ls kind part}, Derives limits.maxDepth 0 ls part → part.isOptional = false →
      part.startsWith (.symbol .openBrace) = false → (whole (kind, list
        (nested limits.maxDigits limits.maxDepth))).Declines ⟨0, ls⟩ := fun h hpart hbrace => by
    obtain ⟨l, tl, rfl, hl⟩ := h.first hpart
    refine whole_declines_of_givesUp (list_givesUp fun e => ?_)
    obtain rfl := Option.some.inj e
    simp [hbrace] at hl
  simp only [table, readings, alternatives, List.zipWith, List.pairwise_cons,
    List.forall_mem_cons]
  exact ⟨⟨fun h hfit => .inr (noRepetition (.list h) hfit),
      fun h hfit => .inr (noRepetition (.call h) hfit),
      fun h hfit => .inr (noRepetition (.modifiedDice h) hfit),
      fun h hfit => .inr (noRepetition (.expr h) hfit), nofun⟩,
    ⟨fun h _ => .inr (noList h rfl rfl), fun h _ => .inr (noList h rfl rfl),
      fun h _ => .inr (noList h rfl rfl), nofun⟩,
    ⟨fun h hfit => call_or_declines hbelow hfit (.modifiedDice h),
      fun h hfit => call_or_declines hbelow hfit (.expr h), nofun⟩,
    ⟨fun h hfit => modifiedDice_or_declines hbelow hfit (.expr h), nofun⟩, nofun, .nil⟩

theorem ofTokens_eq_ok_iff {limits : Limits} {tokens : List Token} :
    ofTokens limits tokens = .ok roll ↔
      ∃ rest, (phrase limits).Reads ⟨0, tokens.filterMap Token.lexeme⟩ roll rest := by
  unfold ofTokens Phrase.Reads
  split <;> simp_all

/-- A text is read as a roll just if it is made of lexemes that spell the roll. -/
theorem parse_eq_ok_iff {limits : Limits} {text : String} :
    parse limits text = .ok roll ↔ ∃ tokens, Token.scan text = .ok tokens ∧
      (∀ l ∈ tokens.filterMap Token.lexeme, l.Passable limits.maxDigits) ∧
      DerivesRoll limits.maxDepth (tokens.filterMap Token.lexeme) roll := by
  have htokens : ∀ tokens, ofTokens limits tokens = .ok roll ↔
      (∀ l ∈ tokens.filterMap Token.lexeme, l.Passable limits.maxDigits) ∧
        DerivesRoll limits.maxDepth (tokens.filterMap Token.lexeme) roll := fun tokens =>
    ofTokens_eq_ok_iff.trans (first_reads_iff (table_exact limits) (table_yields limits))
  unfold parse
  cases Token.scan text with
  | error e => simp [bind, Except.bind, Except.mapError]
  | ok tokens =>
    simp only [Except.mapError, bind, Except.bind, htokens, Except.ok.injEq, exists_eq_left']

/-- The text is made of lexemes from which one of the alternatives derives the tree; no number has
more digits than the largest, and no level is deeper than the limits allow. -/
def Spells (limits : Limits) (text : String) (e : Expr) : Prop :=
  ∃ tokens, Token.scan text = .ok tokens ∧
    (∀ l ∈ tokens.filterMap Token.lexeme, l.Fits limits.maxDigits) ∧
    ∃ a ∈ alternatives, Derives limits.maxDepth 0 (tokens.filterMap Token.lexeme) (a.2 e)

/-- All numbers of the text can be converted. -/
def Convertible (text : String) : Prop :=
  ∀ tokens, Token.scan text = .ok tokens → ∀ l ∈ tokens.filterMap Token.lexeme, l.Converts

theorem convertible_iff {text : String} {tokens : List Token}
    (hscan : Token.scan text = .ok tokens) :
    Convertible text ↔ ∀ l ∈ tokens.filterMap Token.lexeme, l.Converts := by
  refine ⟨fun h => h tokens hscan, fun h tokens' hscan' => ?_⟩
  obtain rfl := Except.ok.inj (hscan.symm.trans hscan')
  exact h

theorem exists_parse_eq_ok_iff {limits : Limits} {text : String} :
    (∃ kind, parse limits text = .ok ⟨kind, e⟩) ↔ Spells limits text e ∧ Convertible text := by
  have htree : ∀ {ls}, (∀ l ∈ ls, l.Passable limits.maxDigits) →
      ((∃ kind, DerivesRoll limits.maxDepth ls ⟨kind, e⟩) ↔
        ∃ a ∈ alternatives, Derives limits.maxDepth 0 ls (a.2 e)) := fun hpass => by
    refine (first_derives_iff (table_exact limits) (table_yields limits) hpass).trans ?_
    simp [table, readings, alternatives]
  simp only [parse_eq_ok_iff]
  constructor
  · rintro ⟨kind, tokens, hscan, hpass, hder⟩
    exact ⟨⟨tokens, hscan, fun l hl => (hpass l hl).fits, (htree hpass).mp ⟨kind, hder⟩⟩,
      (convertible_iff hscan).mpr fun l hl => (hpass l hl).converts⟩
  · rintro ⟨⟨tokens, hscan, hfit, hder⟩, hconverts⟩
    have hpass : ∀ l ∈ tokens.filterMap Token.lexeme, l.Passable limits.maxDigits := fun l hl =>
      ⟨hfit l hl, (convertible_iff hscan).mp hconverts l hl⟩
    obtain ⟨kind, hder⟩ := (htree hpass).mpr hder
    exact ⟨kind, tokens, hscan, hpass, hder⟩

/-- Where a tree is spelled but a number cannot be converted, reading breaks off. -/
theorem Spells.exists_conversion {limits : Limits} {text : String} (h : Spells limits text e)
    (hlong : ¬ Convertible text) :
    ∃ length, parse limits text = .error (.conversion length) := by
  obtain ⟨tokens, hscan, hfit, hder⟩ := h
  rw [convertible_iff hscan] at hlong
  have hrow : ∃ b ∈ table limits,
      Derives limits.maxDepth 0 (tokens.filterMap Token.lexeme) (b.part e) := by
    simpa [table, readings, alternatives] using hder
  obtain ⟨b, hb, hder⟩ := hrow
  obtain ⟨place, hplace⟩ : (phrase limits).Stumbles ⟨0, tokens.filterMap Token.lexeme⟩ :=
    first_stumbles (table_exact limits) (table_yields limits) hfit hlong hb hder
  refine ⟨(textOf (tokenAt tokens place.index)).length, ?_⟩
  rw [ofTokens_of_scan hscan, ofTokens, hplace]

/-- If the largest number can be converted, a number that fits and yet cannot be has zeros in front
of it. -/
theorem exists_zero_of_conversion {limits : Limits} {text : String} {length : Nat}
    (hlimit : limits.maxDigits ≤ Text.maxNumeralLength)
    (h : parse limits text = .error (.conversion length)) :
    ∃ tokens digits, Token.scan text = .ok tokens ∧
      .number digits ∈ tokens.filterMap Token.lexeme ∧ digits.toList.head? = some '0' ∧
      digits.length = length ∧ Text.maxNumeralLength < length := by
  cases hscan : Token.scan text with
  | error e =>
    rw [parse, hscan] at h
    cases h
  | ok tokens =>
    rw [ofTokens_of_scan hscan] at h
    obtain ⟨digits, hmem, rfl, hfits, hlong⟩ := exists_unconverted (.of_scan hscan) h
    exact ⟨tokens, digits, rfl, hmem, hfits.head?_eq_zero (Nat.lt_of_le_of_lt hlimit hlong), rfl,
      hlong⟩

/-- Reading accepts the trees that the grammar derives, and no others: the tree is the one that any
of the alternatives derives, the kind is that of the first of them, and whatever is not derived is
an error. So it is for a text whose numbers can all be converted; where one of them cannot be, for
the zeros in front of it, what is derived is no error either, but makes the reading break off. -/
theorem parse_exact (limits : Limits) (hlimit : limits.maxDigits ≤ Text.maxNumeralLength)
    (text : String) :
    (∀ e, (∃ kind, parse limits text = .ok ⟨kind, e⟩) ↔
      Spells limits text e ∧ Convertible text) ∧
    (∀ roll, parse limits text = .ok roll ↔ ∃ tokens, Token.scan text = .ok tokens ∧
      (∀ l ∈ tokens.filterMap Token.lexeme, l.Passable limits.maxDigits) ∧
      DerivesRoll limits.maxDepth (tokens.filterMap Token.lexeme) roll) ∧
    (Convertible text → ((∃ error, parse limits text = .error (.error error)) ↔
      ¬ ∃ e, Spells limits text e)) ∧
    (∀ e, Spells limits text e → ¬ Convertible text →
      ∃ length, parse limits text = .error (.conversion length)) ∧
    ∀ length, parse limits text = .error (.conversion length) →
      ∃ tokens digits, Token.scan text = .ok tokens ∧
        .number digits ∈ tokens.filterMap Token.lexeme ∧ digits.toList.head? = some '0' ∧
        digits.length = length ∧ Text.maxNumeralLength < length := by
  refine ⟨fun e => exists_parse_eq_ok_iff, fun roll => parse_eq_ok_iff, fun hconverts => ?_,
    fun e h => h.exists_conversion, fun length => exists_zero_of_conversion hlimit⟩
  have hread : ∀ e, (∃ kind, parse limits text = .ok ⟨kind, e⟩) ↔ Spells limits text e := fun e =>
    exists_parse_eq_ok_iff.trans (and_iff_left hconverts)
  simp only [← hread]
  cases hparse : parse limits text with
  | ok roll => simpa using ⟨roll.expr, roll.kind, rfl⟩
  | error failure =>
    cases failure with
    | error e => simp
    | conversion length =>
      obtain ⟨tokens, digits, hscan, hmem, _, rfl, hlong⟩ :=
        exists_zero_of_conversion hlimit hparse
      have hconverts : digits.length ≤ Text.maxNumeralLength := hconverts tokens hscan _ hmem
      exact absurd hconverts (Nat.not_le.mpr hlong)

/-- A number may have zeros in front of it. -/
theorem parse_exact_zero_seven : ({} : Limits).maxDigits ≤ Text.maxNumeralLength ∧
    parse {} "07" = .ok ⟨.scalar, .int 7⟩ ∧ Spells {} "07" (.int 7) ∧ Convertible "07" := by
  have hlimit : ({} : Limits).maxDigits ≤ Text.maxNumeralLength := by
    rw [Limits.maxDigits_default]
    decide
  have hparse : parse {} "07" = .ok ⟨.scalar, .int 7⟩ := rfl
  exact ⟨hlimit, hparse, ((parse_exact {} hlimit "07").1 (.int 7)).mp ⟨_, hparse⟩⟩

theorem numeral_zeros (n : Nat) : Text.numeral (zeros n) = 0 := by
  rw [Text.numeral, zeros, String.toList_ofList, ← Text.foldl_digits_dropWhile]
  simp

/-- Zeros spell the number zero, however many they are. -/
theorem spells_zeros {limits : Limits} (hdepth : 0 < limits.maxDepth) {n : Nat} (hn : n ≠ 0) :
    Spells limits (zeros n) (.int 0) := by
  obtain ⟨tokens, hscan, htokens⟩ := exists_scan_zeros hn
  have hcount : Derives limits.maxDepth 1 [.number (zeros n)] (.count (.int 0)) := by
    simpa [numeral_zeros] using (Derives.int : Derives limits.maxDepth 1 [.number (zeros n)] _)
  have hproduct : Derives limits.maxDepth 1 [.number (zeros n)] (.product (.int 0)) :=
    .product (.plain (.base (.number hcount))) .productEnd
  have hexpr : Derives limits.maxDepth 0 [.number (zeros n)] (.expr (.int 0)) :=
    .expr hdepth hproduct .sumEnd
  refine ⟨tokens, hscan, ?_, (.scalar, .expr), by simp [alternatives], htokens ▸ hexpr⟩
  simp [htokens, Lexeme.Fits, zeros]

/-- A tree that is spelled need not be read, nor need there be an error: so it is with a zero that
is written with too many zeros. -/
theorem parse_exact_zeros :
    parse {} (zeros (Text.maxNumeralLength + 1)) = .error (.conversion 4301) ∧
      Spells {} (zeros (Text.maxNumeralLength + 1)) (.int 0) ∧
      ¬ ∀ (limits : Limits) (text : String),
        (∀ e, (∃ kind, parse limits text = .ok ⟨kind, e⟩) ↔ Spells limits text e) ∧
        ((∃ error, parse limits text = .error (.error error)) ↔
          ¬ ∃ e, Spells limits text e) := by
  have hparse : parse {} (zeros (Text.maxNumeralLength + 1)) = .error (.conversion 4301) :=
    parse_zeros {} (Nat.lt_succ_self _)
  have hspells : Spells {} (zeros (Text.maxNumeralLength + 1)) (.int 0) :=
    spells_zeros (by decide) (Nat.succ_ne_zero _)
  refine ⟨hparse, hspells, fun h => ?_⟩
  obtain ⟨kind, hread⟩ := ((h {} _).1 (.int 0)).mpr hspells
  cases hparse.symm.trans hread

end Roll

end DiceLang
