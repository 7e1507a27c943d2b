import DiceLang.Outcome
import DiceLang.Proofs.PlainDice
import DiceLang.Proofs.Repetition
import DiceLang.Proofs.Script

/-!
# Rolls of characters

A preset repeats a throw. Where each round of a repetition draws as many numbers as any other, the
numbers drawn fall into as many groups as there are rounds (`drawnFor`), and each group settles one
element (`exists_rounds`). From there to the outcome of a roll there is only the text to read
(`exists_run_roll`), and to the roll of a character only the preset to find.

* `Outcome.Lists`: a list of numbers, each settled by its own draws;
* `exists_run_roll`: a text that repeats a number;
* `rollCharacter_lists`: what the presets come to.
-/

namespace DiceLang

open Chance (Path Takes)

variable {σ : Type} {next? : σ → Option (Nat × σ)} {source rest : σ} {raws : List Nat}
  {count k : Nat}

/-! ## Rounds that draw alike -/

/-- Of numbers that are drawn `k` at a time, those that are drawn the `i`-th time. -/
def drawnFor (k : Nat) (raws : List Nat) (i : Nat) : List Nat := (raws.drop (i * k)).take k

theorem drawnFor_zero (k : Nat) (raws : List Nat) : drawnFor k raws 0 = raws.take k := by
  rw [drawnFor, Nat.zero_mul, List.drop_zero]

theorem drawnFor_succ (k : Nat) (raws : List Nat) (i : Nat) :
    drawnFor k raws (i + 1) = drawnFor k (raws.drop k) i := by
  rw [drawnFor, drawnFor, List.drop_drop, Nat.succ_mul, Nat.add_comm]

/-- Rounds that draw `k` numbers each and come to one element each. -/
theorem exists_rounds {item : Eval (List Element)} {P : List Nat → Element → Prop}
    (hitem : ∀ own : List Nat, own.length = k → ∃ e, Path item own (.value [e]) ∧ P own e)
    (hlength : raws.length = count * k) (htakes : Takes next? source raws rest) :
    ∃ elements, Rounds next? item count source elements rest ∧ elements.length = count ∧
      ∀ i e, elements[i]? = some e → P (drawnFor k raws i) e := by
  -- The first round takes the numbers in front; in what is left, every other comes one earlier.
  induction count generalizing raws source with
  | zero =>
    obtain rfl := List.length_eq_zero_iff.mp (hlength.trans (Nat.zero_mul k))
    cases htakes
    exact ⟨[], .none, rfl, nofun⟩
  | succ count ih =>
    rw [Nat.succ_mul] at hlength
    rw [← List.take_append_drop k raws] at htakes
    obtain ⟨mid, hfirst, hlast⟩ := htakes.of_append
    obtain ⟨e, hpath, he⟩ := hitem (raws.take k) (by rw [List.length_take]; omega)
    obtain ⟨elements, hrounds, hcount, helements⟩ := ih (by rw [List.length_drop]; omega) hlast
    refine ⟨e :: elements, .round (hpath.run hfirst) hrounds, congrArg Nat.succ hcount,
      fun i e' he' => ?_⟩
    cases i with
    | zero =>
      obtain rfl := Option.some.inj he'
      rwa [drawnFor_zero]
    | succ i =>
      rw [drawnFor_succ]
      exact helements i e' he'

/-- An item of a repetition that is taken for a number. -/
theorem Expr.path_round {limits : Limits} {inner : Expr} (hkind : inner.keepsKind = false)
    {t : Traced Int} (h : Path (inner.number limits "") raws (.value t)) :
    Path (inner.round limits) raws (.value [t.element]) := by
  rw [Expr.round, itemElements, hkind, if_neg Bool.false_ne_true]
  exact Chance.path_map_value.mpr ⟨t, h, rfl⟩

/-! ## Rolls -/

/-- The outcome is a list of `count` numbers, each settled by `k` of the numbers that are drawn. -/
def Outcome.Lists (outcome : Outcome) (count k : Nat) (raws : List Nat)
    (P : List Nat → Int → Prop) : Prop :=
  ∃ elements, outcome.value = .list elements ∧ elements.length = count ∧
    ∀ i e, elements[i]? = some e → P (drawnFor k raws i) e.value

section

variable {settings : Settings} {text description : Option String}

theorem run_roll {parsed : Roll} {t : Traced Value}
    (hparse : Roll.parse settings.limits (requested settings text) = .ok parsed)
    (hrun : (parsed.evaluate settings.limits).run next? source = (.value t, rest)) :
    (roll settings text description).run next? source =
      (.value ⟨t.value, t.trace, parsed.expr.text, description⟩, rest) := by
  rw [roll, hparse]
  exact Chance.run_bind_value_iff.mpr ⟨t, rest, Chance.run_adapt_id hrun, rfl⟩

/-- A text that repeats a number, which draws `k` raw numbers each time. -/
theorem exists_run_roll (count k : Nat) {inner : Expr} {P : List Nat → Int → Prop}
    (hparse : Roll.parse settings.limits (requested settings text) =
      .ok ⟨.list, .repeated (.int count) inner⟩)
    (hfits : count ≤ settings.limits.integerLimit) (hle : count ≤ settings.limits.maxListLength)
    (hkind : inner.keepsKind = false) (hwrite : ∃ text, inner.write = .ok text)
    (hinner : ∀ own : List Nat, own.length = k →
      ∃ t, Path (inner.number settings.limits "") own (.value t) ∧ P own t.value)
    (hlength : raws.length = count * k) (htakes : Takes next? source raws rest) :
    ∃ outcome, (roll settings text description).run next? source = (.value outcome, rest) ∧
      outcome.Lists count k raws P := by
  have hround : ∀ own : List Nat, own.length = k →
      ∃ e, Path (inner.round settings.limits) own (.value [e]) ∧ P own e.value := by
    intro own hown
    obtain ⟨t, hpath, ht⟩ := hinner own hown
    exact ⟨t.element, Expr.path_round hkind hpath, ht⟩
  obtain ⟨elements, hrounds, hcount, helements⟩ :=
    exists_rounds (P := fun own e => P own e.value) hround hlength htakes
  obtain ⟨trace, hrun⟩ := Expr.runsToList_repeated_iff.mpr
    ⟨hfits, hle, hcount.trans_le hle, hwrite, hrounds⟩
  exact ⟨_, run_roll hparse hrun, elements, rfl, hcount, helements⟩

end

/-! ## The presets -/

theorem allows_fourDice : ({} : Limits).Allows 4 6 := by constructor <;> decide

theorem allows_oneDie : ({} : Limits).Allows 1 10 := by constructor <;> decide

/-- The total of four dice without the lowest, six times. -/
theorem parse_dnd : Roll.parse {} "6#4d6dl1" = .ok ⟨.list, .repeated (.int 6)
    (.dice (some (.int 4)) (.numbered (.int 6)) [.select .dropLow (.int 1)])⟩ := by
  have hscan : Token.scan "6#4d6dl1" = .ok [⟨some (.number "6"), 0⟩, ⟨some (.symbol .hash), 1⟩,
    ⟨some (.number "4"), 2⟩, ⟨some (.word "d"), 3⟩, ⟨some (.number "6"), 4⟩,
    ⟨some (.word "dl"), 5⟩, ⟨some (.number "1"), 7⟩, ⟨none, 8⟩] := rfl
  rw [Roll.parse, hscan]
  rfl

/-- A die added to twenty, eight times. -/
theorem parse_wfrp : Roll.parse {} "8#(20+1d10)" = .ok ⟨.list, .repeated (.int 8)
    (.paren (.binary .add (.int 20) (.dice (some (.int 1)) (.numbered (.int 10)) [])))⟩ := by
  have hscan : Token.scan "8#(20+1d10)" = .ok [⟨some (.number "8"), 0⟩, ⟨some (.symbol .hash), 1⟩,
    ⟨some (.symbol .openParen), 2⟩, ⟨some (.number "20"), 3⟩, ⟨some (.symbol .plus), 5⟩,
    ⟨some (.number "1"), 6⟩, ⟨some (.word "d"), 7⟩, ⟨some (.number "10"), 8⟩,
    ⟨some (.symbol .closeParen), 10⟩, ⟨none, 11⟩] := rfl
  rw [Roll.parse, hscan]
  rfl

/-- A round of the second preset: one die, added to twenty. -/
theorem exists_path_twentyAndDie (hlength : raws.length = 1) :
    ∃ t, Path ((Expr.paren (.binary .add (.int 20)
        (.dice (some (.int 1)) (.numbered (.int 10)) []))).number {} "") raws (.value t) ∧
      (∃ face, facesOf 10 raws = [face] ∧ t.value = 20 + face) ∧ 21 ≤ t.value ∧ t.value ≤ 30 := by
  obtain ⟨t, hpath, hvalue, hbounds⟩ := exists_path_plain allows_oneDie (by decide) hlength
  obtain ⟨face, hface⟩ := List.length_eq_one_iff.mp ((length_facesOf 10 raws).trans hlength)
  have hsum : t.value = face := by
    rw [hvalue, hface, total_cons]
    exact Int.add_zero face
  have hrange : 21 ≤ 20 + t.value ∧ 20 + t.value ≤ 30 := by omega
  have hfits : (20 + t.value).natAbs ≤ ({} : Limits).integerLimit := by
    show (20 + t.value).natAbs ≤ 9223372036854775807
    omega
  have htwenty : Path ((Expr.int 20).number {} "") [] (.value ⟨20, "20"⟩) :=
    path_number_int (by decide)
  exact ⟨_, path_number_paren (path_number_add htwenty hpath hfits),
    ⟨face, hface, congrArg (20 + ·) hsum⟩, hrange⟩

theorem systemName_some {name : String} (h : name ≠ "") :
    systemName (some name) = Text.lower name := by
  rw [systemName]
  exact h

theorem systemName_of_lower {name lower : String} (h : Text.lower name = lower)
    (hlower : lower ≠ "") : systemName (some name) = lower := by
  refine (systemName_some ?_).trans h
  rintro rfl
  exact hlower h.symm

theorem rollCharacter_eq {settings : Settings} {system : Option String} {preset : Preset}
    (h : presets.find? (·.name == systemName system) = some preset) :
    rollCharacter settings system =
      roll settings (some preset.expression) (some ("genchar for " ++ systemName system)) := by
  simp only [rollCharacter, h]

/-- With no name or an empty one, or in any spelling of the name of the first preset, six numbers
are rolled, each on four dice of which the lowest does not count; in any spelling of the name of the
second, eight, each on one die. The draws are just those of the dice. Any other name is refused
before anything is drawn. -/
theorem rollCharacter_lists {σ : Type} (next? : σ → Option (Nat × σ)) (source : σ) :
    (∀ (system : Option String) (raws : List Nat) (rest : σ),
      (system = none ∨ system = some "" ∨ ∃ name, system = some name ∧ Text.lower name = "dnd") →
      raws.length = 24 → Takes next? source raws rest →
        ∃ outcome, (rollCharacter {} system).run next? source = (.value outcome, rest) ∧
          outcome.Lists 6 4 raws fun own v =>
            (∃ m, (facesOf 6 own).min? = some m ∧ v = total (facesOf 6 own) - m) ∧
              3 ≤ v ∧ v ≤ 18) ∧
    (∀ (name : String) (raws : List Nat) (rest : σ), Text.lower name = "wfrp" →
      raws.length = 8 → Takes next? source raws rest →
        ∃ outcome, (rollCharacter {} (some name)).run next? source = (.value outcome, rest) ∧
          outcome.Lists 8 1 raws fun own v =>
            (∃ face, facesOf 10 own = [face] ∧ v = 20 + face) ∧ 21 ≤ v ∧ v ≤ 30) ∧
    ∀ name : String, name ≠ "" → Text.lower name ≠ "dnd" → Text.lower name ≠ "wfrp" →
      (rollCharacter {} (some name)).run next? source =
        (.failed (.unknownSystem (Text.lower name)), source) := by
  refine ⟨fun system raws rest hsystem hlength htakes => ?_,
    fun name raws rest hname hlength htakes => ?_, fun name hne hdnd hwfrp => ?_⟩
  · have hsystem : systemName system = "dnd" := by
      obtain rfl | rfl | ⟨name, rfl, hname⟩ := hsystem
      · rfl
      · rfl
      · exact systemName_of_lower hname (by decide)
    have hpreset : presets.find? (·.name == systemName system) = some ⟨"dnd", "6#4d6dl1"⟩ := by
      rw [hsystem]
      rfl
    have hrequested : requested {} (some "6#4d6dl1") = "6#4d6dl1" := by decide +kernel
    rw [rollCharacter_eq hpreset]
    refine exists_run_roll 6 4 (hrequested ▸ parse_dnd) (by decide) (by decide) rfl ⟨_, rfl⟩
      (fun own hown => ?_) hlength htakes
    obtain ⟨t, m, hpath, hm, hvalue, hbounds⟩ :=
      exists_path_dropLowest allows_fourDice (by decide) hown
    exact ⟨t, hpath, ⟨m, hm, hvalue⟩, hbounds⟩
  · have hpreset : presets.find? (·.name == systemName (some name)) =
        some ⟨"wfrp", "8#(20+1d10)"⟩ := by
      rw [systemName_of_lower hname (by decide)]
      rfl
    have hrequested : requested {} (some "8#(20+1d10)") = "8#(20+1d10)" := by decide +kernel
    rw [rollCharacter_eq hpreset]
    exact exists_run_roll 8 1 (hrequested ▸ parse_wfrp) (by decide) (by decide) rfl ⟨_, rfl⟩
      (fun own hown => exists_path_twentyAndDie hown) hlength htakes
  · have hpreset : presets.find? (·.name == systemName (some name)) = none := by
      rw [systemName_some hne]
      simp [presets, hdnd.symm, hwfrp.symm]
    simp only [rollCharacter, hpreset]
    rw [systemName_some hne]
    rfl

/-- Numbers that show three sixes and a one, and then only ones. One more is left. -/
theorem rollCharacter_lists_dnd : ∃ outcome,
    (rollCharacter {} (some "DnD")).run Supply.next?
      ⟨.script ([5, 5, 5, 0] ++ List.replicate 20 6 ++ [9]), 0⟩ =
        (.value outcome, ⟨.script [9], 24⟩) ∧
    outcome.Lists 6 4 ([5, 5, 5, 0] ++ List.replicate 20 6) fun own v =>
      (∃ m, (facesOf 6 own).min? = some m ∧ v = total (facesOf 6 own) - m) ∧ 3 ≤ v ∧ v ≤ 18 := by
  have hname : Text.lower "DnD" = "dnd" := by decide +kernel
  exact (rollCharacter_lists Supply.next? _).1 (some "DnD") _ _ (.inr (.inr ⟨_, rfl, hname⟩)) rfl
    (Chance.takes_script_iff.mpr ⟨[9], rfl, rfl⟩)

end DiceLang
