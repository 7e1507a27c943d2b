import DiceLang.Proofs.RoundTrip
import Mathlib.Order.Bounds.Defs

/-!
# How high a tree may be

A level that is entered for an operand is left again once the operands of its chain have been read,
but the tree that the chain makes lies above all of them. So an operand in parentheses may use the
levels of the chain that it starts once more, and the height of a tree is bounded by the square of
the depth that is allowed, not by a multiple of it.

* `Derives.heightLe`: the height of a phrase, by the levels that are left to it;
* `tallest`: a tree that is as high as a depth allows, and `spellable_tallest`: it is derived;
* `Roll.height_isGreatest`: the greatest height of a tree that is read.
-/

namespace DiceLang

mutual

/-- The number of nodes on the longest path from the root to a leaf. A die is a node of its own,
whether it stands alone or in a set of dice; a modifier is none. -/
def Expr.height : Expr → Nat
  | .int _ => 1
  | .paren inner => inner.height + 1
  | .binary _ left right => max left.height right.height + 1
  | .negate inner => inner.height + 1
  | .die d => d.height
  | .dice count d ms => max (countHeight count) (max d.height (modifiersHeight ms)) + 1
  | .call _ args => exprsHeight args + 1
  | .list items => exprsHeight items + 1
  | .repeated count inner => max count.height inner.height + 1
  | .gap _ => 0

def exprsHeight : List Expr → Nat
  | [] => 0
  | e :: es => max e.height (exprsHeight es)

def countHeight : Option Expr → Nat
  | none => 0
  | some e => e.height

def Die.height : Die Expr → Nat
  | .numbered sides => sides.height + 1
  | .custom faces => exprsHeight faces + 1

def Condition.height : Condition Expr → Nat
  | ⟨_, target⟩ => target.height

def Modifier.height : Modifier Expr → Nat
  | .select _ count => count.height
  | .filter _ c => c.height
  | .reroll _ c => c.height
  | .explode none => 0
  | .explode (some c) => c.height

def modifiersHeight : List (Modifier Expr) → Nat
  | [] => 0
  | m :: ms => max m.height (modifiersHeight ms)

end

namespace Grammar

variable {depth n levels : Nat} {ls : List Lexeme} {part : Part}

/-- One more than the height of the highest expression with so many levels left. -/
def reach (levels : Nat) : Nat := levels * (levels + 3)

theorem reach_succ (levels : Nat) : reach (levels + 1) = reach levels + 2 * levels + 4 := by
  unfold reach
  ring

/-- With so many levels left, the phrase's tree is no higher than this. What follows an operand adds
to the height of what stands to its left. -/
def Part.HeightLe (levels : Nat) : Part → Prop
  | .expr e => e.height < reach levels
  | .count e | .list e => e.height ≤ max 1 (reach levels)
  | .condition c => c.height ≤ max 1 (reach levels)
  | .modifier m => m.height ≤ max 1 (reach levels)
  | .modifiers ms => modifiersHeight ms ≤ max 1 (reach levels)
  | .die d => d.height ≤ max 1 (reach levels) + 1
  | .item _ e | .repetition e => e.height ≤ max 1 (reach levels) + 1
  | .items _ es => exprsHeight es ≤ max 1 (reach levels) + 1
  | .primary e | .call e | .modifiedDice e => e.height ≤ max 1 (reach levels) + 2
  | .power e | .negation e => e.height ≤ reach levels + 3
  | .product e => e.height ≤ reach levels + levels + 3
  | .productRest left e => e.height ≤ max left.height (reach levels + 3) + levels
  | .sumRest left e => e.height ≤ max left.height (reach levels + levels + 3) + levels

/-- Where a level is entered, one is left. -/
theorem exists_levels (hn : n < depth) (hlevels : depth = n + levels) :
    ∃ k, levels = k + 1 ∧ depth = n + 1 + k :=
  ⟨levels - 1, by omega, by omega⟩

theorem Derives.heightLe (h : Derives depth n ls part) (hlevels : depth = n + levels) :
    part.HeightLe levels := by
  induction h generalizing levels with
  -- A level is entered.
  | expr hn _ _ ih₁ ih₂ | sumNext _ hn _ _ ih₁ ih₂ | productNext _ hn _ _ ih₁ ih₂ =>
    obtain ⟨k, rfl, hk⟩ := exists_levels hn hlevels
    have h₁ := ih₁ hk
    have h₂ := ih₂ hk
    simp only [Part.HeightLe, Expr.height, reach_succ] at h₁ h₂ ⊢
    omega
  | power hn _ _ ih₁ ih₂ =>
    obtain ⟨k, rfl, hk⟩ := exists_levels hn hlevels
    have h₁ := ih₁ hlevels
    have h₂ := ih₂ hk
    simp only [Part.HeightLe, Expr.height, reach_succ] at h₁ h₂ ⊢
    omega
  | minus hn _ ih | custom hn _ ih | list hn _ ih | call _ hn _ ih =>
    obtain ⟨k, rfl, hk⟩ := exists_levels hn hlevels
    have h₁ := ih hk
    simp only [Part.HeightLe, Expr.height, Die.height, reach_succ] at h₁ ⊢
    omega
  -- The parts are at the level of the whole.
  | sumEnd | productEnd | int | explode | noModifier | callEmpty =>
    simp only [Part.HeightLe, Expr.height, Modifier.height, exprsHeight, modifiersHeight]
    omega
  | plain _ ih | base _ ih | number _ ih | oneDie _ ih | called _ ih | paren _ ih | compared _ ih
  | equal _ ih | numbered _ ih | select _ ih | filter _ ih | reroll _ ih | rerollUntil _ ih
  | explodeWhere _ ih | plainItem _ ih | listItem _ ih | repeatedItem _ ih | lastItem _ ih
  | modifiedDice _ ih =>
    have h₁ := ih hlevels
    simp only [Part.HeightLe, Expr.height, Die.height, Condition.height, Modifier.height,
      exprsHeight] at h₁ ⊢
    omega
  | product _ _ ih₁ ih₂ | oneModified _ _ ih₁ ih₂ | nextModifier _ _ _ ih₁ ih₂
  | nextItem _ _ ih₁ ih₂ | repeatedList _ _ ih₁ ih₂ | repeatedExpr _ _ ih₁ ih₂ =>
    have h₁ := ih₁ hlevels
    have h₂ := ih₂ hlevels
    simp only [Part.HeightLe, Expr.height, exprsHeight, countHeight, modifiersHeight] at h₁ h₂ ⊢
    omega
  | dice _ _ _ ih₁ ih₂ ih₃ =>
    have h₁ := ih₁ hlevels
    have h₂ := ih₂ hlevels
    have h₃ := ih₃ hlevels
    simp only [Part.HeightLe, Expr.height, countHeight] at h₁ h₂ h₃ ⊢
    omega

/-! ## The highest trees -/

/-- An operand with so many ones added to it, or as many times multiplied by one. -/
def chained (op : Operator) (e : Expr) : Nat → Expr
  | 0 => e
  | k + 1 => chained op (.binary op e (.int 1)) k

/-- The first power, if a level is left for the exponent. -/
def raised (e : Expr) : Nat → Expr
  | 0 => e
  | _ + 1 => .binary .power e (.int 1)

/-- One die, as a set of dice. -/
def diceOf (sides : Expr) (ms : List (Modifier Expr)) : Expr :=
  .dice (some (.int 1)) (.numbered sides) ms

/-- A count that is as high as the levels allow: each level that is entered for an operand stays
counted only until the operands in parentheses to its left have been read. -/
def tallCount : Nat → Expr
  | 0 => .int 1
  | k + 1 => .paren (chained .add (chained .multiply (raised (diceOf (tallCount k) []) k) k) k)

theorem height_chained {op : Operator} {e : Expr} (he : 0 < e.height) (k : Nat) :
    (chained op e k).height = e.height + k := by
  induction k generalizing e with
  | zero => rfl
  | succ k ih =>
    rw [chained, ih (by simp [Expr.height])]
    simp only [Expr.height]
    omega

theorem height_diceOf (sides : Expr) (ms : List (Modifier Expr)) : (diceOf sides ms).height =
    max 1 (max (sides.height + 1) (modifiersHeight ms)) + 1 := rfl

theorem height_tallCount (k : Nat) : (tallCount k).height = max 1 (reach k) := by
  induction k with
  | zero => rfl
  | succ k ih =>
    have hraised : (raised (diceOf (tallCount k) []) k).height = reach k + 3 := by
      cases k with
      | zero => rfl
      | succ k =>
        have := reach_succ k
        simp only [raised, Expr.height, height_diceOf, modifiersHeight, ih]
        omega
    rw [tallCount, Expr.height, height_chained, height_chained, hraised, reach_succ]
    · omega
    · omega
    · rw [height_chained] <;> omega

theorem Derives.product_of_power {e : Expr} (h : Derives depth n ls (.power e)) :
    Derives depth n ls (.product e) := by
  simpa using Derives.product (.plain h) .productEnd

/-- Lexemes that can be scanned spell the phrase. -/
def Spellable (depth maxDigits n : Nat) (part : Part) : Prop :=
  ∃ ls, (∀ l ∈ ls, Lexeme.Scanned maxDigits l) ∧ Derives depth n ls part

section

variable {maxDigits : Nat} {sides : Expr} {ms : List (Modifier Expr)}

theorem scanned_dieWord : (Lexeme.word dieWord).Scanned maxDigits :=
  ⟨Lexeme.passable_word dieWord, fun _ => by simp [Lexeme.Plain, dieWord]⟩

theorem spellable_one (hdigits : 0 < maxDigits) :
    Spellable depth maxDigits n (.count (.int 1)) := by
  have hone : (Lexeme.number "1").Scanned maxDigits :=
    ⟨⟨hdigits, show "1".length ≤ Text.maxNumeralLength by decide⟩, nofun⟩
  exact ⟨[.number "1"], List.forall_mem_singleton.mpr hone, .int⟩

theorem spellable_sumRest (hdigits : 0 < maxDigits) {k : Nat} (hk : n + k ≤ depth) (e : Expr) :
    Spellable depth maxDigits n (.sumRest e (chained .add e k)) := by
  induction k generalizing n e with
  | zero => exact ⟨[], nofun, .sumEnd⟩
  | succ k ih =>
    obtain ⟨ls₁, hls₁, h₁⟩ : Spellable depth maxDigits (n + 1) (.count (.int 1)) :=
      spellable_one hdigits
    obtain ⟨ls₂, hls₂, h₂⟩ := ih (n := n + 1) (by omega) (.binary .add e (.int 1))
    have hscanned := List.forall_mem_append.mpr ⟨hls₁, hls₂⟩
    exact ⟨_, List.forall_mem_cons.mpr ⟨Lexeme.scanned_symbol _, hscanned⟩,
      .sumNext (.inl rfl) (by omega) (.product_of_power (.base (.number h₁))) h₂⟩

theorem spellable_productRest (hdigits : 0 < maxDigits) {k : Nat} (hk : n + k ≤ depth)
    (e : Expr) : Spellable depth maxDigits n (.productRest e (chained .multiply e k)) := by
  induction k generalizing n e with
  | zero => exact ⟨[], nofun, .productEnd⟩
  | succ k ih =>
    obtain ⟨ls₁, hls₁, h₁⟩ : Spellable depth maxDigits (n + 1) (.count (.int 1)) :=
      spellable_one hdigits
    obtain ⟨ls₂, hls₂, h₂⟩ := ih (n := n + 1) (by omega) (.binary .multiply e (.int 1))
    have hscanned := List.forall_mem_append.mpr ⟨hls₁, hls₂⟩
    exact ⟨_, List.forall_mem_cons.mpr ⟨Lexeme.scanned_symbol _, hscanned⟩,
      .productNext (.inl rfl) (by omega) (.plain (.base (.number h₁))) h₂⟩

theorem spellable_diceOf (hdigits : 0 < maxDigits)
    (hsides : Spellable depth maxDigits n (.count sides))
    (hms : Spellable depth maxDigits n (.modifiers ms)) :
    Spellable depth maxDigits n (.primary (diceOf sides ms)) := by
  obtain ⟨ls₁, hls₁, h₁⟩ : Spellable depth maxDigits n (.count (.int 1)) := spellable_one hdigits
  obtain ⟨ls₂, hls₂, h₂⟩ := hsides
  obtain ⟨ls₃, hls₃, h₃⟩ := hms
  exact ⟨_, List.forall_mem_append.mpr ⟨hls₁, List.forall_mem_cons.mpr ⟨scanned_dieWord,
    List.forall_mem_append.mpr ⟨hls₂, hls₃⟩⟩⟩, .dice h₁ (.numbered h₂) h₃⟩

theorem spellable_raised (hdigits : 0 < maxDigits) {k : Nat} (hk : n + k ≤ depth) {e : Expr}
    (h : Spellable depth maxDigits n (.primary e)) :
    Spellable depth maxDigits n (.power (raised e k)) := by
  obtain ⟨ls₁, hls₁, h₁⟩ := h
  cases k with
  | zero => exact ⟨ls₁, hls₁, .base h₁⟩
  | succ k =>
    obtain ⟨ls₂, hls₂, h₂⟩ : Spellable depth maxDigits (n + 1) (.count (.int 1)) :=
      spellable_one hdigits
    have hscanned := List.forall_mem_cons.mpr ⟨Lexeme.scanned_symbol .caret, hls₂⟩
    exact ⟨_, List.forall_mem_append.mpr ⟨hls₁, hscanned⟩,
      .power (by omega) h₁ (.base (.number h₂))⟩

theorem spellable_tallCount (hdigits : 0 < maxDigits) {k : Nat} (hk : depth = n + k) :
    Spellable depth maxDigits n (.count (tallCount k)) := by
  induction k generalizing n with
  | zero => exact spellable_one hdigits
  | succ k ih =>
    have hdice := spellable_diceOf hdigits (ih (n := n + 1) (by omega)) ⟨[], nofun, .noModifier⟩
    obtain ⟨ls₁, hls₁, h₁⟩ := spellable_raised hdigits (k := k) (by omega) hdice
    have hchain : n + 1 + k ≤ depth := by omega
    obtain ⟨ls₂, hls₂, h₂⟩ := spellable_productRest hdigits hchain _
    obtain ⟨ls₃, hls₃, h₃⟩ := spellable_sumRest hdigits hchain _
    refine ⟨_, ?_, .paren (.expr (by omega) (.product (.plain h₁) h₂) h₃)⟩
    exact List.forall_mem_cons.mpr ⟨Lexeme.scanned_symbol _, List.forall_mem_append.mpr
      ⟨List.forall_mem_append.mpr ⟨List.forall_mem_append.mpr ⟨hls₁, hls₂⟩, hls₃⟩,
        List.forall_mem_singleton.mpr (Lexeme.scanned_symbol _)⟩⟩

/-- One die with as many sides as a highest count comes to. -/
def tallest (depth : Nat) : Expr := diceOf (tallCount depth) [.explode none]

theorem height_tallest (depth : Nat) : (tallest depth).height = max 1 (reach depth) + 2 := by
  simp only [tallest, height_diceOf, height_tallCount, modifiersHeight, Modifier.height]
  omega

theorem spellable_tallest (hdigits : 0 < maxDigits) :
    Spellable depth maxDigits 0 (.modifiedDice (tallest depth)) := by
  have hms : Derives depth 0 [.symbol .bang] (.modifiers [.explode none]) :=
    .nextModifier .explode .noModifier nofun
  obtain ⟨ls, hls, h⟩ := spellable_diceOf hdigits
    (spellable_tallCount hdigits (Nat.zero_add depth).symm)
    ⟨_, List.forall_mem_singleton.mpr (Lexeme.scanned_symbol .bang), hms⟩
  exact ⟨ls, hls, .modifiedDice h⟩

end

end Grammar

namespace Roll

open Grammar

variable {limits : Limits} {text : String} {parsed : Roll}

theorem height_le_of_mem {a : Kind × (Expr → Part)} (ha : a ∈ alternatives) {levels : Nat}
    {e : Expr} (h : (a.2 e).HeightLe levels) : e.height ≤ max 1 (reach levels) + 2 := by
  simp only [alternatives, List.mem_cons, List.not_mem_nil, or_false] at ha
  rcases ha with rfl | rfl | rfl | rfl | rfl <;> simp only [Part.HeightLe] at h <;> omega

theorem height_le (h : parse limits text = .ok parsed) :
    parsed.expr.height ≤ max 1 (reach limits.maxDepth) + 2 := by
  obtain ⟨ls, _, a, ha, hder⟩ := exists_derives h
  exact height_le_of_mem ha (hder.heightLe (Nat.zero_add _).symm)

theorem exists_parse_tallest (limits : Limits) :
    ∃ kind, parse limits (tallest limits.maxDepth).text = .ok ⟨kind, tallest limits.maxDepth⟩ := by
  obtain ⟨ls, hls, hder⟩ : Spellable limits.maxDepth limits.maxDigits 0
      (.modifiedDice (tallest limits.maxDepth)) := spellable_tallest Nat.length_repr_pos
  obtain ⟨t, ls', hwritten⟩ := hder.writable hls
  have ht : (tallest limits.maxDepth).text.toList = t := hwritten.written
  subst ht
  have ha : (.list, .modifiedDice) ∈ alternatives := by simp [alternatives]
  exact exists_parse_of_renders hwritten.renders ha hwritten.derives

/-- The height of the highest tree that is read grows with the square of the depth that is allowed:
no multiple of the depth bounds it. -/
theorem height_isGreatest (limits : Limits) :
    IsGreatest {height | ∃ text parsed, parse limits text = .ok parsed ∧
      parsed.expr.height = height} (max 1 (limits.maxDepth * (limits.maxDepth + 3)) + 2) := by
  constructor
  · obtain ⟨kind, h⟩ := exists_parse_tallest limits
    exact ⟨_, _, h, height_tallest _⟩
  · rintro height ⟨text, parsed, h, rfl⟩
    exact height_le h

/-- With seven levels, a tree is read that is higher than 64 nodes. -/
theorem exists_height_gt : ∃ parsed, parse { maxDepth := 7 }
    ("1d(1d(1d(1d(1d(1d(1d(1d1)^1 * 1 + 1)^1 * 1 * 1 + 1 + 1)^1 * 1 * 1 * 1 + 1 + 1 + 1)" ++
      "^1 * 1 * 1 * 1 * 1 + 1 + 1 + 1 + 1)^1 * 1 * 1 * 1 * 1 * 1 + 1 + 1 + 1 + 1 + 1)" ++
      "^1 * 1 * 1 * 1 * 1 * 1 * 1 + 1 + 1 + 1 + 1 + 1 + 1)!") = .ok parsed ∧
    8 * 7 + 8 < parsed.expr.height := by
  have htext : (tallest 7).text =
      "1d(1d(1d(1d(1d(1d(1d(1d1)^1 * 1 + 1)^1 * 1 * 1 + 1 + 1)^1 * 1 * 1 * 1 + 1 + 1 + 1)" ++
        "^1 * 1 * 1 * 1 * 1 + 1 + 1 + 1 + 1)^1 * 1 * 1 * 1 * 1 * 1 + 1 + 1 + 1 + 1 + 1)" ++
        "^1 * 1 * 1 * 1 * 1 * 1 * 1 + 1 + 1 + 1 + 1 + 1 + 1)!" := by decide +kernel
  obtain ⟨kind, h⟩ := exists_parse_tallest { maxDepth := 7 }
  rw [htext] at h
  exact ⟨_, h, by rw [height_tallest]; decide⟩

end Roll

end DiceLang
