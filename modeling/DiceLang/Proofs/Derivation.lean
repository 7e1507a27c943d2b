import DiceLang.Roll

/-!
# The grammar of dice notation

Which lists of lexemes spell which trees, said without a reader: one rule for each form of each
phrase, and nothing of what is tried first or of how far a phrase reaches. A phrase is entered at a
level, and no level may exceed `depth`.

* `Derives`: a list of lexemes spells a phrase;
* `DerivesRoll`: a list of lexemes spells a whole roll, by the first of five alternatives;
* `Derives.mono`: what is derived at a level is derived at any lower one, and with more depth.
-/

namespace DiceLang

/-- The sign of an operator. -/
def Symbol.ofOperator : Operator → Symbol
  | .add => .plus | .subtract => .minus | .multiply => .times | .divide => .slash | .power => .caret

/-- The word of a modifier that keeps, or drops, what meets a condition. -/
def filterWord (keep : Bool) : String :=
  (if keep then ModifierWord.keepWhere else ModifierWord.dropWhere).text

namespace Grammar

/-- A phrase of the notation, with the tree that it spells. -/
inductive Part where
  | expr (e : Expr)
  /-- Further operands of a sum: with them, `left` becomes `e`. -/
  | sumRest (left e : Expr)
  | product (e : Expr)
  /-- Further operands of a product: with them, `left` becomes `e`. -/
  | productRest (left e : Expr)
  | negation (e : Expr)
  | power (e : Expr)
  | primary (e : Expr)
  | count (e : Expr)
  | condition (c : Condition Expr)
  /-- What follows the `d` of a die. -/
  | die (d : Die Expr)
  | modifier (m : Modifier Expr)
  | modifiers (ms : List (Modifier Expr))
  /-- An item of a list or a face of a die, or an argument of a call. -/
  | item (inCall : Bool) (e : Expr)
  /-- One item or more, divided by commas. -/
  | items (inCall : Bool) (es : List Expr)
  | list (e : Expr)
  | call (e : Expr)
  | repetition (e : Expr)
  /-- A set of dice with at least one modifier. -/
  | modifiedDice (e : Expr)

variable {depth : Nat}

/-- `Derives depth n ls part`: the lexemes `ls` spell `part`, entered at level `n`, and no level is
deeper than `depth`. -/
inductive Derives (depth : Nat) : Nat → List Lexeme → Part → Prop
  -- A sum is one level below the place where an expression is entered, and each of its operands one
  -- level below the operand before it.
  | expr {n ls₁ ls₂ e₁ e} : n < depth → Derives depth (n + 1) ls₁ (.product e₁) →
      Derives depth (n + 1) ls₂ (.sumRest e₁ e) → Derives depth n (ls₁ ++ ls₂) (.expr e)
  | sumEnd {n e} : Derives depth n [] (.sumRest e e)
  | sumNext {n ls₁ ls₂ op left e₁ e} : op = .add ∨ op = .subtract → n < depth →
      Derives depth (n + 1) ls₁ (.product e₁) →
      Derives depth (n + 1) ls₂ (.sumRest (.binary op left e₁) e) →
      Derives depth n (.symbol (.ofOperator op) :: (ls₁ ++ ls₂)) (.sumRest left e)
  | product {n ls₁ ls₂ e₁ e} : Derives depth n ls₁ (.negation e₁) →
      Derives depth n ls₂ (.productRest e₁ e) → Derives depth n (ls₁ ++ ls₂) (.product e)
  | productEnd {n e} : Derives depth n [] (.productRest e e)
  | productNext {n ls₁ ls₂ op left e₁ e} : op = .multiply ∨ op = .divide → n < depth →
      Derives depth (n + 1) ls₁ (.negation e₁) →
      Derives depth (n + 1) ls₂ (.productRest (.binary op left e₁) e) →
      Derives depth n (.symbol (.ofOperator op) :: (ls₁ ++ ls₂)) (.productRest left e)
  | minus {n ls e} : n < depth → Derives depth (n + 1) ls (.negation e) →
      Derives depth n (.symbol .minus :: ls) (.negation (.negate e))
  | plain {n ls e} : Derives depth n ls (.power e) → Derives depth n ls (.negation e)
  | base {n ls e} : Derives depth n ls (.primary e) → Derives depth n ls (.power e)
  | power {n ls₁ ls₂ e₁ e₂} : n < depth → Derives depth n ls₁ (.primary e₁) →
      Derives depth (n + 1) ls₂ (.power e₂) →
      Derives depth n (ls₁ ++ .symbol .caret :: ls₂) (.power (.binary .power e₁ e₂))
  | number {n ls e} : Derives depth n ls (.count e) → Derives depth n ls (.primary e)
  | dice {n ls₁ ls₂ ls₃ e d ms} : Derives depth n ls₁ (.count e) → Derives depth n ls₂ (.die d) →
      Derives depth n ls₃ (.modifiers ms) →
      Derives depth n (ls₁ ++ .word dieWord :: (ls₂ ++ ls₃)) (.primary (.dice (some e) d ms))
  | oneDie {n ls d} : Derives depth n ls (.die d) →
      Derives depth n (.word dieWord :: ls) (.primary (.die d))
  | oneModified {n ls₁ ls₂ d m ms} : Derives depth n ls₁ (.die d) →
      Derives depth n ls₂ (.modifiers (m :: ms)) →
      Derives depth n (.word dieWord :: (ls₁ ++ ls₂)) (.primary (.dice none d (m :: ms)))
  | called {n ls e} : Derives depth n ls (.call e) → Derives depth n ls (.primary e)
  | int {n digits} : Derives depth n [.number digits] (.count (.int (Text.numeral digits)))
  | paren {n ls e} : Derives depth n ls (.expr e) →
      Derives depth n (.symbol .openParen :: (ls ++ [.symbol .closeParen])) (.count (.paren e))
  | compared {n ls comparison e} : Derives depth n ls (.count e) →
      Derives depth n (.symbol (.ofComparison comparison) :: ls) (.condition ⟨comparison, e⟩)
  | equal {n ls e} : Derives depth n ls (.count e) → Derives depth n ls (.condition ⟨.eq, e⟩)
  | numbered {n ls e} : Derives depth n ls (.count e) → Derives depth n ls (.die (.numbered e))
  | custom {n ls es} : n < depth → Derives depth (n + 1) ls (.items false es) →
      Derives depth n (.symbol .openBrace :: (ls ++ [.symbol .closeBrace])) (.die (.custom es))
  | select {n ls selection e} : Derives depth n ls (.count e) →
      Derives depth n (.word (Selection.word selection).text :: ls)
        (.modifier (.select selection e))
  | filter {n ls keep comparison e} : Derives depth n ls (.count e) →
      Derives depth n (.word (filterWord keep) :: .symbol (.ofComparison comparison) :: ls)
        (.modifier (.filter keep ⟨comparison, e⟩))
  | reroll {n ls c} : Derives depth n ls (.condition c) →
      Derives depth n (.word rerollWord :: ls) (.modifier (.reroll false c))
  | rerollUntil {n ls c} : Derives depth n ls (.condition c) →
      Derives depth n (.word rerollWord :: (ls ++ [.symbol .bang])) (.modifier (.reroll true c))
  | explode {n} : Derives depth n [.symbol .bang] (.modifier (.explode none))
  | explodeWhere {n ls comparison e} : Derives depth n ls (.count e) →
      Derives depth n (.symbol .bang :: .symbol (.ofComparison comparison) :: ls)
        (.modifier (.explode (some ⟨comparison, e⟩)))
  | noModifier {n} : Derives depth n [] (.modifiers [])
  -- A `!` right after the condition of `rr` belongs to the `rr`.
  | nextModifier {n ls₁ ls₂ m ms} : Derives depth n ls₁ (.modifier m) →
      Derives depth n ls₂ (.modifiers ms) →
      (∀ c, m = .reroll false c → ls₂.head? ≠ some (.symbol .bang)) →
      Derives depth n (ls₁ ++ ls₂) (.modifiers (m :: ms))
  | plainItem {n ls inCall e} : Derives depth n ls (.expr e) → Derives depth n ls (.item inCall e)
  | listItem {n ls e} : Derives depth n ls (.list e) → Derives depth n ls (.item true e)
  | repeatedItem {n ls e} : Derives depth n ls (.repetition e) → Derives depth n ls (.item true e)
  | lastItem {n ls inCall e} : Derives depth n ls (.item inCall e) →
      Derives depth n ls (.items inCall [e])
  | nextItem {n ls₁ ls₂ inCall e es} : Derives depth n ls₁ (.item inCall e) →
      Derives depth n ls₂ (.items inCall es) →
      Derives depth n (ls₁ ++ .symbol .comma :: ls₂) (.items inCall (e :: es))
  | list {n ls es} : n < depth → Derives depth (n + 1) ls (.items false es) →
      Derives depth n (.symbol .openBrace :: (ls ++ [.symbol .closeBrace])) (.list (.list es))
  | callEmpty {n name} : isReserved name = false →
      Derives depth n [.word name, .symbol .openParen, .symbol .closeParen] (.call (.call name []))
  | call {n ls name es} : isReserved name = false → n < depth →
      Derives depth (n + 1) ls (.items true es) →
      Derives depth n (.word name :: .symbol .openParen :: (ls ++ [.symbol .closeParen]))
        (.call (.call name es))
  | repeatedList {n ls₁ ls₂ e₁ e₂} : Derives depth n ls₁ (.count e₁) →
      Derives depth n ls₂ (.list e₂) →
      Derives depth n (ls₁ ++ .symbol .hash :: ls₂) (.repetition (.repeated e₁ e₂))
  | repeatedExpr {n ls₁ ls₂ e₁ e₂} : Derives depth n ls₁ (.count e₁) →
      Derives depth n ls₂ (.expr e₂) →
      Derives depth n (ls₁ ++ .symbol .hash :: ls₂) (.repetition (.repeated e₁ e₂))
  | modifiedDice {n ls count d m ms} : Derives depth n ls (.primary (.dice count d (m :: ms))) →
      Derives depth n ls (.modifiedDice (.dice count d (m :: ms)))

/-- The alternatives of a roll, in the order in which they are tried, with the kind of each. -/
def alternatives : List (Kind × (Expr → Part)) :=
  [(.list, .repetition), (.list, .list), (.list, .call), (.list, .modifiedDice), (.scalar, .expr)]

/-- The lexemes spell the roll by the first of the alternatives that derives all of them. -/
inductive DerivesFirst (depth : Nat) (ls : List Lexeme) : List (Kind × (Expr → Part)) → Roll → Prop
  | here {kind part later e} : Derives depth 0 ls (part e) →
      DerivesFirst depth ls ((kind, part) :: later) ⟨kind, e⟩
  | later {kind part later roll} : (∀ e, ¬ Derives depth 0 ls (part e)) →
      DerivesFirst depth ls later roll → DerivesFirst depth ls ((kind, part) :: later) roll

theorem DerivesFirst.exists_mem {ls : List Lexeme} {table : List (Kind × (Expr → Part))}
    {roll : Roll} (h : DerivesFirst depth ls table roll) :
    ∃ a ∈ table, Derives depth 0 ls (a.2 roll.expr) := by
  induction h with
  | here h => exact ⟨_, List.mem_cons_self, h⟩
  | later _ _ ih =>
    obtain ⟨a, ha, h⟩ := ih
    exact ⟨a, List.mem_cons_of_mem _ ha, h⟩

/-- The lexemes spell the roll, with no level deeper than `depth`. -/
def DerivesRoll (depth : Nat) (ls : List Lexeme) (roll : Roll) : Prop :=
  DerivesFirst depth ls alternatives roll

/-- What is derived at a level is derived at any lower one, and more depth does no harm. -/
theorem Derives.mono {n n' depth' : Nat} {ls : List Lexeme} {part : Part}
    (h : Derives depth n ls part) (hn : n' ≤ n) (hd : depth ≤ depth') :
    Derives depth' n' ls part := by
  induction h generalizing n' with
  | expr _ _ _ ih₁ ih₂ => exact .expr (by omega) (ih₁ (by omega)) (ih₂ (by omega))
  | sumEnd => exact .sumEnd
  | sumNext hop _ _ _ ih₁ ih₂ => exact .sumNext hop (by omega) (ih₁ (by omega)) (ih₂ (by omega))
  | product _ _ ih₁ ih₂ => exact .product (ih₁ hn) (ih₂ hn)
  | productEnd => exact .productEnd
  | productNext hop _ _ _ ih₁ ih₂ =>
    exact .productNext hop (by omega) (ih₁ (by omega)) (ih₂ (by omega))
  | minus _ _ ih => exact .minus (by omega) (ih (by omega))
  | plain _ ih => exact .plain (ih hn)
  | base _ ih => exact .base (ih hn)
  | power _ _ _ ih₁ ih₂ => exact .power (by omega) (ih₁ hn) (ih₂ (by omega))
  | number _ ih => exact .number (ih hn)
  | dice _ _ _ ih₁ ih₂ ih₃ => exact .dice (ih₁ hn) (ih₂ hn) (ih₃ hn)
  | oneDie _ ih => exact .oneDie (ih hn)
  | oneModified _ _ ih₁ ih₂ => exact .oneModified (ih₁ hn) (ih₂ hn)
  | called _ ih => exact .called (ih hn)
  | int => exact .int
  | paren _ ih => exact .paren (ih hn)
  | compared _ ih => exact .compared (ih hn)
  | equal _ ih => exact .equal (ih hn)
  | numbered _ ih => exact .numbered (ih hn)
  | custom _ _ ih => exact .custom (by omega) (ih (by omega))
  | select _ ih => exact .select (ih hn)
  | filter _ ih => exact .filter (ih hn)
  | reroll _ ih => exact .reroll (ih hn)
  | rerollUntil _ ih => exact .rerollUntil (ih hn)
  | explode => exact .explode
  | explodeWhere _ ih => exact .explodeWhere (ih hn)
  | noModifier => exact .noModifier
  | nextModifier _ _ hbang ih₁ ih₂ => exact .nextModifier (ih₁ hn) (ih₂ hn) hbang
  | plainItem _ ih => exact .plainItem (ih hn)
  | listItem _ ih => exact .listItem (ih hn)
  | repeatedItem _ ih => exact .repeatedItem (ih hn)
  | lastItem _ ih => exact .lastItem (ih hn)
  | nextItem _ _ ih₁ ih₂ => exact .nextItem (ih₁ hn) (ih₂ hn)
  | list _ _ ih => exact .list (by omega) (ih (by omega))
  | callEmpty hname => exact .callEmpty hname
  | call hname _ _ ih => exact .call hname (by omega) (ih (by omega))
  | repeatedList _ _ ih₁ ih₂ => exact .repeatedList (ih₁ hn) (ih₂ hn)
  | repeatedExpr _ _ ih₁ ih₂ => exact .repeatedExpr (ih₁ hn) (ih₂ hn)
  | modifiedDice _ ih => exact .modifiedDice (ih hn)

/-! ## What a phrase starts with -/

end Grammar

def Lexeme.isWord : Lexeme → Bool
  | .word _ => true
  | _ => false

/-- A count is a number, or starts with a parenthesis. -/
def Lexeme.startsCount : Lexeme → Bool
  | .number _ | .symbol .openParen => true
  | _ => false

theorem Lexeme.startsCount_iff {l : Lexeme} :
    l.startsCount = true ↔ (∃ digits, l = .number digits) ∨ l = .symbol .openParen := by
  unfold startsCount
  split <;> simp_all

namespace Grammar

variable {n : Nat} {ls after : List Lexeme} {e : Expr}

/-- The phrase may be spelled by nothing at all. -/
def Part.isOptional : Part → Bool
  | .sumRest .. | .productRest .. | .modifiers _ => true
  | _ => false

/-- A phrase of this kind may start with the lexeme. -/
def Part.startsWith (l : Lexeme) : Part → Bool
  | .count _ | .repetition _ => l.startsCount
  | .condition _ => l.startsCount || startsWithComparison [l]
  | .die _ => l.startsCount || l == .symbol .openBrace
  | .primary _ | .power _ | .modifiedDice _ => l.startsCount || l.isWord
  | .negation _ | .product _ | .expr _ => l.startsCount || l.isWord || l == .symbol .minus
  | .item .. | .items .. =>
    l.startsCount || l.isWord || l == .symbol .minus || l == .symbol .openBrace
  | .list _ => l == .symbol .openBrace
  | .call _ => l.isWord
  | .modifier _ | .modifiers _ => l.isWord || l == .symbol .bang
  | .productRest .. => l == .symbol .times || l == .symbol .slash
  | .sumRest .. => l == .symbol .plus || l == .symbol .minus

theorem Derives.head {part : Part} (h : Derives depth n ls part) :
    part.isOptional = true ∧ ls = [] ∨ ∃ l tl, ls = l :: tl ∧ part.startsWith l = true := by
  induction h with
  | sumNext hop => rcases hop with rfl | rfl <;> simp [Part.startsWith, Symbol.ofOperator]
  | productNext hop => rcases hop with rfl | rfl <;> simp [Part.startsWith, Symbol.ofOperator]
  | @compared _ _ comparison =>
    cases comparison <;>
      simp [Part.startsWith, startsWithComparison, Symbol.ofComparison, Symbol.comparison?]
  | _ => grind [Part.isOptional, Part.startsWith, Lexeme.isWord, Lexeme.startsCount]

/-- A phrase that is not optional has a first lexeme. -/
theorem Derives.first {part : Part} (h : Derives depth n ls part)
    (hpart : part.isOptional = false) : ∃ l tl, ls = l :: tl ∧ part.startsWith l = true :=
  h.head.resolve_left fun ⟨hopt, _⟩ => by simp [hopt] at hpart

theorem Derives.ne_nil {part : Part} (h : Derives depth n ls part)
    (hpart : part.isOptional = false) : ls ≠ [] := by
  obtain ⟨l, tl, rfl, _⟩ := h.first hpart
  exact List.cons_ne_nil l tl

theorem Derives.count_head (h : Derives depth n ls (.count e)) :
    (∃ digits tl, ls = .number digits :: tl) ∨ ∃ tl, ls = .symbol .openParen :: tl := by
  obtain ⟨l, tl, rfl, hl⟩ := h.first rfl
  rcases Lexeme.startsCount_iff.mp hl with ⟨digits, rfl⟩ | rfl
  · exact .inl ⟨_, _, rfl⟩
  · exact .inr ⟨_, rfl⟩

/-! ## What may follow a phrase -/

end Grammar

/-- How tightly a lexeme binds the operand before it: not at all, if it closes what the operand is
in, and most tightly, if it belongs to the operand itself. -/
def Lexeme.binding : Lexeme → Nat
  | .symbol .closeParen | .symbol .closeBrace | .symbol .comma => 0
  | .symbol .plus | .symbol .minus => 1
  | .symbol .times | .symbol .slash => 2
  | .symbol .caret => 3
  | _ => 4

/-- What comes next binds no more tightly than `k`. -/
def Stops (k : Nat) (after : List Lexeme) : Prop := ∀ l ∈ after.head?, l.binding ≤ k

@[simp] theorem stops_nil {k : Nat} : Stops k [] := by simp [Stops]

@[simp] theorem stops_cons {k : Nat} {l : Lexeme} {ls : List Lexeme} :
    Stops k (l :: ls) ↔ l.binding ≤ k := by simp [Stops]

theorem Stops.mono {k k' : Nat} {after : List Lexeme} (h : Stops k after) (hk : k ≤ k') :
    Stops k' after := fun l hl => Nat.le_trans (h l hl) hk

theorem Stops.head_ne {k : Nat} {after : List Lexeme} {l : Lexeme} (h : Stops k after)
    (hl : k < l.binding) : after.head? ≠ some l := fun e =>
  absurd (h l (by rw [e]; rfl)) (Nat.not_le.mpr hl)

namespace Grammar

variable {depth n : Nat} {ls after : List Lexeme}

theorem Derives.sumRest_stops {left e : Expr} (h : Derives depth n ls (.sumRest left e))
    (ha : Stops 0 after) : Stops 1 (ls ++ after) := by
  cases h with
  | sumEnd => exact ha.mono (by omega)
  | sumNext hop => rcases hop with rfl | rfl <;> simp [Symbol.ofOperator, Lexeme.binding]

theorem Derives.eq_of_sumRest_nil {left e : Expr} (h : Derives depth n ls (.sumRest left e))
    (hls : ls = []) : left = e := by
  cases h with
  | sumEnd => rfl
  | sumNext => cases hls

theorem Derives.eq_of_productRest_nil {left e : Expr} (h : Derives depth n ls (.productRest left e))
    (hls : ls = []) : left = e := by
  cases h with
  | productEnd => rfl
  | productNext => cases hls

theorem Derives.productRest_stops {left e : Expr} (h : Derives depth n ls (.productRest left e))
    (ha : Stops 1 after) : Stops 2 (ls ++ after) := by
  cases h with
  | productEnd => exact ha.mono (by omega)
  | productNext hop => rcases hop with rfl | rfl <;> simp [Symbol.ofOperator, Lexeme.binding]

/-- An expression starts with a minus sign, or with a primary that is no deeper than the expression
itself and that an operator may follow; if nothing follows it, the primary is all there is. -/
theorem Derives.expr_start {e : Expr} (h : Derives depth n ls (.expr e)) :
    (∃ tl, ls = .symbol .minus :: tl) ∨
      ∃ ls₁ ls₂ e₁, ls = ls₁ ++ ls₂ ∧ Derives depth n ls₁ (.primary e₁) ∧
        (∀ after, Stops 0 after → Stops 3 (ls₂ ++ after)) ∧ (ls₂ = [] → e = e₁) := by
  cases h with
  | @expr _ ls₁ ls₂ _ _ _ hproduct hsum =>
    cases hproduct with
    | @product _ ls₃ ls₄ _ _ hnegation hrest =>
      have hstops : ∀ after, Stops 0 after → Stops 2 (ls₄ ++ (ls₂ ++ after)) := fun after ha =>
        hrest.productRest_stops (hsum.sumRest_stops ha)
      cases hnegation with
      | minus => exact .inl ⟨_, rfl⟩
      | plain hpower =>
        refine .inr ?_
        cases hpower with
        | base hprimary =>
          refine ⟨_, ls₄ ++ ls₂, _, List.append_assoc .., hprimary.mono (by omega) (by omega),
            fun after ha => ?_, fun hnil => ?_⟩
          · rw [List.append_assoc]
            exact (hstops after ha).mono (by omega)
          · obtain ⟨hrest', hsum'⟩ := List.append_eq_nil_iff.mp hnil
            rw [← hsum.eq_of_sumRest_nil hsum', ← hrest.eq_of_productRest_nil hrest']
        | @power _ ls₅ ls₆ _ _ _ hprimary _ =>
          refine ⟨ls₅, .symbol .caret :: (ls₆ ++ ls₄ ++ ls₂), _, by simp,
            hprimary.mono (by omega) (by omega), fun after _ => ?_, nofun⟩
          simp [Lexeme.binding]

end Grammar

end DiceLang
