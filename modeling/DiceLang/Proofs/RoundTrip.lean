import DiceLang.Outcome
import DiceLang.Proofs.Acceptance
import DiceLang.Proofs.Canonical
import DiceLang.Proofs.Tight

/-!
# What is written is read again

The canonical notation of a roll is read as the same roll, within the same limits, so that it can be
rolled again in place of the text that it was read from.

* `kind_eq_of_derivesRoll`: the kind of a roll shows in its tree;
* `requested_canonical`: there are no blanks around a canonical text to be stripped;
* `parse_canonical`: it is read as the roll that it was written from;
* `parse_text`: the round trip.
-/

namespace DiceLang

/-! ## The kind of a tree -/

/-- The kind of answer that a tree is read for when it is all of a text. -/
def Expr.kind : Expr → Kind
  | .repeated .. | .list _ | .call .. | .dice _ _ (_ :: _) => .list
  | _ => .scalar

namespace Grammar

variable {depth n : Nat} {ls : List Lexeme} {e : Expr} {part : Part}

theorem Derives.sumRest_cases : ∀ {n : Nat} {ls : List Lexeme} {left : Expr},
    Derives depth n ls (.sumRest left e) → ls = [] ∧ left = e ∨ ∃ op l r, e = .binary op l r
  | _, _, _, .sumEnd => .inl ⟨rfl, rfl⟩
  | _, _, _, .sumNext _ _ _ h =>
    .inr (h.sumRest_cases.elim (fun ⟨_, he⟩ => ⟨_, _, _, he.symm⟩) id)
termination_by _ ls => ls.length
decreasing_by simp only [List.length_cons, List.length_append]; omega

theorem Derives.productRest_cases : ∀ {n : Nat} {ls : List Lexeme} {left : Expr},
    Derives depth n ls (.productRest left e) → ls = [] ∧ left = e ∨ ∃ op l r, e = .binary op l r
  | _, _, _, .productEnd => .inl ⟨rfl, rfl⟩
  | _, _, _, .productNext _ _ _ h =>
    .inr (h.productRest_cases.elim (fun ⟨_, he⟩ => ⟨_, _, _, he.symm⟩) id)
termination_by _ ls => ls.length
decreasing_by simp only [List.length_cons, List.length_append]; omega

/-- An expression that is no operator's is a primary. -/
theorem Derives.expr_cases (h : Derives depth n ls (.expr e)) :
    (∃ op l r, e = .binary op l r) ∨ (∃ inner, e = .negate inner) ∨
      Derives depth n ls (.primary e) := by
  cases h with
  | expr hn h hsum =>
    rcases hsum.sumRest_cases with ⟨rfl, rfl⟩ | hbinary
    · cases h with
      | product h hproduct =>
        rcases hproduct.productRest_cases with ⟨rfl, rfl⟩ | hbinary
        · cases h with
          | minus => exact .inr (.inl ⟨_, rfl⟩)
          | plain h =>
            cases h with
            | base h => exact .inr (.inr (by simpa using h.mono (by omega) (Nat.le_refl depth)))
            | power => exact .inl ⟨_, _, _, rfl⟩
        · exact .inl hbinary
    · exact .inl hbinary

/-- A primary that is neither a call nor a set of dice with modifiers is read for a number. -/
theorem Derives.kind_of_primary (h : Derives depth n ls (.primary e))
    (hcall : ∀ e, ¬ Derives depth n ls (.call e))
    (hdice : ∀ e, ¬ Derives depth n ls (.modifiedDice e)) : e.kind = .scalar := by
  cases h with
  | number h => cases h <;> rfl
  | @dice _ ls₁ ls₂ ls₃ e d ms h₁ h₂ h₃ =>
    cases ms with
    | nil => rfl
    | cons m ms => exact absurd (.modifiedDice (.dice h₁ h₂ h₃)) (hdice _)
  | oneDie => rfl
  | oneModified h₁ h₂ => exact absurd (.modifiedDice (.oneModified h₁ h₂)) (hdice _)
  | called h => exact absurd h (hcall _)

theorem kind_eq_of_derivesRoll {roll : Roll} (h : DerivesRoll depth ls roll) :
    roll.kind = roll.expr.kind := by
  unfold DerivesRoll alternatives at h
  cases h with
  | here h => cases h <;> rfl
  | later _ h =>
    cases h with
    | here h => cases h; rfl
    | later _ h =>
      cases h with
      | here h => cases h <;> rfl
      | later hcall h =>
        cases h with
        | here h => cases h; rfl
        | later hdice h =>
          cases h with
          | @here _ _ _ e h =>
            rcases h.expr_cases with ⟨op, l, r, rfl⟩ | ⟨inner, rfl⟩ | h
            · rfl
            · rfl
            · exact (h.kind_of_primary hcall hdice).symm
          | later _ h => cases h

end Grammar

/-! ## Blanks around a text -/

theorem Token.not_blank_of_role {c : Char} {r : Token.Role} (h : Token.Role.of c = r)
    (hr : r ≠ .blank) : Text.isBlank c = false := by
  rw [Bool.eq_false_iff]
  intro hblank
  rw [Token.Role.of, if_pos hblank] at h
  exact hr h.symm

theorem Lexeme.Plain.not_blank {l : Lexeme} (h : l.Plain) :
    ∀ c ∈ l.text.toList, Text.isBlank c = false := by
  intro c hc
  cases l with
  | number digits => exact Token.not_blank_of_role (Token.role_digit (h.2 c hc)) (by simp)
  | word letters => exact Token.not_blank_of_role (Token.role_letter (h.2 c hc)).1 (by simp)
  | symbol s =>
    rcases Token.symbol_chars s with ⟨c', hs, hrole⟩ | ⟨c', first, hs, hrole, _⟩
    · rw [Lexeme.text, hs, List.mem_singleton] at hc
      exact hc ▸ Token.not_blank_of_role hrole (by simp)
    · simp only [Lexeme.text, hs, List.mem_cons, List.not_mem_nil, or_false] at hc
      rcases hc with rfl | rfl
      · exact Token.not_blank_of_role hrole (by simp)
      · decide

theorem Lexeme.Plain.text_ne_nil {l : Lexeme} (h : l.Plain) : l.text.toList ≠ [] := by
  cases l with
  | number digits => exact h.1
  | word letters => exact h.1
  | symbol s => cases s <;> simp [Lexeme.text, Symbol.text]

/-- Neither end of the text is blank. -/
structure Solid (t : List Char) : Prop where
  head : ∀ c ∈ t.head?, Text.isBlank c = false
  last : ∀ c ∈ t.getLast?, Text.isBlank c = false

theorem Solid.dropWhile {t : List Char} (h : Solid t) : t.dropWhile Text.isBlank = t := by
  cases t with
  | nil => rfl
  | cons c t => rw [List.dropWhile_cons_of_neg (by simp [h.head c rfl])]

theorem Solid.reverse {t : List Char} (h : Solid t) : Solid t.reverse :=
  ⟨by simpa using h.last, by simpa using h.head⟩

theorem Solid.strip {text : String} (h : Solid text.toList) : Text.strip text = text := by
  rw [Text.strip, Text.trimmed, h.dropWhile, h.reverse.dropWhile, List.reverse_reverse,
    String.ofList_toList]

namespace Renders

variable {ok : Lexeme → Prop} {t : List Char} {ls : List Lexeme}

theorem ne_nil (h : Renders ok t ls) (hok : ∀ l, ok l → l.Plain) (hls : ls ≠ []) : t ≠ [] := by
  cases h with
  | nil => exact absurd rfl hls
  | close hl => simp [(hok _ hl).text_ne_nil]
  | spaced hl => simp

theorem solid (h : Renders ok t ls) (hok : ∀ l, ok l → l.Plain) : Solid t := by
  induction h with
  | nil => exact ⟨by simp, by simp⟩
  | @close l t ls hl h ih =>
    have hl := hok l hl
    refine ⟨fun c hc => ?_, fun c hc => ?_⟩
    · rw [List.head?_append_of_ne_nil _ hl.text_ne_nil] at hc
      exact hl.not_blank c (List.mem_of_mem_head? hc)
    · rw [List.getLast?_append] at hc
      rcases Option.or_eq_some_iff.mp hc with hc | ⟨_, hc⟩
      · exact ih.last c hc
      · exact hl.not_blank c (List.mem_of_getLast? hc)
  | @spaced l t ls hl hls h ih =>
    have hl := hok l hl
    refine ⟨fun c hc => ?_, fun c hc => ?_⟩
    · rw [List.head?_append_of_ne_nil _ hl.text_ne_nil] at hc
      exact hl.not_blank c (List.mem_of_mem_head? hc)
    · obtain ⟨d, t, rfl⟩ := List.exists_cons_of_ne_nil (h.ne_nil hok hls)
      exact ih.last c (by simpa using hc)

end Renders

/-! ## The round trip -/

namespace Roll

open Grammar

variable {limits : Limits} {text : String} {parsed : Roll}

/-- A roll that is read is derived by one of the alternatives, from lexemes that can be written. -/
theorem exists_derives (h : parse limits text = .ok parsed) :
    ∃ ls, (∀ l ∈ ls, l.Scanned limits.maxDigits) ∧
      ∃ a ∈ alternatives, Derives limits.maxDepth 0 ls (a.2 parsed.expr) := by
  obtain ⟨tokens, hscan, hpass, hder⟩ := parse_eq_ok_iff.mp h
  refine ⟨_, fun l hl => ⟨hpass l hl, fun hword => ?_⟩, hder.exists_mem⟩
  cases l with
  | word letters => exact Token.plain_of_scan hscan hl
  | _ => cases hword

theorem kind_of_parse (h : parse limits text = .ok parsed) : parsed.kind = parsed.expr.kind := by
  obtain ⟨_, _, _, hder⟩ := parse_eq_ok_iff.mp h
  exact kind_eq_of_derivesRoll hder

theorem written_of_mem {a : Kind × (Expr → Part)} (ha : a ∈ alternatives) {e : Expr}
    {t : List Char} {ls : List Lexeme} (h : (a.2 e).Written t ls) : e.text.toList = t := by
  simp only [alternatives, List.mem_cons, List.not_mem_nil, or_false] at ha
  rcases ha with rfl | rfl | rfl | rfl | rfl <;> exact h

theorem isOptional_of_mem {a : Kind × (Expr → Part)} (ha : a ∈ alternatives) (e : Expr) :
    (a.2 e).isOptional = false := by
  simp only [alternatives, List.mem_cons, List.not_mem_nil, or_false] at ha
  rcases ha with rfl | rfl | rfl | rfl | rfl <;> rfl

theorem gap?_of_mem {a : Kind × (Expr → Part)} (ha : a ∈ alternatives) {e : Expr}
    (h : (a.2 e).Gapless) : e.gap? = none := by
  simp only [alternatives, List.mem_cons, List.not_mem_nil, or_false] at ha
  rcases ha with rfl | rfl | rfl | rfl | rfl <;> exact h

theorem write_eq_ok (h : parse limits text = .ok parsed) :
    parsed.expr.write = .ok parsed.expr.text := by
  obtain ⟨ls, _, a, ha, hder⟩ := exists_derives h
  rw [Expr.write, gap?_of_mem ha hder.gapless]

/-- The canonical text is made of lexemes that spell the tree. -/
theorem exists_renders (h : parse limits text = .ok parsed) :
    ∃ ls, ls ≠ [] ∧ Renders (Lexeme.Canonical limits.maxDigits) parsed.expr.text.toList ls ∧
      ∃ a ∈ alternatives, Derives limits.maxDepth 0 ls (a.2 parsed.expr) := by
  obtain ⟨ls, hls, a, ha, hder⟩ := exists_derives h
  obtain ⟨t, ls', hwritten⟩ := hder.writable hls
  rw [written_of_mem ha hwritten.written]
  exact ⟨ls', hwritten.derives.ne_nil (isOptional_of_mem ha _), hwritten.renders, a, ha,
    hwritten.derives⟩

/-- A canonical text is read if its lexemes spell the tree. -/
theorem exists_parse_of_renders {e : Expr} {ls : List Lexeme} {a : Kind × (Expr → Part)}
    (hrenders : Renders (Lexeme.Canonical limits.maxDigits) e.text.toList ls)
    (ha : a ∈ alternatives) (hder : Derives limits.maxDepth 0 ls (a.2 e)) :
    ∃ kind, parse limits e.text = .ok ⟨kind, e⟩ := by
  obtain ⟨tokens, hscan, rfl⟩ :=
    Token.scan_of_renders hrenders (fun _ hl => hl.plain) hder.tight.apart
  have hpass : ∀ l ∈ tokens.filterMap Token.lexeme, l.Passable limits.maxDigits := fun l hl =>
    (hrenders.all_ok l hl).passable
  exact exists_parse_eq_ok_iff.mpr ⟨⟨tokens, hscan, fun l hl => (hpass l hl).fits, a, ha, hder⟩,
    (convertible_iff hscan).mpr fun l hl => (hpass l hl).converts⟩

theorem parse_canonical (h : parse limits text = .ok parsed) :
    parse limits parsed.expr.text = .ok parsed := by
  obtain ⟨ls, _, hrenders, a, ha, hder⟩ := exists_renders h
  obtain ⟨kind, hparse⟩ := exists_parse_of_renders hrenders ha hder
  have hkind : kind = parsed.kind := (kind_of_parse hparse).trans (kind_of_parse h).symm
  rw [hparse, hkind]

theorem requested_canonical {settings : Settings} (h : parse settings.limits text = .ok parsed) :
    requested settings (some parsed.expr.text) = parsed.expr.text := by
  obtain ⟨ls, hne, hrenders, _⟩ := exists_renders h
  have hplain : ∀ l, Lexeme.Canonical settings.limits.maxDigits l → l.Plain := fun _ hl => hl.plain
  have htext : parsed.expr.text ≠ "" := fun e => hrenders.ne_nil hplain hne (by simp [e])
  rw [requested, Option.map_some, (hrenders.solid hplain).strip]
  split
  · simp_all
  · simp_all
  · simp_all

/-- What is read is written in canonical notation, which is read as the same roll within the same
limits; asked for in place of the text that was read, it is rolled in the same way. -/
theorem parse_text (settings : Settings) (text : String) (parsed : Roll)
    (h : parse settings.limits text = .ok parsed) :
    parsed.expr.write = .ok parsed.expr.text ∧
      parse settings.limits parsed.expr.text = .ok parsed ∧
      ∀ source description, requested settings source = text →
        roll settings (some parsed.expr.text) description = roll settings source description := by
  refine ⟨write_eq_ok h, parse_canonical h, fun source description hsource => ?_⟩
  rw [roll, roll, requested_canonical h, parse_canonical h, hsource, h]

theorem parse_text_twoDice :
    ∃ parsed, parse ({} : Settings).limits "02D6" = .ok parsed ∧ parsed.expr.text = "2d6" ∧
      parse ({} : Settings).limits parsed.expr.text = .ok parsed := by
  have h : parse ({} : Settings).limits "02D6" =
    .ok ⟨.scalar, .dice (some (.int 2)) (.numbered (.int 6)) []⟩ := rfl
  exact ⟨_, h, rfl, (parse_text {} "02D6" _ h).2.1⟩

end Roll

end DiceLang
