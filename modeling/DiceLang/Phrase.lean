import DiceLang.Lexeme

/-!
# Phrases

A phrase is read from the lexemes ahead of a cursor. A reading keeps account of what was looked for
in vain at the furthest place reached, whether it succeeds or gives up, so that an error can name
all that would have been accepted there. A phrase that gives up leaves the cursor where it stopped;
whoever asked for it may have expectations of its own at that place.

Reading is also refused outright where a limit is broken; then no other reading is tried. A number
that is within the limits may still be too long to be converted, for all the zeros in front of it;
this ends the reading as well.
-/

namespace DiceLang

/-- A place between lexemes: how many lie before it, and those that lie ahead. -/
structure Cursor where
  index : Nat
  ahead : List Lexeme
deriving Repr, DecidableEq

def Cursor.next (c : Cursor) : Cursor := ⟨c.index + 1, c.ahead.tail⟩

/-- The furthest place at which something was looked for in vain, and what was. -/
structure Frontier where
  index : Nat
  wanted : List Expectation
deriving Repr, DecidableEq

/-- The further of two frontiers; at one place, all that was looked for. -/
def Frontier.join (a b : Frontier) : Frontier :=
  if a.index < b.index then b
  else if b.index < a.index then a
  else ⟨a.index, a.wanted ++ b.wanted.filter (!a.wanted.contains ·)⟩

inductive Limit where
  | depth
  | digits
  /-- The digits that are converted at once, zeros in front included. -/
  | conversion
deriving Repr, DecidableEq

inductive Reply (α : Type) where
  /-- The phrase was read; `rest` lies behind it. -/
  | matched (value : α) (rest : Cursor) (missed : Option Frontier)
  /-- The phrase was given up at `stopped`. -/
  | unmatched (stopped : Cursor) (missed : Frontier)
  /-- A limit is broken at `place`. -/
  | refused (limit : Limit) (place : Cursor)
deriving Repr, DecidableEq

/-- Adds what was looked for in vain before. -/
def Reply.after (missed : Option Frontier) : Reply α → Reply α
  | .matched a rest missed' => .matched a rest (Option.merge Frontier.join missed missed')
  | .unmatched stopped missed' =>
    .unmatched stopped (match missed with
      | some f => f.join missed'
      | none => missed')
  | .refused limit place => .refused limit place

/-- How a phrase of the notation is read. -/
def Phrase (α : Type) : Type := Cursor → Reply α

namespace Phrase

instance : Monad Phrase where
  pure a := fun c => .matched a c none
  bind p f := fun c =>
    match p c with
    | .matched a rest missed => (f a rest).after missed
    | .unmatched stopped missed => .unmatched stopped missed
    | .refused limit place => .refused limit place

/-- The lexemes ahead. -/
def ahead : Phrase (List Lexeme) := fun c => .matched c.ahead c none

/-- Passes over the next lexeme. -/
def skip : Phrase Unit := fun c => .matched () c.next none

/-- Gives up, having looked for `wanted`. -/
def giveUp (wanted : List Expectation) : Phrase α := fun c => .unmatched c ⟨c.index, wanted⟩

/-- Goes on, having looked for `wanted`. -/
def missing (wanted : List Expectation) : Phrase Unit :=
  fun c => .matched () c (some ⟨c.index, wanted⟩)

def refuse (limit : Limit) : Phrase α := fun c => .refused limit c

/-- The symbol `s` and nothing else. -/
def symbol (s : Symbol) : Phrase Unit := do
  if (← ahead).head? = some (.symbol s) then skip else giveUp [.symbol s]

/-- `p`; where it gives up, `wanted` would have been accepted too. -/
def orWanted (p : Phrase α) (wanted : List Expectation) : Phrase α := fun c =>
  match p c with
  | .unmatched stopped missed => .unmatched stopped (missed.join ⟨stopped.index, wanted⟩)
  | reply => reply

/-- `p`, or where it gives up, `q` from the same place. -/
def orElse (p q : Phrase α) : Phrase α := fun c =>
  match p c with
  | .unmatched _ missed => (q c).after (some missed)
  | reply => reply

/-- The end of the text. -/
def endOfInput : Phrase Unit := do
  unless (← ahead).isEmpty do giveUp [.endOfInput]

end Phrase

end DiceLang
