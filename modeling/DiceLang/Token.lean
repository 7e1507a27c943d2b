import DiceLang.ParseError
import DiceLang.Text.Blank

/-!
# Tokens

A text split into its lexemes, each with the offset at which it starts, and an end token at the
offset where the text ends. Letters and digits are taken in the longest runs, and an equals sign
joins a `<` or `>` right before it. A text is split from its end: a character joins the token that
starts right after it, or starts a token of its own.
-/

namespace DiceLang

structure Token where
  /-- Nothing at the end of the text. -/
  lexeme : Option Lexeme
  position : Nat
deriving Repr, DecidableEq

namespace Token

/-- The part that one character plays in a text. -/
inductive Role where
  | blank
  | digit
  | letter
  | symbol (symbol : Symbol)
  | stray
deriving Repr, DecidableEq

def Role.of (c : Char) : Role :=
  if Text.isBlank c then .blank
  else if Text.isDigit c then .digit
  else if c.isAlpha then .letter
  else match Symbol.ofChar? c with
    | some s => .symbol s
    | none => .stray

/-- The lexeme that starts at offset `i`, if the first of the tokens does. -/
def lexemeAt (i : Nat) : List Token → Option Lexeme
  | [] => none
  | t :: _ => if t.position = i then t.lexeme else none

/-- Puts a digit at offset `i` in front of the tokens after it. -/
def consDigit (i : Nat) (c : Char) (tokens : List Token) : List Token :=
  match lexemeAt (i + 1) tokens with
  | some (.number digits) => ⟨some (.number (String.singleton c ++ digits)), i⟩ :: tokens.tail
  | _ => ⟨some (.number (String.singleton c)), i⟩ :: tokens

/-- Puts a letter at offset `i` in front of the tokens after it. -/
def consLetter (i : Nat) (c : Char) (tokens : List Token) : List Token :=
  let c := c.toLower
  match lexemeAt (i + 1) tokens with
  | some (.word letters) => ⟨some (.word (String.singleton c ++ letters)), i⟩ :: tokens.tail
  | _ => ⟨some (.word (String.singleton c)), i⟩ :: tokens

/-- Puts a symbol at offset `i` in front of the tokens after it. -/
def consSymbol (i : Nat) (s : Symbol) (tokens : List Token) : List Token :=
  match lexemeAt (i + 1) tokens, s.withEqual? with
  | some (.symbol .equal), some joined => ⟨some (.symbol joined), i⟩ :: tokens.tail
  | _, _ => ⟨some (.symbol s), i⟩ :: tokens

/-- Puts the character at offset `i` in front of the tokens after it. -/
def cons (c : Char) (i : Nat) (after : Except ParseError (List Token)) :
    Except ParseError (List Token) :=
  match Role.of c with
  | .blank => after
  | .digit => after.map (consDigit i c)
  | .letter => after.map (consLetter i c)
  | .symbol s => after.map (consSymbol i s)
  | .stray => .error (.strayCharacter i c)

/-- The tokens of `text`. Where there are several stray characters, the first is at fault. -/
def scan (text : String) : Except ParseError (List Token) :=
  text.toList.zipIdx.foldr (fun (c, i) after => cons c i after) (.ok [⟨none, text.length⟩])

end Token

end DiceLang
