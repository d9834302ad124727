import BL.Word

namespace BL

/-!
# Tokens

A token is a piece of a source text with its place. Lists of tokens may also be put together by
hand, so that its kind, line and column may be anything.

* `TokenKind` — what the piece is; `TokenKind.ofWord` and `TokenKind.ofText` classify texts;
* `Token` — kind, text, line and column;
* `Token.endOfInput` — the token that stands after all others.
-/

/-! ### Kinds -/

/-- What a token is. The source itself gives the first five kinds; a token made by hand may carry
    any other label. -/
inductive TokenKind where
  | keyword
  | condition
  | identifier
  | error
  | endOfInput
  | other (label : String)
  deriving DecidableEq, Repr, Inhabited

namespace TokenKind

/-- The name of the kind. -/
def label : TokenKind → String
  | keyword => "KEYWORD"
  | condition => "CONDITION"
  | identifier => "IDENTIFIER"
  | error => "ERROR"
  | endOfInput => "EOF"
  | other l => l

/-- The kind with the name. -/
def ofLabel (l : String) : TokenKind :=
  ([keyword, condition, identifier, error, endOfInput].find? (·.label == l)).getD (other l)

@[simp] theorem label_ofLabel (l : String) : (ofLabel l).label = l := by
  unfold ofLabel
  cases h : [keyword, condition, identifier, error, endOfInput].find? (·.label == l) with
  | none => rfl
  | some k => simpa using List.find?_some h

/-- The kind of a word: reserved words apart, it is an identifier. -/
def ofWord (s : String) : TokenKind :=
  if Word.isKeyword s then keyword
  else if Word.isCondition s then condition
  else identifier

end TokenKind

/-! ### Tokens -/

/-- A piece of text, where it starts (lines from one, columns from zero) and what it is. -/
structure Token where
  kind : TokenKind
  text : String
  line : Int
  column : Int
  deriving DecidableEq, Repr, Inhabited

namespace Token

/-- The text of the end-of-input token; no source text holds it as a token. -/
def endText : String := "### END OF INPUT ###"

/-- The token behind the last line. -/
def endOfInput (line : Int) : Token where
  kind := .endOfInput
  text := endText
  line := line
  column := 0

@[simp] theorem endOfInput_text (line : Int) : (endOfInput line).text = endText := rfl

/-- The token ends the input. -/
def isEnd (t : Token) : Bool := t.text == endText

/-- The token as messages for programmers show it. -/
def describe (t : Token) : String :=
  "Token(" ++ t.kind.label ++ ", " ++ Text.quote t.text ++ ")"

end Token

/-- The kind of a text that stands alone. -/
def TokenKind.ofText (s : String) : TokenKind :=
  if s = Token.endText then endOfInput
  else if Word.isKeyword s then keyword
  else if Word.isCondition s then condition
  else if Word.isIdentifier s then identifier
  else error

end BL
