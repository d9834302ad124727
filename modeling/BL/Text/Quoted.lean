import BL.Text.Printable

namespace BL.Text

/-!
# Quoted texts

Messages show a text from the source between quotes, with everything that would not show as itself
escaped.

* `quoteMark` — which of the two quotes is used;
* `escapeChar` — how one character is written;
* `quote`, `quoteList` — a text, and a list of texts, in quotes.
-/

/-! ### The two quotes -/

/-- The single quote. -/
def singleMark : Char := '\x27'

/-- The double quote. -/
def doubleMark : Char := '\x22'

/-- Single quotes, unless the text has a single quote and no double one. -/
def quoteMark (cs : List Char) : Char :=
  if cs.contains singleMark && !cs.contains doubleMark then doubleMark else singleMark

/-! ### Escapes -/

/-- The number in lower-case hexadecimal, filled with zeros to the width. -/
def hex (width n : Nat) : List Char :=
  (Nat.toDigits 16 n).leftpad width '0'

/-- A backslash and the quote in use are escaped, line feed, carriage return and tab have names, and
    what is not printable is written by its code point in 2, 4 or 8 digits. -/
def escapeChar (mark c : Char) : List Char :=
  if c = '\\' ∨ c = mark then ['\\', c]
  else if c = '\n' then ['\\', 'n']
  else if c = '\r' then ['\\', 'r']
  else if c = '\t' then ['\\', 't']
  else if isPrintable c then [c]
  else if c.toNat < 0x100 then '\\' :: 'x' :: hex 2 c.toNat
  else if c.toNat < 0x10000 then '\\' :: 'u' :: hex 4 c.toNat
  else '\\' :: 'U' :: hex 8 c.toNat

/-- The characters of a quoted text. -/
def quoteChars (cs : List Char) : List Char :=
  let mark := quoteMark cs
  mark :: (cs.flatMap (escapeChar mark) ++ [mark])

/-- The text in quotes. -/
def quote (s : String) : String :=
  String.ofList (quoteChars s.toList)

/-- The texts in quotes, in brackets and separated by commas. -/
def quoteList (ss : List String) : String :=
  "[" ++ String.intercalate ", " (ss.map quote) ++ "]"

end BL.Text
