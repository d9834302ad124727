import BL.Text.Blank
import BL.Text.Lines
import BL.Token.Basic

namespace BL.Source

/-!
# The tokens of a source text

A source text is read line by line. On each line a `#` opens a comment up to the line's end. In what
stands before it, blanks separate tokens: a word reaches as far as letters, digits and hyphens go,
and anything else reaches to the next blank and is an error, which is reported where it is read.

* `tokensFrom` — the tokens of a line from a column on;
* `lineTokens`, `linesTokens` — the tokens of a line without its comment, and of several lines;
* `tokens` — the tokens of a text, the end-of-input token last.
-/

/-! ### One line -/

/-- The characters that continue a token, by the token's first character. -/
def continues (first : Char) : Char → Bool :=
  if Word.isLetter first then Word.isWordChar else fun c => !Text.isBlank c

/-- The token that a piece of a line makes. -/
def pieceToken (line column : Nat) (first : Char) (others : List Char) : Token where
  kind := if Word.isLetter first then .ofWord (String.ofList (first :: others)) else .error
  text := String.ofList (first :: others)
  line := line
  column := column

theorem length_dropWhile_le (p : Char → Bool) (cs : List Char) :
    (cs.dropWhile p).length ≤ cs.length :=
  (List.dropWhile_sublist p).length_le

/-- The tokens of what is left of a line from a column on. -/
def tokensFrom (line column : Nat) : List Char → List Token
  | [] => []
  | c :: cs =>
    if Text.isBlank c then tokensFrom line (column + 1) cs
    else
      pieceToken line column c (cs.takeWhile (continues c)) ::
        tokensFrom line (column + 1 + (cs.takeWhile (continues c)).length)
          (cs.dropWhile (continues c))
termination_by cs => cs.length
decreasing_by
  · simp
  · have := length_dropWhile_le (continues c) cs
    simp only [List.length_cons]
    omega

@[simp] theorem tokensFrom_nil (line column : Nat) : tokensFrom line column [] = [] := by
  simp [tokensFrom]

theorem tokensFrom_blank {c : Char} (h : Text.isBlank c = true) (line column : Nat)
    (cs : List Char) : tokensFrom line column (c :: cs) = tokensFrom line (column + 1) cs := by
  rw [tokensFrom, if_pos h]

theorem tokensFrom_piece {c : Char} (h : Text.isBlank c = false) (line column : Nat)
    (cs : List Char) : tokensFrom line column (c :: cs) =
      pieceToken line column c (cs.takeWhile (continues c)) ::
        tokensFrom line (column + 1 + (cs.takeWhile (continues c)).length)
          (cs.dropWhile (continues c)) := by
  rw [tokensFrom, if_neg (by simp [h])]

/-- What stands before the comment of a line. -/
def dropComment (cs : List Char) : List Char := cs.takeWhile (· != '#')

/-- The tokens of the line with the given number. -/
def lineTokens (number : Nat) (cs : List Char) : List Token :=
  tokensFrom number 0 (dropComment cs)

/-! ### All lines -/

/-- The tokens of lines, the first of which has the given number. -/
def linesTokens (number : Nat) : List (List Char) → List Token
  | [] => []
  | l :: ls => lineTokens number l ++ linesTokens (number + 1) ls

@[simp] theorem linesTokens_append (number : Nat) (ls ms : List (List Char)) :
    linesTokens number (ls ++ ms) =
      linesTokens number ls ++ linesTokens (number + ls.length) ms := by
  induction ls generalizing number with
  | nil => simp [linesTokens]
  | cons l ls ih => simp [linesTokens, ih, Nat.add_assoc, Nat.add_comm 1]

/-- The tokens of a source text; the last one ends the input on the text's last line. -/
def tokens (source : String) : List Token :=
  let lines := Text.splitLines source.toList
  linesTokens 1 lines ++ [.endOfInput lines.length]

end BL.Source
