import BL.Fault
import BL.Text.Lines

namespace BL

/-!
# Reports

A report tells the writer of a source text what is wrong with it: where, in which words, on which
line, and what to do about it.

* `Report` — a numbered message, with the token that it is about, if any;
* `Report.line`, `Report.column` — the place;
* `Report.summary` — one line of text;
* `Report.render` — the whole report, with the line of the source and a caret below it;
* `Rejection.report` — the report of a rejection.
-/

/-- A message about a source text. -/
structure Report where
  code : String
  message : String
  token : Option Token
  deriving DecidableEq, Repr

/-- What a number of a message stands for, in general. -/
structure Report.Topic where
  code : String
  title : String
  tip : String
  deriving DecidableEq, Repr

namespace Report

/-! ### Topics -/

/-- The topics, by number. -/
def topics : List Topic := [
  ⟨"E001", "Missing keyword",
    "BL constructs are closed by fixed keyword pairs (END IF, END WHILE, END name)."⟩,
  ⟨"E002", "Invalid Identifier",
    "Identifiers start with a letter and contain letters, digits and '-'; keywords and " ++
    "conditions are reserved."⟩,
  ⟨"E003", "Invalid Condition",
    "Use one of next-is-empty, next-is-wall, next-is-friend, next-is-enemy (or their -not- " ++
    "forms), random, true."⟩,
  ⟨"E004", "Keyword used as instruction name",
    "Keywords cannot name a user-defined instruction."⟩,
  ⟨"E005", "Condition used as instruction name",
    "Condition names cannot name a user-defined instruction."⟩,
  ⟨"E006", "Primitive redefined",
    "move, turnleft, turnright, infect and skip are built in and cannot be redefined."⟩,
  ⟨"E007", "Name mismatch",
    "The name after END must repeat the name given at the start."⟩,
  ⟨"E008", "Duplicate instruction",
    "Each INSTRUCTION must have a unique name."⟩,
  ⟨"E009", "Trailing content",
    "Nothing may follow the program's closing END name."⟩]

/-- The topic of a number; an unknown number has one without a tip. -/
def topicOf (code : String) : Topic :=
  (topics.find? (·.code == code)).getD ⟨code, "Error", "-"⟩

/-- The title of the topic. -/
def title (r : Report) : String := (topicOf r.code).title

/-- The tip of the topic. -/
def tip (r : Report) : String := (topicOf r.code).tip

/-! ### Place -/

/-- The line of the token, or the first line. -/
def line (r : Report) : Int := (r.token.map Token.line).getD 1

/-- The column of the token, or the first column. -/
def column (r : Report) : Int := (r.token.map Token.column).getD 0

/-! ### Texts -/

/-- The message, what stands at the place instead, and the line. -/
def summary (r : Report) : String :=
  let found := match r.token with
    | some t => " (found " ++ Text.quote t.text ++ ")"
    | none => ""
  r.message ++ found ++ " at line " ++ toString r.line

/-- A text in the colour with the number, on a terminal. -/
def coloured (colour : Nat) (text : String) : String :=
  "\x1b[" ++ toString colour ++ "m" ++ text ++ "\x1b[0m"

/-- The colour of errors. -/
def red : Nat := 91

/-- The colour of tips. -/
def yellow : Nat := 93

/-- The line of the text with the given number, if there is such a line. -/
def lineOf (source : String) (number : Int) : Option String :=
  if 1 ≤ number then
    (Text.splitLines source.toList)[(number - 1).toNat]?.map String.ofList
  else none

/-- A line of the source with a caret under the column. -/
def excerpt (text : String) (column : Int) : String :=
  ">   " ++ text ++ "\n    " ++ String.ofList (List.replicate column.toNat ' ') ++ "^\n"

/-- A text unless it is missing or empty. -/
def nonempty (text : Option String) : Option String := text.filter (· ≠ "")

/-- The title of the report; the message follows where it says more. -/
def heading (r : Report) : String :=
  if r.message = r.title then r.title else r.title ++ " [" ++ r.message ++ "]"

/-- The report on a source text in a file: place and heading, the line of the source with a caret if
    the source is known and has that line, and the tip. -/
def render (r : Report) (source file : Option String) : String :=
  let place := (nonempty file).getD "unknown" ++ ":" ++ toString r.line ++ ":" ++ toString r.column
  let shown := match (nonempty source).bind (lineOf · r.line) with
    | some text => excerpt text r.column
    | none => ""
  place ++ ": " ++ coloured red "error" ++ ": " ++ r.heading ++ "\n" ++ shown ++
    "  " ++ coloured yellow "Tip:" ++ " " ++ r.tip

end Report

/-- The report of a rejection. -/
def Rejection.report (r : Rejection) : Report where
  code := r.cause.code
  message := r.cause.summary
  token := some r.token

end BL
