import BL.Layout.Dump
import BL.Layout.Printer
import BL.Reading.Source

namespace BL

/-!
# Documents

What a source file holds, depending on what it is read as: a program, or a sequence of statements.

* `Document`, `Document.ofSource` — the two sorts, and reading one;
* `Document.pretty` — the formatted text;
* `Document.dump` — the statements as trees, one to a line, each definition after its name.
-/

/-- The content of a source file. -/
inductive Document where
  | program (p : Program)
  | statements (s : Statement)
  deriving Inhabited

namespace Document

/-- Reads a source text, as statements or as a program. -/
def ofSource (asStatements : Bool) (source : String) : Except Fault Document :=
  if asStatements then (Statement.ofSource source).map statements
  else (Program.ofSource source).map program

/-- The formatted text. -/
def pretty : Document → Except Fault String
  | program p => p.pretty.map Prod.fst
  | statements s => (s.pretty 0).map Prod.fst

/-- A name and the tree that belongs to it. -/
def namedTree (name : String) (s : Statement) : Except Fault String := do
  let (text, _) ← s.dump
  return name ++ ": " ++ text ++ "\n"

/-- The trees of all statements. -/
def dump : Document → Except Fault String
  | program p => do
    let definitions ← p.context.entries.mapM fun e => namedTree e.1 e.2
    let body ← namedTree p.name p.body
    return String.join definitions ++ body
  | statements s => do
    let (text, _) ← s.dump
    return text ++ "\n"

end Document

end BL
