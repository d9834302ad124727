import BL.Layout.Walk

namespace BL

/-!
# The tree of a statement as text

A statement is written as its tree in parentheses: the name of the construct, then its condition or
name, then its parts.

* `Layout.tree` — what becomes of each construct;
* `Statement.tree` — the text, by recursion on the tree;
* `Statement.dump` — the text, by taking the statement apart;
* `Statement.dump_eq` — on well-formed statements both agree.
-/

namespace Layout

/-- Each text after a space. -/
def spaced (texts : List String) : String := String.join (texts.map (" " ++ ·))

/-- The name of a construct and its parts in parentheses. -/
def node (k : Kind) (parts : List String) : String := "(" ++ k.label ++ spaced parts ++ ")"

/-- The texts that become of each construct. -/
def tree : Statement.Algebra String where
  block parts := node .block parts
  ifThen c body := node .ifThen [c.spelling, body]
  ifElse c body alternative := node .ifElse [c.spelling, body, alternative]
  whileDo c body := node .whileDo [c.spelling, body]
  call name := node .call [name]

end Layout

namespace Statement

/-- The statement as a tree in parentheses. -/
def tree (s : Statement) : String := s.fold Layout.tree

/-- The tree in parentheses, got by taking the statement apart, and the statement put together
    again. -/
def dump (s : Statement) : Except Fault (String × Statement) := s.walk Layout.tree

/-- The tree in parentheses, as messages for programmers show it. -/
def describe (s : Statement) : Except Fault (String × Statement) :=
  s.dump.map fun (text, s) => ("Statement(" ++ text ++ ")", s)

/-- A dump shows the tree and leaves the statement as it was. -/
theorem dump_eq {s : Statement} (hs : s.WellFormed) : s.dump = .ok (s.tree, s) :=
  walk_eq Layout.tree hs

theorem describe_eq {s : Statement} (hs : s.WellFormed) :
    s.describe = .ok ("Statement(" ++ s.tree ++ ")", s) := by
  rw [describe, dump_eq hs]
  rfl

end Statement

end BL
