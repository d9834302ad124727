import BL.Text.Quoted
import BL.Text.Uppercase

namespace BL

/-!
# Conditions

What an `IF` or a `WHILE` tests: the square ahead, a coin, or nothing at all.

* `Condition` — the ten conditions;
* `Condition.spelling` — the word that stands for a condition in a source text;
* `Condition.label` — the name a condition has in the dump of a statement's root;
* `Condition.ofLabelLike` — the condition whose label a word has once it is put in upper case.
-/

/-- A test that guards a conditional or a loop. -/
inductive Condition where
  | nextIsEmpty
  | nextIsNotEmpty
  | nextIsWall
  | nextIsNotWall
  | nextIsFriend
  | nextIsNotFriend
  | nextIsEnemy
  | nextIsNotEnemy
  | random
  | always
  deriving DecidableEq, Repr, Inhabited

namespace Condition

/-- All conditions, the tests of the square ahead first. -/
def all : List Condition :=
  [nextIsEmpty, nextIsNotEmpty, nextIsWall, nextIsNotWall, nextIsFriend, nextIsNotFriend,
   nextIsEnemy, nextIsNotEnemy, random, always]

@[simp] theorem mem_all (c : Condition) : c ∈ all := by cases c <;> decide

/-! ### Spelling and label -/

/-- The word for the condition. -/
def spelling : Condition → String
  | nextIsEmpty => "next-is-empty"
  | nextIsNotEmpty => "next-is-not-empty"
  | nextIsWall => "next-is-wall"
  | nextIsNotWall => "next-is-not-wall"
  | nextIsFriend => "next-is-friend"
  | nextIsNotFriend => "next-is-not-friend"
  | nextIsEnemy => "next-is-enemy"
  | nextIsNotEnemy => "next-is-not-enemy"
  | random => "random"
  | always => "true"

/-- The name of the condition in capitals. -/
def label : Condition → String
  | nextIsEmpty => "NEXT_IS_EMPTY"
  | nextIsNotEmpty => "NEXT_IS_NOT_EMPTY"
  | nextIsWall => "NEXT_IS_WALL"
  | nextIsNotWall => "NEXT_IS_NOT_WALL"
  | nextIsFriend => "NEXT_IS_FRIEND"
  | nextIsNotFriend => "NEXT_IS_NOT_FRIEND"
  | nextIsEnemy => "NEXT_IS_ENEMY"
  | nextIsNotEnemy => "NEXT_IS_NOT_ENEMY"
  | random => "RANDOM"
  | always => "TRUE"

/-! ### Reading -/

/-- A word in capitals, with low lines for hyphens. -/
def capitals (word : String) : String :=
  Text.upper (String.ofList (word.toList.map fun c => if c = '-' then '_' else c))

/-- The condition with the label that the word has in capitals. -/
def ofLabelLike (word : String) : Option Condition :=
  all.find? (·.label == capitals word)

/-- The condition with the spelling. -/
def ofSpelling (word : String) : Option Condition :=
  all.find? (·.spelling == word)

@[simp] theorem ofSpelling_spelling (c : Condition) : ofSpelling c.spelling = some c := by
  cases c <;> decide

theorem spelling_injective {c d : Condition} (h : c.spelling = d.spelling) : c = d := by
  simpa using congrArg ofSpelling h

end Condition

end BL
