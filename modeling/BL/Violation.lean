import BL.Text.Quoted

namespace BL

/-!
# Violations

The operations on statements and programs promise something only if what they are given is right.
Each checks this first and names what is wrong.

* `Kind` — the five kinds of statements, which many checks ask for;
* `Violation` — the ways to break a condition of use;
* `Violation.message` — the text that reports it;
* `exists_of_bind_eq_ok` — steps that may fail, one after the other.
-/

/-! ### Kinds of statements -/

/-- The construct at the root of a statement. -/
inductive Kind where
  | block
  | ifThen
  | ifElse
  | whileDo
  | call
  deriving DecidableEq, Repr, Inhabited

namespace Kind

/-- All kinds. -/
def all : List Kind := [block, ifThen, ifElse, whileDo, call]

/-- The name of the kind. -/
def label : Kind → String
  | block => "BLOCK"
  | ifThen => "IF"
  | ifElse => "IF_ELSE"
  | whileDo => "WHILE"
  | call => "CALL"

/-- The name of the kind after its article. -/
def labelWithArticle (k : Kind) : String :=
  match k with
  | ifThen | ifElse => "an " ++ k.label
  | _ => "a " ++ k.label

end Kind

/-! ### Broken conditions of use -/

/-- A condition of use that does not hold. -/
inductive Violation where
  /-- The statement is not of the kind that the operation is for. -/
  | wrongKind (expected : Kind)
  /-- There is no place with this number to put a child at. -/
  | noSuchPlace
  /-- There is no child with this number. -/
  | noSuchChild
  /-- A block does not go into a block. -/
  | blockInBlock
  /-- The branch of a conditional or the body of a loop is no block. -/
  | bodyNotBlock
  /-- The first branch of two is no block. -/
  | firstBranchNotBlock
  /-- The second branch of two is no block. -/
  | secondBranchNotBlock
  /-- There is no condition. -/
  | noCondition
  /-- The name of a call is no identifier. -/
  | badCallName
  /-- What should be a statement is none. -/
  | notAStatement
  /-- A statement cannot be moved into itself. -/
  | sameStatement
  /-- The two branches are one and the same statement. -/
  | sameBranches
  /-- A branch cannot be handed out to the statement that is taken apart. -/
  | branchIsTarget
  /-- What should be a program is none. -/
  | notAProgram
  /-- A program cannot be moved into itself. -/
  | sameProgram
  /-- The name of a program is no identifier. -/
  | badProgramName
  /-- What should be a context is none. -/
  | notAContext
  /-- A name in a context is no identifier. -/
  | badEntryName (name : String)
  /-- What a context holds under a name is no block. -/
  | entryNotBlock (name : String)
  /-- What should become the body of a program is no statement. -/
  | bodyNotAStatement
  /-- What should become the body of a program is no block. -/
  | newBodyNotBlock
  /-- The tokens do not begin with the keyword that the construct begins with. -/
  | wrongOpening (keyword : String)
  deriving DecidableEq, Repr

namespace Violation

/-- The condition of use, as the message states it. -/
def condition : Violation → String
  | wrongKind k => "[this is " ++ k.labelWithArticle ++ " statement]"
  | noSuchPlace => "0 <= pos <= [length of this BLOCK]"
  | noSuchChild => "0 <= pos < [length of this BLOCK]"
  | blockInBlock => "[s is not a BLOCK statement]"
  | bodyNotBlock => "[s is a BLOCK statement]"
  | firstBranchNotBlock => "[s1 is a BLOCK statement]"
  | secondBranchNotBlock => "[s2 is a BLOCK statement]"
  | noCondition => "c is a Condition"
  | badCallName => "inst is a valid IDENTIFIER"
  | notAStatement => "s is a Statement"
  | sameStatement => "s is not this"
  | sameBranches => "s1 is not s2"
  | branchIsTarget => "s1, s2 are not this"
  | notAProgram => "source is a Program"
  | sameProgram => "source is not this"
  | badProgramName => "n is a valid IDENTIFIER"
  | notAContext => "c is a dict"
  | badEntryName name => Text.quote name ++ " is a valid IDENTIFIER"
  | entryNotBlock name => "body of " ++ name ++ " is a BLOCK statement"
  | bodyNotAStatement => "b is a Statement"
  | newBodyNotBlock => "b is a BLOCK statement"
  | wrongOpening keyword => "<\x22" ++ keyword ++ "\x22> is proper prefix of tokens"

/-- The report of the violation. -/
def message (v : Violation) : String := "Violation of: " ++ v.condition

end Violation

/-! ### Steps that may fail -/

/-- Two steps in a row succeed only if each of them does. -/
theorem exists_of_bind_eq_ok {α β ε : Type} {x : Except ε α} {f : α → Except ε β} {b : β}
    (h : x >>= f = .ok b) : ∃ a, x = .ok a ∧ f a = .ok b := by
  cases x with
  | ok a => exact ⟨a, rfl, h⟩
  | error e => simp [bind, Except.bind] at h

end BL
