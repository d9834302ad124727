import BL.Token.Basic
import BL.Violation

namespace BL

/-!
# Faults

What can go wrong while a text is read, and while statements are used.

* `Rejection` — why a text is no program, and the token that shows it;
* `Fault` — a rejection, a violated condition of use, a word that names no condition, or a walk that
  was given too few steps;
* `Fault.code`, `Rejection.summary` — how a rejection is numbered and put into words.
-/

/-! ### Rejections -/

/-- Why a token is not the right one. -/
inductive Cause where
  /-- Another keyword has to stand here. -/
  | missingKeyword (keyword : String)
  /-- An identifier has to stand here. -/
  | noIdentifier
  /-- The name of a condition has to stand here. -/
  | noCondition
  /-- A keyword is to be defined as an instruction. -/
  | definesKeyword
  /-- The name of a condition is to be defined as an instruction. -/
  | definesCondition
  /-- A primitive instruction is to be defined. -/
  | definesPrimitive
  /-- The name at the end is not the one at the beginning. -/
  | nameMismatch
  /-- An instruction is defined a second time. -/
  | definedTwice
  /-- The input goes on. -/
  | trailing
  deriving DecidableEq, Repr

namespace Cause

/-- The number of the cause. -/
def code : Cause → String
  | missingKeyword _ => "E001"
  | noIdentifier => "E002"
  | noCondition => "E003"
  | definesKeyword => "E004"
  | definesCondition => "E005"
  | definesPrimitive => "E006"
  | nameMismatch => "E007"
  | definedTwice => "E008"
  | trailing => "E009"

/-- The cause in a few words. -/
def summary : Cause → String
  | missingKeyword k => "keyword " ++ k ++ " not present"
  | noIdentifier => "Invalid Identifier"
  | noCondition => "Invalid Condition"
  | definesKeyword => "Instruction name cannot be a keyword"
  | definesCondition => "Instruction name cannot be a condition"
  | definesPrimitive => "Instruction name cannot be a primitive instruction"
  | nameMismatch => "Identifier names do not match"
  | definedTwice => "Cannot have duplicate Identifiers"
  | trailing => "There is content still in tokens"

end Cause

/-- Reading stopped at a token, for a cause. -/
structure Rejection where
  cause : Cause
  token : Token
  deriving DecidableEq, Repr

/-! ### Faults -/

/-- What went wrong. -/
inductive Fault where
  /-- The text is not what was to be read. -/
  | rejected (r : Rejection)
  /-- A condition of use does not hold. -/
  | violated (v : Violation)
  /-- No condition has the label. -/
  | unknownCondition (label : String)
  /-- The walk was given fewer steps than it takes. -/
  | exhausted
  deriving DecidableEq, Repr

namespace Fault

/-- An operation that can only violate a condition of use. -/
def ofViolation {α : Type} : Except Violation α → Except Fault α
  | .ok a => .ok a
  | .error v => .error (.violated v)

@[simp] theorem ofViolation_ok {α : Type} (a : α) : ofViolation (.ok a) = .ok a := rfl
@[simp] theorem ofViolation_error {α : Type} (v : Violation) :
    ofViolation (.error v : Except Violation α) = .error (.violated v) := rfl

end Fault

/-- The condition with the label that the word has in capitals; a word that names none is a
    fault. -/
def Condition.named (word : String) : Except Fault Condition :=
  match Condition.ofLabelLike word with
  | some c => .ok c
  | none => .error (.unknownCondition (Condition.capitals word))

/-- The name of a condition names it. -/
@[simp] theorem Condition.named_spelling (c : Condition) :
    Condition.named c.spelling = .ok c := by
  cases c <;> rfl

end BL
