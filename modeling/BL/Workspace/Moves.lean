import BL.Workspace.Basic

namespace BL.Action

/-!
# Moving statements

The operations that build statements and take them apart. The target is a statement at a place; the
other arguments are references, which are followed only when the operation comes to them. A
statement that goes into another one is moved: an empty block is left at its place. No statement
moves into itself.

* `take`, `hand` — moving a statement away from its place, and handing one out;
* `insertChild`, `removeChild`, `assembleIf`, `assembleIfElse`, `assembleWhile`, `assembleCall`,
  `disassembleIf`, `disassembleIfElse`, `disassembleWhile`, `disassembleCall` — the operations on a
  target and what goes into it or comes out of it;
* `transfer`, `clear` — moving a whole statement, and emptying one.
-/

/-- Moves a statement away from its place, for the target, which must be another one. -/
def take (target : Place) (source : Reference) : Action Statement := do
  match (← get).statementPlace? source with
  | none => violate .notAStatement
  | some place => do
    refuse (place = target) .sameStatement
    let s ← statementAt place
    setStatement place .empty
    return s

/-- Hands a statement out that was a part of the target: it replaces the one that the reference
    leads to. What is no statement has no use for it, and the statement is lost. Nothing can be
    handed to a context; the target has lost its part then, and what is left of it is `hollow`. -/
def hand (target : Place) (hollow : Statement) (recipient : Reference) (s : Statement) :
    Action Unit := do
  match (← get).statementPlace? recipient with
  | some place => setStatement place s
  | none =>
    match (← get).contentAt? recipient with
    | none | some (.context _) =>
      setStatement target hollow
      throw .nothingThere
    | some _ => return

/-! ### Blocks -/

/-- Moves a statement into the target, in front of the child with the given number. -/
def insertChild (target : Place) (index : Int) (child : Reference) : Action Unit := do
  let s ← statementAt target
  let _ ← check (s.childrenAround index)
  let s ← check (s.insertChild index (← statementOf child))
  let _ ← take target child
  setStatement target s

/-- Moves the child with the given number out of the target into a slot. -/
def removeChild (target : Place) (index : Int) (slot : String) : Action Unit := do
  let s ← statementAt target
  let (child, s) ← check (s.removeChild index)
  setStatement target s
  setSlot slot (.statement child)

/-- The number of children of the target. -/
def blockLength (target : Place) : Action Nat := do
  check (← statementAt target).blockLength

/-! ### Putting together -/

/-- Makes the target a conditional with one branch. -/
def assembleIf (target : Place) (c : Option Condition) (body : Reference) : Action Unit := do
  let s ← check (Statement.assembleIf c (← statementOf body))
  let _ ← take target body
  setStatement target s

/-- Makes the target a conditional with two branches. The first branch is moved before it is clear
    that the second can be. -/
def assembleIfElse (target : Place) (c : Option Condition) (body alternative : Reference) :
    Action Unit := do
  refuse (body.sameAs alternative) .sameBranches
  let s ← statementOf body
  check (s.requireBlock .firstBranchNotBlock)
  let s ← check (Statement.assembleIfElse c s (← statementOf alternative))
  let _ ← take target body
  let _ ← take target alternative
  setStatement target s

/-- Makes the target a loop. -/
def assembleWhile (target : Place) (c : Option Condition) (body : Reference) : Action Unit := do
  let s ← check (Statement.assembleWhile c (← statementOf body))
  let _ ← take target body
  setStatement target s

/-- Makes the target a call. -/
def assembleCall (target : Place) (name : Option String) : Action Unit := do
  let s ← check (Statement.assembleCall name)
  setStatement target s

/-! ### Taking apart -/

/-- Takes a conditional with one branch apart: the branch is handed out, the target becomes an empty
    block. -/
def disassembleIf (target : Place) (body : Reference) : Action Condition := do
  let (c, s) ← check (← statementAt target).disassembleIf
  refuse (body.sameAs (.place target)) .sameStatement
  hand target (.ifThen c .empty) body s
  setStatement target .empty
  return c

/-- Takes a conditional with two branches apart. -/
def disassembleIfElse (target : Place) (body alternative : Reference) : Action Condition := do
  let (c, s, t) ← check (← statementAt target).disassembleIfElse
  refuse (body.sameAs (.place target) || alternative.sameAs (.place target)) .branchIsTarget
  refuse (body.sameAs alternative) .sameBranches
  hand target (.ifElse c .empty t) body s
  hand target (.ifElse c .empty .empty) alternative t
  setStatement target .empty
  return c

/-- Takes a loop apart. -/
def disassembleWhile (target : Place) (body : Reference) : Action Condition := do
  let (c, s) ← check (← statementAt target).disassembleWhile
  refuse (body.sameAs (.place target)) .sameStatement
  hand target (.whileDo c .empty) body s
  setStatement target .empty
  return c

/-- Takes a call apart. -/
def disassembleCall (target : Place) : Action String := do
  let name ← check (← statementAt target).disassembleCall
  setStatement target .empty
  return name

/-! ### Whole statements -/

/-- Empties the target. -/
def clear (target : Place) : Action Unit := setStatement target .empty

/-- Moves a whole statement into the target. -/
def transfer (target : Place) (source : Reference) : Action Unit := do
  let s ← take target source
  setStatement target s

end BL.Action
