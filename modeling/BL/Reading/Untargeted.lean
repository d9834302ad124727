import BL.Reading.Program

namespace BL.Reader

/-!
# Reading without a statement to write to

A production can be asked for although its target is no statement. It is then read as far as no
statement is needed: up to its first block, or, where a target can stand for an empty block, up to
the first statement inside.

Each reader is given how a block is read. That reader tells whether it came to the end of the block;
if it did not, nothing more is read.

* `emptyBlock` — a block that nothing can be put into;
* `callHead`, `conditionalHead`, `loopHead`, `statementHead`, `instructionHead` — the productions,
  as far as they can be read.
-/

variable {τ : Type}

/-- The name that a call consists of. -/
def callHead : Reader τ Unit := do
  let _ ← identifier

/-- A conditional up to where its statement is needed. -/
def conditionalHead (block : Reader τ Bool) : Reader τ Unit := do
  let _ ← conditionalOpening
  if ← block then
    let t ← peek
    if t.text = "ELSE" then
      let _ ← expect "ELSE"
      let _ ← block

/-- A loop up to where its statement is needed. -/
def loopHead (block : Reader τ Bool) : Reader τ Unit := do
  let _ ← loopOpening
  if ← block then
    let _ ← expect "END"
    let _ ← expect "WHILE"

/-- A statement up to where it is needed. -/
def statementHead (block : Reader τ Bool) : Reader τ Unit := do
  let start ← peek
  if start.text = "IF" then conditionalHead block
  else if start.text = "WHILE" then loopHead block
  else if Word.isIdentifier start.text then callHead
  else reject .noIdentifier start

/-- A definition; its name, if the block came to an end. -/
def instructionHead (block : Reader τ Bool) : Reader τ (Option String) := do
  let name ← instructionOpening
  if ← block then
    let _ ← expect "END"
    closing name
    return some name
  else return none

/-- A block that nothing can be put into, in at most so many steps for each block inside. It comes
    to an end only if there is no statement. -/
def emptyBlock : Nat → Reader τ Bool
  | 0 => throw .exhausted
  | n + 1 => do
    let t ← peek
    if endsBlock t then return true
    else do
      statementHead (emptyBlock n)
      return false

/-- A block that nothing can be put into. Each block inside takes a token, so that the number of
    tokens bounds the number of steps. -/
def wholeEmptyBlock : Reader τ Bool := fun s => emptyBlock s.queue.size s

end BL.Reader
