import BL.Reading.Basic
import BL.Statement.Kernel

namespace BL.Reader

/-!
# Reading statements

    block     = statement*
    statement = identifier
              | IF condition THEN block [ELSE block] END IF
              | WHILE condition DO block END WHILE

A statement is recognised by its first token. A block ends before `ELSE`, before `END` and before
the end of the input.

* `items` — the statements of a block, read with a bound on the number of steps;
* `conditionalOpening`, `loopOpening` — what stands before the first block of a construct;
* `blockOf`, `conditionalOf`, `loopOf`, `statementOf` — the constructs, given a reader for the
  statements of a block;
* `block`, `conditional`, `loop`, `call`, `statement` — the constructs; the number of tokens bounds
  the steps.
-/

/-! ### Openings -/

/-- What a conditional begins with, up to its first branch. -/
def conditionalOpening {τ : Type} : Reader τ Condition := do
  opening "IF"
  let _ ← expect "IF"
  let c ← condition
  let _ ← expect "THEN"
  return c

/-- What a loop begins with, up to its body. -/
def loopOpening {τ : Type} : Reader τ Condition := do
  opening "WHILE"
  let _ ← expect "WHILE"
  let c ← condition
  let _ ← expect "DO"
  return c

/-! ### Constructs, given how the statements of a block are read -/

/-- A block ends before the token. -/
def endsBlock (t : Token) : Bool := t.isEnd || t.text == "ELSE" || t.text == "END"

/-- A call: the name of the instruction. -/
def call : Reader Statement Unit := do
  let name ← identifier
  update fun _ => Statement.assembleCall (some name.text)

/-- A block: the target is emptied, then the statements are put into it. -/
def blockOf (statements : Reader Statement Unit) : Reader Statement Unit := do
  put .empty
  statements

/-- The block that the tokens begin with. -/
def newBlock {τ : Type} (statements : Reader Statement Unit) : Reader τ Statement := do
  let (_, s) ← fresh .empty (blockOf statements)
  return s

/-- The second branch of a conditional, if there is one. Then the target is written. -/
def alternativeOf (statements : Reader Statement Unit) (c : Condition) (body : Statement) :
    Reader Statement Unit := do
  let t ← peek
  if t.text = "ELSE" then do
    let _ ← expect "ELSE"
    let alternative ← newBlock statements
    update fun _ => Statement.assembleIfElse (some c) body alternative
  else update fun _ => Statement.assembleIf (some c) body

/-- A conditional. The target is written as soon as the branches are read, before the keywords that
    close the conditional. -/
def conditionalOf (statements : Reader Statement Unit) : Reader Statement Unit := do
  let c ← conditionalOpening
  let body ← newBlock statements
  alternativeOf statements c body
  let _ ← expect "END"
  let _ ← expect "IF"

/-- A loop. The target is written at the end. -/
def loopOf (statements : Reader Statement Unit) : Reader Statement Unit := do
  let c ← loopOpening
  let body ← newBlock statements
  let _ ← expect "END"
  let _ ← expect "WHILE"
  update fun _ => Statement.assembleWhile (some c) body

/-- A statement: its first token tells which. -/
def statementOf (statements : Reader Statement Unit) : Reader Statement Unit := do
  let start ← peek
  if start.text = "IF" then conditionalOf statements
  else if start.text = "WHILE" then loopOf statements
  else if Word.isIdentifier start.text then call
  else reject .noIdentifier start

/-! ### The statements of a block -/

/-- Puts a statement behind the last child of the target. -/
def append (child : Statement) : Reader Statement Unit :=
  update fun s => do
    let n ← s.blockLength
    s.insertChild n child

/-- Reads statements and puts them into the target until the block ends, in at most so many steps
    for this block and each block inside. -/
def items : Nat → Reader Statement Unit
  | 0 => throw .exhausted
  | n + 1 => do
    let t ← peek
    if endsBlock t then return
    else do
      let (_, child) ← fresh .empty (statementOf (items n))
      append child
      items n

/-- Reads statements until the block ends. Each takes a token, so that the number of tokens bounds
    the number of steps. -/
def allItems : Reader Statement Unit := fun s => items s.queue.size s

/-! ### Constructs -/

/-- A block, up to the token that ends it. -/
def block : Reader Statement Unit := blockOf allItems

/-- A conditional. -/
def conditional : Reader Statement Unit := conditionalOf allItems

/-- A loop. -/
def loop : Reader Statement Unit := loopOf allItems

/-- A statement. -/
def statement : Reader Statement Unit := statementOf allItems

end BL.Reader
