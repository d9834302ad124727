import BL.Program.Basic
import BL.Reading.Statement

namespace BL.Reader

/-!
# Reading programs

    program    = PROGRAM name IS definition* BEGIN block END name
    definition = INSTRUCTION name IS block END name

The name at the end of a program or a definition repeats the one at its beginning. A definition
gives a meaning to an identifier that has none yet: neither is it a primitive instruction, nor is it
defined before in the same program.

* `instructionOpening`, `programOpening` — what a definition or a program begins with;
* `instruction` — a definition; the target becomes its block;
* `definitions` — the definitions before `BEGIN`;
* `program` — a program; the target is written only when the whole of it has been read.
-/

/-- Takes the name of an instruction that may be defined. -/
def definedName {τ : Type} : Reader τ String := do
  let t ← next
  if Word.isKeyword t.text then reject .definesKeyword t
  else if Word.isCondition t.text then reject .definesCondition t
  else if !Word.isIdentifier t.text then reject .noIdentifier t
  else if Word.isPrimitive t.text then reject .definesPrimitive t
  else return t.text

/-- Takes a token, which must repeat the name. -/
def closing {τ : Type} (name : String) : Reader τ Unit := do
  let t ← next
  if t.text = name then return else reject .nameMismatch t

/-- What a definition begins with, up to its block; the result is its name. -/
def instructionOpening {τ : Type} : Reader τ String := do
  opening "INSTRUCTION"
  let _ ← expect "INSTRUCTION"
  let name ← definedName
  let _ ← expect "IS"
  return name

/-- A definition. The target becomes its block; the result is its name. -/
def instruction : Reader Statement String := do
  let name ← instructionOpening
  block
  let _ ← expect "END"
  closing name
  return name

/-- Reads definitions up to `BEGIN` and puts them behind those read before, in at most so many
    steps. A second definition of a name is reported at the keyword that opens it. -/
def definitions {τ : Type} : Nat → Context → Reader τ Context
  | 0, _ => throw .exhausted
  | n + 1, context => do
    let start ← peek
    if start.text = "BEGIN" then return context
    else if start.text = "INSTRUCTION" then do
      let (name, body) ← fresh .empty instruction
      if context.contains name then reject .definedTwice start
      else definitions n (context.insert name body)
    else reject (.missingKeyword "BEGIN") start

/-- Reads the definitions up to `BEGIN`. Each takes a token, so that the number of tokens bounds the
    number of steps. -/
def allDefinitions {τ : Type} : Reader τ Context := fun s => definitions s.queue.size .empty s

/-- What a program begins with, up to its definitions; the result is its name. -/
def programOpening {τ : Type} : Reader τ String := do
  let _ ← expect "PROGRAM"
  let name ← identifier
  let _ ← expect "IS"
  return name.text

/-- A program. Nothing may follow it. -/
def program : Reader Program Unit := do
  let name ← programOpening
  let context ← allDefinitions
  let _ ← expect "BEGIN"
  let body ← newBlock allItems
  let _ ← expect "END"
  closing name
  ending
  update fun p => p.setName (some name)
  update fun p => (p.swapContext context).map Prod.fst
  update fun p => (p.swapBody body).map Prod.fst

end BL.Reader
