import BL.Workspace.Moves

namespace BL.Action

/-!
# Programs in a workspace

* `setName`, `clearProgram`, `transferProgram` — a program as a whole;
* `swapContext`, `swapBody` — exchanging its context with another one, its body with a statement;
* `clearContext`, `putEntry` — emptying a context, and moving a statement into one.
-/

/-! ### Whole programs -/

/-- Writes the program in a slot. -/
def setProgram (slot : String) (p : Program) : Action Unit := setSlot slot (.program p)

/-- Gives a program another name. -/
def setName (slot : String) (name : Option String) : Action Unit := do
  let p ← check ((← programIn slot).setName name)
  setProgram slot p

/-- Makes a program a new one. -/
def clearProgram (slot : String) : Action Unit := setProgram slot .empty

/-- Moves a whole program into another one; a new program is left behind. -/
def transferProgram (target : String) (source : Reference) : Action Unit := do
  match (← get).programSlot? source with
  | none => violate .notAProgram
  | some slot => do
    refuse (slot = target) .sameProgram
    let p ← programIn slot
    clearProgram slot
    setProgram target p

/-! ### Exchanges -/

/-- Exchanges the context of a program with the one that a reference leads to. -/
def swapContext (program : String) (context : Reference) : Action Unit := do
  match (← get).contextSlot? context with
  | none => violate .notAContext
  | some slot => do
    let (p, former) ← check ((← programIn program).swapContext (← contextIn slot))
    setProgram program p
    setSlot slot (.context former)

/-- Exchanges the body of a program with a statement. The body is moved away before it is clear that
    the statement is another one. -/
def swapBody (program : String) (source : Reference) : Action Unit := do
  match (← get).statementPlace? source with
  | none => violate .bodyNotAStatement
  | some place => do
    let p ← programIn program
    let (_, former) ← check (p.swapBody (← statementAt place))
    clear (.body program)
    transfer (.body program) source
    setStatement place former

/-! ### Contexts -/

/-- Empties the context in a slot. -/
def clearContext (slot : String) : Action Unit := setSlot slot (.context .empty)

/-- Moves a statement into a context, under a name. Neither is checked. -/
def putEntry (context name : String) (source : Reference) : Action Unit := do
  let _ ← contextIn context
  match (← get).statementPlace? source with
  | none => violate .notAStatement
  | some place => do
    let s ← statementAt place
    setStatement place .empty
    setStatement (.entry context name) s

end BL.Action
