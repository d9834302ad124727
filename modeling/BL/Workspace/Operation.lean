import BL.Layout.Dump
import BL.Workspace.Readers

namespace BL

/-!
# Operations of a workspace

* `Operation` — everything that can be done in a workspace;
* `Answer` — what an operation gives;
* `Operation.perform` — doing it;
* `Workspace.step`, `Workspace.run` — one operation, and several one after the other. A failing
  operation does not stop those behind it, and what it changed stays changed.
-/

/-- What can be done in a workspace. -/
inductive Operation where
  | newStatement (slot : String)
  | newProgram (slot : String)
  | newContext (slot : String)
  /-- A new statement or program, as the model is one. -/
  | newLike (model : Reference) (slot : String)
  | newQueue (input : Input) (slot : String)
  | newPrinter (indent : Int) (slot : String)
  /-- The block of the statements in a source text. -/
  | statementsOf (source slot : String)
  /-- The program in a source text. -/
  | programOf (source slot : String)
  | clear (target : Reference)
  | transfer (target source : Reference)
  | kind (s : Reference)
  | rootLabel (s : Reference)
  | describe (target : Reference)
  | agree (a b : Reference)
  | insertChild (s : Reference) (index : Int) (child : Reference)
  | removeChild (s : Reference) (index : Int) (slot : String)
  | blockLength (s : Reference)
  | assembleIf (s : Reference) (c : Option Condition) (body : Reference)
  | assembleIfElse (s : Reference) (c : Option Condition) (body alternative : Reference)
  | assembleWhile (s : Reference) (c : Option Condition) (body : Reference)
  | assembleCall (s : Reference) (name : Option String)
  | disassembleIf (s body : Reference)
  | disassembleIfElse (s body alternative : Reference)
  | disassembleWhile (s body : Reference)
  | disassembleCall (s : Reference)
  | setName (p : Reference) (name : Option String)
  | swapContext (p context : Reference)
  | swapBody (p s : Reference)
  | putEntry (context : Reference) (name : String) (s : Reference)
  /-- Reads a production; the operation fails if reading fails. -/
  | parse (production : Production) (target : Reference) (input : Input)
  /-- Reads a production into any target and gives the outcome, also if reading fails. -/
  | attempt (production : Production) (target : Reference) (input : Input)
  | peeking (what : Peeking) (input : Input)
  | front (queue : String)
  | dequeue (queue : String)
  | queueSize (queue : String)
  | queueTokens (queue : String)
  | tokenDescriptions (queue : String)
  | pretty (s : Reference) (offset : Int)
  | prettyProgram (p : Reference)
  | emit (printer : String) (offset : Int) (text : String)
  | printStatement (printer : String) (s : Reference) (offset : Int)
  | printProgram (printer : String) (p : Reference)
  | printedText (printer : String)

/-- What an operation gives. -/
inductive Answer where
  | value (v : Value)
  | tokens (ts : List Token)
  | texts (ss : List String)
  | outcome (o : Action.Outcome)

namespace Answer

/-- The answer that says nothing. -/
def nothing : Answer := .value .nothing

/-- A text as an answer. -/
def text (s : String) : Answer := .value (.text s)

end Answer

namespace Action

/-! ### What references lead to -/

/-- A new statement or program, as the reference leads to one. -/
def newLike (model : Reference) : Action Content := do
  match (← get).programSlot? model with
  | some _ => return .program .empty
  | none =>
    let _ ← statementPlace model
    return .statement .empty

/-- Empties what a reference leads to. -/
def clearTarget (target : Reference) : Action Unit := do
  let w ← get
  match w.programSlot? target, w.contextSlot? target with
  | some n, _ => clearProgram n
  | none, some n => clearContext n
  | none, none => clear (← statementPlace target)

/-- Moves what a reference leads to into a target of the same sort. -/
def transferTarget (target source : Reference) : Action Unit := do
  match (← get).programSlot? target with
  | some n => transferProgram n source
  | none => transfer (← statementPlace target) source

/-- Gives a program another name. Statements, queues and printers have no use for a name. -/
def nameTarget (target : Reference) (name : Option String) : Action Unit := do
  match (← get).programSlot? target, (← get).contentAt? target with
  | some n, _ => setName n name
  | none, none | none, some (.context _) => throw .nothingThere
  | none, some _ => return

/-- The description of a statement, a program or a queue. -/
def describeTarget (target : Reference) : Action String := do
  let w ← get
  match w.statementPlace? target with
  | some place =>
    let (text, s) ← attempt (← statementAt place).describe
    setStatement place s
    return text
  | none =>
    match target with
    | .place (.slot n) =>
      match w.content? n with
      | some (.program p) => return p.describe
      | some (.queue q) => return q.describe
      | _ => throw .nothingThere
    | _ => throw .nothingThere

/-- The label at the root of a statement. A program or a queue is described as a whole. -/
def labelTarget (target : Reference) : Action String := do
  match (← get).statementPlace? target with
  | some place => return (← statementAt place).rootLabel
  | none => describeTarget target

/-- Whether two references lead to what agrees: statements as trees, contexts and programs up to the
    order of their definitions. Other contents agree with themselves alone. -/
def agreeing (a b : Reference) : Action Bool := do
  let w ← get
  match w.contentAt? a, w.contentAt? b with
  | some (.statement s), some (.statement t) => return decide (s = t)
  | some (.program p), some (.program q) => return p.agrees q
  | some (.context c), some (.context d) => return c.agrees d
  | _, _ => return decide (a = b)

/-! ### Printing -/

/-- Prints the statement at a place. -/
def printStatement (printer : String) (place : Place) (offset : Int) : Action Unit := do
  let (pr, s) ← attempt ((← printerIn printer).statement offset (← statementAt place))
  setStatement place s
  setSlot printer (.printer pr)

/-- Prints the program in a slot. -/
def printProgram (printer slot : String) : Action Unit := do
  let (pr, p) ← attempt ((← printerIn printer).program (← programIn slot))
  setProgram slot p
  setSlot printer (.printer pr)

/-- The printed text of the statement at a place. -/
def prettyStatement (place : Place) (offset : Int) : Action String := do
  let (text, s) ← attempt ((← statementAt place).pretty offset)
  setStatement place s
  return text

/-- The printed text of the program in a slot. -/
def prettyProgram (slot : String) : Action String := do
  let (text, p) ← attempt (← programIn slot).pretty
  setProgram slot p
  return text

end Action

open BL.Action

namespace Operation

/-- Does an operation. -/
def perform : Operation → Action Answer
  | newStatement slot => do setSlot slot (.statement .empty); return .nothing
  | newProgram slot => do setSlot slot (.program .empty); return .nothing
  | newContext slot => do setSlot slot (.context .empty); return .nothing
  | newLike model slot => do setSlot slot (← Action.newLike model); return .nothing
  | newQueue input slot => do setSlot slot (.queue (← queueOf input)); return .nothing
  | newPrinter indent slot => do setSlot slot (.printer (.ofIndent indent)); return .nothing
  | statementsOf source slot => do
    setSlot slot (.statement (← Action.attempt (Statement.ofSource source)))
    return .nothing
  | programOf source slot => do
    setSlot slot (.program (← Action.attempt (Program.ofSource source)))
    return .nothing
  | clear target => do clearTarget target; return .nothing
  | transfer target source => do transferTarget target source; return .nothing
  | kind s => do return .text (← statementAt (← statementPlace s)).kind.label
  | rootLabel s => do return .text (← labelTarget s)
  | describe target => do return .text (← describeTarget target)
  | agree a b => do return .value (.flag (← agreeing a b))
  | insertChild s index child => do
    Action.insertChild (← statementPlace s) index child
    return .nothing
  | removeChild s index slot => do
    Action.removeChild (← statementPlace s) index slot
    return .nothing
  | blockLength s => do return .value (.number (← Action.blockLength (← statementPlace s)))
  | assembleIf s c body => do
    Action.assembleIf (← statementPlace s) c body
    return .nothing
  | assembleIfElse s c body alternative => do
    Action.assembleIfElse (← statementPlace s) c body alternative
    return .nothing
  | assembleWhile s c body => do
    Action.assembleWhile (← statementPlace s) c body
    return .nothing
  | assembleCall s name => do
    Action.assembleCall (← statementPlace s) name
    return .nothing
  | disassembleIf s body => do
    return .text (← Action.disassembleIf (← statementPlace s) body).spelling
  | disassembleIfElse s body alternative => do
    return .text (← Action.disassembleIfElse (← statementPlace s) body alternative).spelling
  | disassembleWhile s body => do
    return .text (← Action.disassembleWhile (← statementPlace s) body).spelling
  | disassembleCall s => do return .text (← Action.disassembleCall (← statementPlace s))
  | setName p name => do nameTarget p name; return .nothing
  | swapContext p context => do
    Action.swapContext (← programSlot p) context
    return .nothing
  | swapBody p s => do
    Action.swapBody (← programSlot p) s
    return .nothing
  | putEntry context name s => do
    Action.putEntry (← contextSlot context) name s
    return .nothing
  | parse production target input => do
    let o ← read production target input
    return .value (← o.value)
  | attempt production target input => do return .outcome (← tryRead production target input)
  | peeking what input => do return .outcome (← Action.peeking what input)
  | front queue => do return .value (.token (← queueIn queue).front)
  | dequeue queue => do
    let (t, q) := (← queueIn queue).dequeue
    setSlot queue (.queue q)
    return .value (.token t)
  | queueSize queue => do return .value (.number (← queueIn queue).size)
  | queueTokens queue => do return .tokens (← queueIn queue).toList
  | tokenDescriptions queue => do
    return .texts ((← queueIn queue).toList.map Token.describe)
  | pretty s offset => do return .text (← prettyStatement (← statementPlace s) offset)
  | prettyProgram p => do return .text (← Action.prettyProgram (← programSlot p))
  | emit printer offset text => do
    setSlot printer (.printer ((← printerIn printer).emit offset text))
    return .nothing
  | printStatement printer s offset => do
    Action.printStatement printer (← statementPlace s) offset
    return .nothing
  | printProgram printer p => do
    Action.printProgram printer (← programSlot p)
    return .nothing
  | printedText printer => do return .text (← printerIn printer).text

end Operation

/-! ### Running operations -/

namespace Workspace

/-- The answer of an operation, or why it failed, and the workspace behind it. -/
def step (w : Workspace) (op : Operation) : Except Failure Answer × Workspace :=
  match op.perform w with
  | .ok a w' => (.ok a, w')
  | .error f w' => (.error f, w')

/-- The workspace behind several operations, failing ones included. -/
def run (w : Workspace) (ops : List Operation) : Workspace :=
  ops.foldl (fun w op => (w.step op).2) w

end Workspace

end BL
