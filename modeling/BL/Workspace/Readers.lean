import BL.Reading.Untargeted
import BL.Workspace.Programs

namespace BL

/-!
# Reading in a workspace

Readers take their tokens from a queue in a slot, which they shorten, or from tokens given on the
spot. Their target is a statement at a place or a program in a slot. A production with a target of
another sort is read as far as the target is not needed.

* `Input` — where tokens come from;
* `Production`, `Peeking` — what a reader may be asked for;
* `Value` — what it gives;
* `Action.read`, `Action.tryRead`, `Action.peeking` — asking for it, with the tokens that are left.
-/

/-- Where tokens come from. -/
inductive Input where
  /-- The queue in a slot, or the names in the context there. -/
  | slot (name : String)
  | text (source : String)
  | texts (ss : List String)
  | tokens (ts : List Token)

/-- A simple value. -/
inductive Value where
  | nothing
  | text (s : String)
  | number (n : Nat)
  | flag (b : Bool)
  | token (t : Token)
  deriving DecidableEq, Repr

/-- What is read into a target. -/
inductive Production where
  | statement
  | block
  | conditional
  | loop
  | call
  | instruction
  | program
  deriving DecidableEq, Repr

/-- What is read without a target. -/
inductive Peeking where
  | peek
  | next
  | expect (keyword : String)
  | identifier
  | condition
  | atEnd
  deriving DecidableEq, Repr

namespace Production

/-- The reader of the production, if its target is a statement. -/
def statementReader? : Production → Option (Reader Statement Value)
  | statement => some (Reader.statement >>= fun _ => pure .nothing)
  | block => some (Reader.block >>= fun _ => pure .nothing)
  | conditional => some (Reader.conditional >>= fun _ => pure .nothing)
  | loop => some (Reader.loop >>= fun _ => pure .nothing)
  | call => some (Reader.call >>= fun _ => pure .nothing)
  | instruction => some (Reader.instruction >>= fun name => pure (.text name))
  | program => none

/-- The reader of the production, if its target is a program. -/
def programReader? : Production → Option (Reader Program Value)
  | program => some (Reader.program >>= fun _ => pure .nothing)
  | _ => none

/-- The production as far as it can be read without a target of its sort, given how a block is read
    into the target that there is, and how one inside of it. The result is missing where another
    target is needed. -/
def headReader {τ : Type} (own inner : Reader τ Bool) : Production → Reader τ (Option Value)
  | statement => Reader.statementHead inner >>= fun _ => pure none
  | block => own >>= fun ended => pure (if ended then some .nothing else none)
  | conditional => Reader.conditionalHead inner >>= fun _ => pure none
  | loop => Reader.loopHead inner >>= fun _ => pure none
  | call => Reader.callHead >>= fun _ => pure none
  | instruction => Reader.instructionHead own >>= fun name => pure (name.map .text)
  | program => Reader.programOpening >>= fun _ => pure none

/-- The production with a target that is neither a statement nor a program. -/
def openingReader (production : Production) : Reader Unit (Option Value) :=
  production.headReader (pure false) (pure false)

/-- The production of a statement with a program as its target, which stands for an empty block. -/
def hollowReader (production : Production) : Reader Program (Option Value) :=
  production.headReader (do Reader.put .empty; Reader.wholeEmptyBlock) Reader.wholeEmptyBlock

end Production

/-- The reader that needs no target. -/
def Peeking.reader : Peeking → Reader Unit Value
  | peek => do return .token (← Reader.peek)
  | next => do return .token (← Reader.next)
  | expect k => do return .token (← Reader.expect k)
  | identifier => do return .token (← Reader.identifier)
  | condition => do return .text (← Reader.condition).spelling
  | atEnd => do return .flag (← Reader.atEnd)

namespace Action

/-! ### Input -/

/-- The queue of an input. -/
def queueOf : Input → Action TokenQueue
  | .slot n => do
    match (← get).content? n with
    | some (.context c) => return .ofTexts c.names
    | _ => queueIn n
  | .text source => pure (.ofSource source)
  | .texts ss => pure (.ofTexts ss)
  | .tokens ts => pure (.ofTokens ts)

/-- Writes back what is left of a queue. -/
def keepRest (q : TokenQueue) : Input → Action Unit
  | .slot n => do
    match (← get).content? n with
    | some (.queue _) => setSlot n (.queue q)
    | _ => return
  | _ => pure ()

/-! ### Targets -/

/-- A result of reading, with the tokens that are left. -/
structure Outcome where
  result : Except Fault Value
  left : List Token

/-- Runs a reader on a target; gives its outcome and the target that it leaves behind. -/
def runReader {τ α : Type} (r : Reader τ α) (q : TokenQueue) (target : τ) :
    Except Fault α × ReaderState τ :=
  match r ⟨q, target⟩ with
  | .ok v s => (.ok v, s)
  | .error f s => (.error f, s)

/-- Reads into a statement. -/
def readStatement (r : Reader Statement Value) (target : Place) (input : Input) :
    Action Outcome := do
  let q ← queueOf input
  let (result, s) := runReader r q (← statementAt target)
  keepRest s.queue input
  setStatement target s.target
  return ⟨result, s.queue.toList⟩

/-- Reads into a program. -/
def readProgram (r : Reader Program Value) (target : String) (input : Input) : Action Outcome := do
  let q ← queueOf input
  let (result, s) := runReader r q (← programIn target)
  keepRest s.queue input
  setProgram target s.target
  return ⟨result, s.queue.toList⟩

/-- Reads a production into the target that a reference leads to. -/
def read (production : Production) (target : Reference) (input : Input) : Action Outcome := do
  match production.statementReader? with
  | some r => readStatement r (← statementPlace target) input
  | none =>
    let r ← require production.programReader?
    readProgram r (← programSlot target) input

/-- The outcome of reading as far as possible. There is none if a target of another sort was
    needed. -/
def outcomeOf (result : Except Fault (Option Value)) (left : List Token) : Action Outcome :=
  match result with
  | .ok (some v) => return ⟨.ok v, left⟩
  | .ok none => throw .nothingThere
  | .error f => return ⟨.error f, left⟩

/-- Reads a production as far as its target, which is not of its sort, is not needed. -/
def readHead (production : Production) (target : Reference) (input : Input) : Action Outcome := do
  let q ← queueOf input
  match (← get).programSlot? target with
  | some n =>
    let (result, s) := runReader production.hollowReader q (← programIn n)
    keepRest s.queue input
    setProgram n s.target
    outcomeOf result s.queue.toList
  | none =>
    let (result, s) := runReader production.openingReader q ()
    keepRest s.queue input
    outcomeOf result s.queue.toList

/-- Reads a production into whatever a reference leads to. -/
def tryRead (production : Production) (target : Reference) (input : Input) : Action Outcome := do
  let w ← get
  match production.statementReader?, w.statementPlace? target with
  | some r, some place => readStatement r place input
  | _, _ =>
    match production.programReader?, w.programSlot? target with
    | some r, some n => readProgram r n input
    | _, _ => readHead production target input

/-- Reads without a target. -/
def peeking (what : Peeking) (input : Input) : Action Outcome := do
  let q ← queueOf input
  let (result, s) := runReader what.reader q ()
  keepRest s.queue input
  return ⟨result, s.queue.toList⟩

/-- The value of an outcome; a fault makes the action fail. -/
def Outcome.value (o : Outcome) : Action Value := attempt o.result

end Action

end BL
