import BL.Layout.Printer
import BL.Reading.Source

namespace BL

/-!
# Workspaces

A workspace holds statements, programs, contexts, token queues and printers in named slots.
Statements are found at places: in a slot, as the body of a program, or under a name in a context.
Two references mean one and the same statement exactly if they lead to the same place.

* `Content`, `Workspace` — what a slot holds, and all slots;
* `Place`, `Reference` — where a statement is, and what an operation is pointed to;
* `Reference.sameAs` — whether two references mean one and the same thing;
* `Workspace.statement?`, `Workspace.setStatement` — reading and writing at a place;
* `Action` — a step that changes the workspace and may fail; what it changed before stays changed.
-/

/-- What a slot holds. -/
inductive Content where
  | statement (s : Statement)
  | program (p : Program)
  | context (c : Context)
  | queue (q : TokenQueue)
  | printer (p : Printer)

/-- Contents in named slots. -/
structure Workspace where
  slots : Table Content

/-- Where a statement is. -/
inductive Place where
  /-- In a slot. -/
  | slot (name : String)
  /-- The body of the program in a slot. -/
  | body (owner : String)
  /-- Under a name in the context in a slot, or in the context of the program in a slot. -/
  | entry (owner name : String)
  deriving DecidableEq, Repr

/-- What an operation is pointed to. -/
inductive Reference where
  /-- Nothing at all. -/
  | nothing
  /-- What a slot holds, or a statement inside it. -/
  | place (p : Place)
  /-- The context of the program in a slot, to look at and not to exchange. -/
  | contextOf (owner : String)
  deriving DecidableEq, Repr

/-- Both references lead to one and the same thing. The context of a program is never the same: it
    is shown anew each time. -/
def Reference.sameAs : Reference → Reference → Bool
  | contextOf _, _ => false
  | a, b => a == b

namespace Workspace

/-- The workspace without slots. -/
def empty : Workspace := ⟨.empty⟩

instance : Inhabited Workspace := ⟨empty⟩

/-! ### Slots -/

/-- What a slot holds. -/
def content? (w : Workspace) (slot : String) : Option Content := w.slots.find? slot

/-- The workspace with the content in the slot. -/
def setContent (w : Workspace) (slot : String) (c : Content) : Workspace := ⟨w.slots.insert slot c⟩

@[simp] theorem content?_setContent (w : Workspace) (slot other : String) (c : Content) :
    (w.setContent slot c).content? other = if other = slot then some c else w.content? other :=
  w.slots.find?_insert slot other c

/-! ### Statements -/

/-- The statement at a place. -/
def statement? (w : Workspace) : Place → Option Statement
  | .slot n =>
    match w.content? n with
    | some (.statement s) => some s
    | _ => none
  | .body n =>
    match w.content? n with
    | some (.program p) => some p.body
    | _ => none
  | .entry n m =>
    match w.content? n with
    | some (.program p) => p.context.find? m
    | some (.context c) => c.find? m
    | _ => none

/-- The workspace with the statement at the place, if the place has an owner. -/
def setStatement (w : Workspace) (s : Statement) : Place → Workspace
  | .slot n => w.setContent n (.statement s)
  | .body n =>
    match w.content? n with
    | some (.program p) => w.setContent n (.program { p with body := s })
    | _ => w
  | .entry n m =>
    match w.content? n with
    | some (.program p) => w.setContent n (.program { p with context := p.context.insert m s })
    | some (.context c) => w.setContent n (.context (c.insert m s))
    | _ => w

/-- Where there was a statement, the new one is found. -/
theorem statement?_setStatement_self {w : Workspace} {p : Place} {s t : Statement}
    (h : w.statement? p = some t) : (w.setStatement s p).statement? p = some s := by
  cases p with
  | slot n => simp [setStatement, statement?]
  | body n =>
    simp only [statement?] at h
    split at h
    · rename_i q hq
      simp [setStatement, statement?, hq]
    · simp at h
  | entry n m =>
    simp only [statement?] at h
    split at h
    · rename_i q hq
      simp [setStatement, statement?, hq]
    · rename_i c hc
      simp [setStatement, statement?, hc]
    · simp at h

/-- Other statements stay as they are. -/
theorem statement?_setStatement_of_ne {w : Workspace} {p q : Place} {s t : Statement}
    (h : w.statement? p = some t) (hne : q ≠ p) :
    (w.setStatement s p).statement? q = w.statement? q := by
  cases p with
  | slot n =>
    simp only [statement?] at h
    split at h
    · rename_i u hu
      cases q with
      | slot m =>
        have hm : m ≠ n := fun e => hne (e ▸ rfl)
        simp [setStatement, statement?, hm]
      | body m =>
        by_cases hm : m = n
        · subst hm; simp [setStatement, statement?, hu]
        · simp [setStatement, statement?, hm]
      | entry m k =>
        by_cases hm : m = n
        · subst hm; simp [setStatement, statement?, hu]
        · simp [setStatement, statement?, hm]
    · simp at h
  | body n =>
    simp only [statement?] at h
    split at h
    · rename_i u hu
      cases q with
      | slot m =>
        by_cases hm : m = n
        · subst hm; simp [setStatement, statement?, hu]
        · simp [setStatement, statement?, hu, hm]
      | body m =>
        have hm : m ≠ n := fun e => hne (e ▸ rfl)
        simp [setStatement, statement?, hu, hm]
      | entry m k =>
        by_cases hm : m = n
        · subst hm; simp [setStatement, statement?, hu]
        · simp [setStatement, statement?, hu, hm]
    · simp at h
  | entry n k =>
    simp only [statement?] at h
    split at h
    · rename_i u hu
      cases q with
      | slot m =>
        by_cases hm : m = n
        · subst hm; simp [setStatement, statement?, hu]
        · simp [setStatement, statement?, hu, hm]
      | body m =>
        by_cases hm : m = n
        · subst hm; simp [setStatement, statement?, hu]
        · simp [setStatement, statement?, hu, hm]
      | entry m l =>
        by_cases hm : m = n
        · subst hm
          have hl : l ≠ k := fun e => hne (e ▸ rfl)
          simp [setStatement, statement?, hu, hl]
        · simp [setStatement, statement?, hu, hm]
    · rename_i u hu
      cases q with
      | slot m =>
        by_cases hm : m = n
        · subst hm; simp [setStatement, statement?, hu]
        · simp [setStatement, statement?, hu, hm]
      | body m =>
        by_cases hm : m = n
        · subst hm; simp [setStatement, statement?, hu]
        · simp [setStatement, statement?, hu, hm]
      | entry m l =>
        by_cases hm : m = n
        · subst hm
          have hl : l ≠ k := fun e => hne (e ▸ rfl)
          simp [setStatement, statement?, hu, hl]
        · simp [setStatement, statement?, hu, hm]
    · simp at h

/-! ### References -/

/-- What a path leads to: a slot; behind a program its body, its context or a name in its context;
    behind a context a name in it. -/
def reference (w : Workspace) (path : List String) : Reference :=
  match path with
  | [] => .nothing
  | [n] => .place (.slot n)
  | n :: rest =>
    match w.content? n, rest with
    | some (.program _), ["body"] => .place (.body n)
    | some (.program _), ["context"] => .contextOf n
    | some (.program _), "context" :: names => .place (.entry n (String.intercalate "/" names))
    | some (.context _), names => .place (.entry n (String.intercalate "/" names))
    | _, _ => .nothing

/-- The place of the statement that a reference leads to. -/
def statementPlace? (w : Workspace) : Reference → Option Place
  | .place p => if (w.statement? p).isSome then some p else none
  | _ => none

/-- The slot of the program that a reference leads to. -/
def programSlot? (w : Workspace) : Reference → Option String
  | .place (.slot n) =>
    match w.content? n with
    | some (.program _) => some n
    | _ => none
  | _ => none

/-- The slot of the context that a reference leads to. The context of a program is not in a slot. -/
def contextSlot? (w : Workspace) : Reference → Option String
  | .place (.slot n) =>
    match w.content? n with
    | some (.context _) => some n
    | _ => none
  | _ => none

/-- What a reference leads to. -/
def contentAt? (w : Workspace) : Reference → Option Content
  | .nothing => none
  | .place (.slot n) => w.content? n
  | .place p => (w.statement? p).map .statement
  | .contextOf n =>
    match w.content? n with
    | some (.program p) => some (.context p.context)
    | _ => none

end Workspace

/-! ### Actions -/

/-- Why an action failed. -/
inductive Failure where
  /-- The operation itself failed. -/
  | fault (f : Fault)
  /-- There is nothing of the right sort where the action is pointed to. -/
  | nothingThere
  deriving DecidableEq, Repr

/-- A step in a workspace. A failure keeps the workspace that was reached. -/
abbrev Action (α : Type) : Type := EStateM Failure Workspace α

namespace Action

variable {α : Type}

/-- An operation that may be at fault, as an action that changes nothing. -/
def attempt : Except Fault α → Action α
  | .ok a => pure a
  | .error f => throw (.fault f)

/-- An operation that may find a condition of use violated, as an action that changes nothing. -/
def check (x : Except Violation α) : Action α := attempt (Fault.ofViolation x)

/-- Fails with a violation. -/
def violate (v : Violation) : Action α := throw (.fault (.violated v))

/-- Fails with a violation if something holds that must not. -/
def refuse (p : Prop) [Decidable p] (v : Violation) : Action Unit :=
  if p then violate v else pure ()

/-- A value that has to be there. -/
def require : Option α → Action α
  | some a => pure a
  | none => throw .nothingThere

/-- What a reference leads to, as found in the workspace. -/
def locate (find : Workspace → Reference → Option α) (r : Reference) : Action α := do
  require (find (← get) r)

/-- The place of the statement that a reference leads to. -/
def statementPlace (r : Reference) : Action Place := locate Workspace.statementPlace? r

/-- The slot of the program that a reference leads to. -/
def programSlot (r : Reference) : Action String := locate Workspace.programSlot? r

/-- The slot of the context that a reference leads to. -/
def contextSlot (r : Reference) : Action String := locate Workspace.contextSlot? r

/-- The statement at a place. -/
def statementAt (p : Place) : Action Statement := do require ((← get).statement? p)

/-- The statement that a reference leads to. -/
def statementOf (r : Reference) : Action Statement := do statementAt (← statementPlace r)

/-- Writes the statement at a place. -/
def setStatement (p : Place) (s : Statement) : Action Unit := modify (·.setStatement s p)

/-- Fills a slot. -/
def setSlot (n : String) (c : Content) : Action Unit := modify (·.setContent n c)

/-- The program in a slot. -/
def programIn (n : String) : Action Program := do
  match (← get).content? n with
  | some (.program p) => return p
  | _ => throw .nothingThere

/-- The context in a slot. -/
def contextIn (n : String) : Action Context := do
  match (← get).content? n with
  | some (.context c) => return c
  | _ => throw .nothingThere

/-- The token queue in a slot. -/
def queueIn (n : String) : Action TokenQueue := do
  match (← get).content? n with
  | some (.queue q) => return q
  | _ => throw .nothingThere

/-- The printer in a slot. -/
def printerIn (n : String) : Action Printer := do
  match (← get).content? n with
  | some (.printer p) => return p
  | _ => throw .nothingThere

end Action

end BL
