import BL.Statement.Kernel
import BL.Table
import BL.Text.Order

namespace BL

/-!
# Programs

A program has a name, a context of instructions with their definitions, and a body. Contexts and
bodies change owner only as a whole: they are exchanged and never merged.

* `Context`, `Program` — the types;
* `Program.setName`, `Program.swapContext`, `Program.swapBody` — the checked changes;
* `Program.agrees` — equality up to the order of the definitions;
* `Program.WellFormed` — identifiers as names, well-formed blocks as definitions and body.
-/

/-- Instructions and their definitions, in the order in which they were defined. -/
abbrev Context := Table Statement

/-- A program. -/
structure Program where
  name : String
  context : Context
  body : Statement

namespace Program

/-- The name of a program that has been given none. -/
def defaultName : String := "Unnamed"

/-- The program without definitions that does nothing. -/
def empty : Program where
  name := defaultName
  context := .empty
  body := .empty

instance : Inhabited Program := ⟨empty⟩

theorem ext {p q : Program} (hn : p.name = q.name) (hc : p.context = q.context)
    (hb : p.body = q.body) : p = q := by
  cases p; cases q; simp_all

/-! ### Changes -/

/-- Gives the program another name, which must be an identifier. -/
def setName (p : Program) (name : Option String) : Except Violation Program :=
  match name.filter Word.isIdentifier with
  | some n => .ok { p with name := n }
  | none => .error .badProgramName

/-- Checks the entries of a context in order: each name is an identifier and stands for a block. -/
def checkEntries : List (String × Statement) → Except Violation Unit
  | [] => .ok ()
  | (name, s) :: es =>
    if Word.isIdentifier name then
      if s.kind = .block then checkEntries es else .error (.entryNotBlock name)
    else .error (.badEntryName name)

/-- Exchanges the context for another one; gives the program and its former context. -/
def swapContext (p : Program) (c : Context) : Except Violation (Program × Context) :=
  match checkEntries c.entries with
  | .ok () => .ok ({ p with context := c }, p.context)
  | .error v => .error v

/-- Exchanges the body for another block; gives the program and its former body. -/
def swapBody (p : Program) (s : Statement) : Except Violation (Program × Statement) :=
  if s.kind = .block then .ok ({ p with body := s }, p.body) else .error .newBodyNotBlock

theorem setName_some {p : Program} {n : String} (h : Word.isIdentifier n = true) :
    p.setName (some n) = .ok { p with name := n } := by
  simp [setName, Option.filter, h]

theorem checkEntries_eq_ok_iff {es : List (String × Statement)} :
    checkEntries es = .ok () ↔
      ∀ e ∈ es, Word.isIdentifier e.1 = true ∧ e.2.kind = .block := by
  induction es with
  | nil => simp [checkEntries]
  | cons e es ih =>
    obtain ⟨n, s⟩ := e
    simp only [checkEntries, List.mem_cons, forall_eq_or_imp]
    split
    · split
      · simp_all
      · simp_all
    · simp_all

theorem swapContext_of_forall {p : Program} {c : Context}
    (h : ∀ e ∈ c.entries, Word.isIdentifier e.1 = true ∧ e.2.kind = .block) :
    p.swapContext c = .ok ({ p with context := c }, p.context) := by
  simp [swapContext, checkEntries_eq_ok_iff.2 h]

theorem swapBody_of_block {p : Program} {s : Statement} (h : s.kind = .block) :
    p.swapBody s = .ok ({ p with body := s }, p.body) := by
  simp [swapBody, h]

/-! ### Equality and description -/

/-- The same name, the same definitions in whatever order, the same body. -/
def agrees (p q : Program) : Bool :=
  p.name == q.name && p.context.agrees q.context && p.body == q.body

/-- Name and sorted instruction names, as messages for programmers show them. -/
def describe (p : Program) : String :=
  "Program(" ++ Text.quote p.name ++ ", instructions=" ++
    Text.quoteList (Text.sort p.context.names) ++ ")"

/-! ### Well-formed programs -/

/-- A block of well-formed statements. -/
def IsBlock (s : Statement) : Prop := s.kind = .block ∧ s.WellFormed

/-- The name is an identifier, and so is every name in the context; every definition and the body
    are blocks of well-formed statements. -/
structure WellFormed (p : Program) : Prop where
  name : Word.isIdentifier p.name = true
  entries : ∀ e ∈ p.context.entries, Word.isIdentifier e.1 = true ∧ IsBlock e.2
  body : IsBlock p.body

end Program

end BL
