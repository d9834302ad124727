import BL.Layout.Lines
import BL.Program.Basic

namespace BL

/-!
# Printing

A printer collects lines. It takes the statements that it prints apart and puts them together again,
and hands them back.

* `Printer`, `Printer.emit`, `Printer.text` — collecting lines, and the text of all of them;
* `Printer.statement`, `Printer.program` — printing statements and programs;
* `Statement.pretty`, `Program.pretty` — the printed text, with lines two spaces further in for each
  enclosing construct;
* `Printer.statement_eq`, `Printer.program_eq` — a printer adds the lines of a well-formed statement
  or program, and hands it back as it was.
-/

/-- Lines that were printed, and how far what is enclosed stands further in. -/
structure Printer where
  indent : Int
  lines : List String
  deriving DecidableEq, Repr

namespace Printer

/-- The number of spaces that enclosed lines stand further in, unless another is asked for. -/
def defaultIndent : Int := 2

/-- A printer without lines. -/
def ofIndent (indent : Int) : Printer := ⟨indent, []⟩

/-- The printer with more lines. -/
def emitAll (p : Printer) (ls : List String) : Printer := { p with lines := p.lines ++ ls }

/-- Prints a text after some spaces. -/
def emit (p : Printer) (offset : Int) (text : String) : Printer :=
  p.emitAll [Layout.line offset text]

/-- The text of all lines. -/
def text (p : Printer) : String := Layout.textOfLines p.lines

/-- Prints a statement, `offset` spaces in; gives it back. -/
def statement (p : Printer) (offset : Int) (s : Statement) :
    Except Fault (Printer × Statement) := do
  let (ls, s) ← s.walk (Layout.lines p.indent)
  return (p.emitAll (ls offset), s)

/-- Prints the definitions of a context; gives its entries back. -/
def definitions (p : Printer) :
    List (String × Statement) → Except Fault (Printer × List (String × Statement))
  | [] => .ok (p, [])
  | (name, s) :: es => do
    let p := p.emit p.indent (Program.definitionLine name)
    let (p, s) ← p.statement (2 * p.indent) s
    let p := (p.emit p.indent (Program.closingLine name)).emit 0 ""
    let (p, es) ← p.definitions es
    return (p, (name, s) :: es)

theorem definitions_names {p q : Printer} {es fs : List (String × Statement)}
    (h : p.definitions es = .ok (q, fs)) : fs.map Prod.fst = es.map Prod.fst := by
  induction es generalizing p q fs with
  | nil => simp [definitions] at h; simp [← h.2]
  | cons e es ih =>
    obtain ⟨name, s⟩ := e
    simp only [definitions, bind, Except.bind] at h
    split at h
    · simp at h
    · split at h
      · simp at h
      · rename_i h'
        simp only [pure, Except.pure, Except.ok.injEq, Prod.mk.injEq] at h
        simp [← h.2, ih h']

/-- Prints the definitions of a context; gives the context back. -/
def context (p : Printer) (c : Context) : Except Fault (Printer × Context) :=
  match h : p.definitions c.entries with
  | .ok (p, es) => .ok (p, ⟨es, definitions_names h ▸ c.distinct⟩)
  | .error f => .error f

/-- Prints a program; gives it back. -/
def program (p : Printer) (q : Program) : Except Fault (Printer × Program) := do
  let p := (p.emit 0 (Program.openingLine q.name)).emit 0 ""
  let (p, context) ← p.context q.context
  let p := p.emit 0 "BEGIN"
  let (p, body) ← p.statement p.indent q.body
  let p := p.emit 0 (Program.closingLine q.name)
  return (p, { q with context := context, body := body })

/-! ### Well-formed input -/

@[simp] theorem emitAll_nil (p : Printer) : p.emitAll [] = p := by simp [emitAll]

@[simp] theorem emitAll_emitAll (p : Printer) (ls ms : List String) :
    (p.emitAll ls).emitAll ms = p.emitAll (ls ++ ms) := by simp [emitAll]

@[simp] theorem emitAll_indent (p : Printer) (ls : List String) :
    (p.emitAll ls).indent = p.indent := rfl

@[simp] theorem emitAll_lines (p : Printer) (ls : List String) :
    (p.emitAll ls).lines = p.lines ++ ls := rfl

/-- Printing a statement adds its lines. -/
theorem statement_eq (p : Printer) (offset : Int) {s : Statement} (hs : s.WellFormed) :
    p.statement offset s = .ok (p.emitAll (s.lines p.indent offset), s) := by
  simp [statement, Statement.walk_eq _ hs, Statement.fold_lines, bind, Except.bind, pure,
    Except.pure]

theorem definitions_eq (p : Printer) {es : List (String × Statement)}
    (h : ∀ e ∈ es, e.2.WellFormed) :
    p.definitions es = .ok (p.emitAll (es.flatMap (Program.definitionLines p.indent)), es) := by
  induction es generalizing p with
  | nil => simp [definitions]
  | cons e es ih =>
    obtain ⟨name, s⟩ := e
    have hs := h _ List.mem_cons_self
    simp [definitions, emit, statement_eq _ _ hs, ih _ fun e he => h e (.tail _ he),
      Program.definitionLines, bind, Except.bind, pure, Except.pure]

theorem context_eq (p : Printer) {c : Context} (h : ∀ e ∈ c.entries, e.2.WellFormed) :
    p.context c = .ok (p.emitAll (c.entries.flatMap (Program.definitionLines p.indent)), c) := by
  have hd := definitions_eq p h
  unfold context
  split
  · rename_i q es h'
    rw [hd] at h'
    simp only [Except.ok.injEq, Prod.mk.injEq] at h'
    obtain ⟨rfl, rfl⟩ := h'
    rfl
  · rename_i h'
    rw [hd] at h'
    simp at h'

/-- Printing a program adds its lines. -/
theorem program_eq (p : Printer) {q : Program} (hc : ∀ e ∈ q.context.entries, e.2.WellFormed)
    (hb : q.body.WellFormed) :
    p.program q = .ok (p.emitAll (q.lines p.indent), q) := by
  simp [program, emit, context_eq _ hc, statement_eq _ _ hb, Program.lines, bind, Except.bind,
    pure, Except.pure]

end Printer

/-! ### Printed texts -/

/-- The printed text of a statement; nothing if it has no lines. -/
def Statement.pretty (s : Statement) (offset : Int) : Except Fault (String × Statement) := do
  let (p, s) ← (Printer.ofIndent Printer.defaultIndent).statement offset s
  return (if p.lines = [] then "" else p.text, s)

/-- The printed text of a program. -/
def Program.pretty (q : Program) : Except Fault (String × Program) := do
  let (p, q) ← (Printer.ofIndent Printer.defaultIndent).program q
  return (p.text, q)

end BL
