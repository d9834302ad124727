import BL.Proofs.Layout.Restoration
import BL.Proofs.Workspace.Exchange
import BL.Proofs.Workspace.Shape

namespace BL

open BL.Action

/-!
# Printing leaves everything as it was

A printer takes a statement apart to print it.  A well-formed statement comes out as it went in.  An
operation of a workspace that prints takes the statement out of its place, prints it and writes it
back, so that nothing but the printer has changed behind the operation.

* `Workspace.setStatement_eq_self`, `Workspace.setContent_eq_self` — writing what is there already;
* `Action.printStatement_eq`, `Action.printProgram_eq` — printing adds lines to the printer, and
  leaves the rest of the workspace as it is;
* `Action.prettyStatement_eq`, `Action.prettyProgram_eq`, `Action.describeTarget_eq` — texts are
  given without any change of the workspace;
* `Workspace.PrintsInPlace`, `Workspace.Shaped.printsInPlace` — the operations that print;
* `Printer.printing_restores` — what is printed, dumped or described is what the recursion on the
  tree prescribes, and the statement, the program and the workspace are as they were before.
-/

/-! ### Writing what is there -/

namespace Table

variable {α : Type} {name : String} {v : α}

theorem insertEntry_eq_self {es : List (String × α)} (h : es.lookup name = some v) :
    insertEntry name v es = es := by
  induction es with
  | nil => cases h
  | cons e es ih =>
    obtain ⟨other, w⟩ := e
    by_cases hname : name = other
    · subst hname
      rw [List.lookup_cons_self, Option.some.injEq] at h
      rw [insertEntry, if_pos rfl, h]
    · have hrest := ih ((lookup_cons_of_ne hname w es).symm.trans h)
      rw [insertEntry, if_neg (Ne.symm hname), hrest]

/-- Under a name that has the value already, it is put in without a change. -/
theorem insert_eq_self {t : Table α} (h : t.find? name = some v) : t.insert name v = t :=
  ext (insertEntry_eq_self h)

end Table

namespace Workspace

variable {w : Workspace} {n : String} {p : Place} {s : Statement} {c : Content}

theorem setContent_eq_self (h : w.content? n = some c) : w.setContent n c = w := by
  rw [setContent, Table.insert_eq_self h]

/-- A statement that is at the place already is written without a change. -/
theorem setStatement_eq_self (h : w.statement? p = some s) : w.setStatement s p = w := by
  cases p with
  | slot n =>
    simp only [statement?] at h
    split at h
    · rename_i t hn
      cases h
      exact setContent_eq_self hn
    · cases h
  | body n =>
    simp only [statement?] at h
    split at h
    · rename_i q hn
      cases h
      simp only [setStatement, hn]
      exact setContent_eq_self hn
    · cases h
  | entry n m =>
    simp only [statement?] at h
    split at h
    · rename_i q hn
      simp only [setStatement, hn, Table.insert_eq_self h]
      exact setContent_eq_self hn
    · rename_i c hn
      simp only [setStatement, hn, Table.insert_eq_self h]
      exact setContent_eq_self hn
    · cases h

end Workspace

/-! ### The actions -/

namespace Action

variable {w : Workspace} {printer slot : String} {place : Place} {s : Statement} {q : Program}
  {pr : Printer}

theorem printerIn_eq (h : w.content? printer = some (.printer pr)) :
    printerIn printer w = .ok pr w := by
  unfold printerIn
  rw [get_bind, h]
  rfl

/-- **Printing a statement** changes the printer alone, which has the lines of the statement behind
    those that it had. -/
theorem printStatement_eq (hw : w.Shaped) (hp : w.content? printer = some (.printer pr))
    (hs : w.statement? place = some s) (offset : Int) :
    printStatement printer place offset w =
      .ok () (w.setContent printer (.printer (pr.emitAll (s.lines pr.indent offset)))) := by
  have hprint := Printer.statement_eq pr offset (hw.statement? hs)
  unfold printStatement
  rw [bind_ok (printerIn_eq hp), bind_ok (statementAt_eq hs), hprint]
  show EStateM.Result.ok () ((w.setStatement s place).setContent printer _) = _
  rw [Workspace.setStatement_eq_self hs]

/-- **Printing a program** changes the printer alone. -/
theorem printProgram_eq (hw : w.Shaped) (hp : w.content? printer = some (.printer pr))
    (hq : w.content? slot = some (.program q)) :
    printProgram printer slot w =
      .ok () (w.setContent printer (.printer (pr.emitAll (q.lines pr.indent)))) := by
  have hparts : q.Shaped := hw slot _ hq
  unfold printProgram
  rw [bind_ok (printerIn_eq hp), bind_ok (programIn_eq hq),
    Printer.program_eq pr hparts.entries hparts.body]
  show EStateM.Result.ok () ((w.setContent slot (.program q)).setContent printer _) = _
  rw [Workspace.setContent_eq_self hq]

theorem prettyStatement_eq (hw : w.Shaped) (hs : w.statement? place = some s) (offset : Int) :
    ∃ text, s.pretty offset = .ok (text, s) ∧ prettyStatement place offset w = .ok text w := by
  have hpretty := Statement.pretty_eq (hw.statement? hs) offset
  refine ⟨_, hpretty, ?_⟩
  unfold prettyStatement
  rw [bind_ok (statementAt_eq hs), hpretty]
  show EStateM.Result.ok _ (w.setStatement s place) = _
  rw [Workspace.setStatement_eq_self hs]

theorem prettyProgram_eq (hw : w.Shaped) (hq : w.content? slot = some (.program q)) :
    ∃ text, q.pretty = .ok (text, q) ∧ prettyProgram slot w = .ok text w := by
  have hparts : q.Shaped := hw slot _ hq
  have hpretty := Program.pretty_eq hparts.entries hparts.body
  refine ⟨_, hpretty, ?_⟩
  unfold prettyProgram
  rw [bind_ok (programIn_eq hq), hpretty]
  show EStateM.Result.ok _ (w.setContent slot (.program q)) = _
  rw [Workspace.setContent_eq_self hq]

theorem describeTarget_eq (hw : w.Shaped) (hs : w.statement? place = some s) :
    describeTarget (.place place) w = .ok ("Statement(" ++ s.parenthesized ++ ")") w := by
  have hplace := Workspace.statementPlace?_eq_some_iff.2 ⟨rfl, s, hs⟩
  unfold describeTarget
  rw [get_bind]
  simp only [hplace]
  rw [bind_ok (statementAt_eq hs), Statement.describe_eq (hw.statement? hs),
    Statement.tree_eq_parenthesized]
  show EStateM.Result.ok _ (w.setStatement s place) = _
  rw [Workspace.setStatement_eq_self hs]

end Action

/-! ### Operations -/

namespace Workspace

/-- Printing adds the lines of a statement or a program to a printer; texts and descriptions are
    given; and the workspace is as it was but for the printer. -/
structure PrintsInPlace (w : Workspace) : Prop where
  statement : ∀ {printer place pr s} (offset : Int), w.content? printer = some (.printer pr) →
    w.statement? place = some s →
    w.step (.printStatement printer (.place place) offset) = (.ok .nothing,
      w.setContent printer (.printer { pr with lines := pr.lines ++ s.lines pr.indent offset }))
  program : ∀ {printer slot pr q}, w.content? printer = some (.printer pr) →
    w.content? slot = some (.program q) →
    w.step (.printProgram printer (.place (.slot slot))) = (.ok .nothing,
      w.setContent printer (.printer { pr with lines := pr.lines ++ q.lines pr.indent }))
  prettyStatement : ∀ {place s} (offset : Int), w.statement? place = some s →
    ∃ text, s.pretty offset = .ok (text, s) ∧
      w.step (.pretty (.place place) offset) = (.ok (.text text), w)
  prettyProgram : ∀ {slot q}, w.content? slot = some (.program q) →
    ∃ text, q.pretty = .ok (text, q) ∧
      w.step (.prettyProgram (.place (.slot slot))) = (.ok (.text text), w)
  description : ∀ {place s}, w.statement? place = some s →
    w.step (.describe (.place place)) =
      (.ok (.text ("Statement(" ++ s.parenthesized ++ ")")), w)

/-- **Printing** leaves a workspace as it is, but for the printer. -/
theorem Shaped.printsInPlace {w : Workspace} (hw : w.Shaped) : w.PrintsInPlace where
  statement offset hp hs := by
    refine step_eq_ok_iff.2 ?_
    rw [Operation.perform, bind_ok (statementPlace_eq hs),
      bind_ok (printStatement_eq hw hp hs offset)]
    rfl
  program hp hq := by
    refine step_eq_ok_iff.2 ?_
    rw [Operation.perform, bind_ok (programSlot_eq hq), bind_ok (printProgram_eq hw hp hq)]
    rfl
  prettyStatement offset hs := by
    obtain ⟨text, htext, hpretty⟩ := prettyStatement_eq hw hs offset
    refine ⟨text, htext, step_eq_ok_iff.2 ?_⟩
    rw [Operation.perform, bind_ok (statementPlace_eq hs), bind_ok hpretty]
    rfl
  prettyProgram hq := by
    obtain ⟨text, htext, hpretty⟩ := prettyProgram_eq hw hq
    refine ⟨text, htext, step_eq_ok_iff.2 ?_⟩
    rw [Operation.perform, bind_ok (programSlot_eq hq), bind_ok hpretty]
    rfl
  description hs := by
    refine step_eq_ok_iff.2 ?_
    rw [Operation.perform, bind_ok (describeTarget_eq hw hs)]
    rfl

end Workspace

/-! ### Restoration -/

/-- **Printing follows the tree and restores what it takes apart.** To print a statement is to print
    each line as soon as its construct is taken apart.  For a well-formed statement the
    printer adds the lines of its tree, however far they stand in, behind the lines that it has; the
    dump and the description show the tree; and the statement comes out as it went in.  The same
    holds for a program with well-formed statements: printing it never fails, and its name, its
    definitions in their order and its body come out as they went in.  Where statements and programs
    are in a workspace, nothing in it changes but the printer. -/
theorem Printer.printing_restores :
    (∀ (p : Printer) (offset : Int) (s : Statement),
      p.statement offset s = inPassing s.depth offset p s) ∧
    (∀ s : Statement, s.WellFormed →
      (∀ (p : Printer) (offset : Int), p.statement offset s =
        .ok ({ p with lines := p.lines ++ s.lines p.indent offset }, s)) ∧
      (∀ offset : Int, s.pretty offset =
        .ok (if s.lines defaultIndent offset = [] then ""
          else Layout.textOfLines (s.lines defaultIndent offset), s)) ∧
      s.dump = .ok (s.parenthesized, s) ∧
      s.describe = .ok ("Statement(" ++ s.parenthesized ++ ")", s)) ∧
    (∀ q : Program, (∀ e ∈ q.context.entries, e.2.WellFormed) → q.body.WellFormed →
      (∀ p : Printer, p.program q = .ok ({ p with lines := p.lines ++ q.lines p.indent }, q)) ∧
      q.pretty = .ok (Layout.textOfLines (q.lines defaultIndent), q)) ∧
    ∀ w : Workspace, w.Shaped → w.PrintsInPlace := by
  refine ⟨fun p offset s => (inPassing_depth p offset s).symm, ?_, ?_, fun w hw => hw.printsInPlace⟩
  · intro s hs
    have hdump := Statement.dump_eq hs
    have hdescribe := Statement.describe_eq hs
    rw [Statement.tree_eq_parenthesized] at hdump hdescribe
    exact ⟨fun p offset => Printer.statement_eq p offset hs, Statement.pretty_eq hs, hdump,
      hdescribe⟩
  · intro q hc hb
    exact ⟨fun p => Printer.program_eq p hc hb, Program.pretty_eq hc hb⟩

/-- Printing a statement behind a line that is there, printing a program, and describing the
    statement where it is in a slot. -/
theorem Printer.printing_restores_sample :
    (⟨3, ["first"]⟩ : Printer).statement 1 .sample =
      .ok (⟨3, ["first", " move", " IF random THEN", "    skip", " ELSE", " END IF"]⟩, .sample) ∧
    Statement.sample.dump = .ok ("(BLOCK (CALL move) (IF_ELSE random (BLOCK (CALL skip)) (BLOCK)))",
      .sample) ∧
    (∃ text, Program.sample.pretty = .ok (text, .sample)) ∧
    (Workspace.empty.setContent "s" (.statement .sample)).step (.describe (.place (.slot "s"))) =
      (.ok (.text ("Statement(" ++ Statement.sample.parenthesized ++ ")")),
        Workspace.empty.setContent "s" (.statement .sample)) := by
  obtain ⟨hprint, -, hdump, -⟩ := printing_restores.2.1 .sample (by decide)
  have hlines : Statement.sample.lines 3 1 =
      [" move", " IF random THEN", "    skip", " ELSE", " END IF"] := by decide
  have htree : Statement.sample.parenthesized =
      "(BLOCK (CALL move) (IF_ELSE random (BLOCK (CALL skip)) (BLOCK)))" := by decide
  have hsample : Statement.sample.WellFormed := by decide
  have hw : (Workspace.empty.setContent "s" (.statement .sample)).Shaped :=
    Workspace.shaped_empty.setContent hsample
  refine ⟨?_, ?_, ⟨_, (printing_restores.2.2.1 .sample (by decide) (by decide)).2⟩,
    (printing_restores.2.2.2 _ hw).description rfl⟩
  · rw [hprint, hlines]
    rfl
  · rw [hdump, htree]

end BL
