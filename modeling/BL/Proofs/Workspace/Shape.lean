import BL.Proofs.RoundTrip
import BL.Proofs.Statement.Shape
import BL.Proofs.Workspace.Sound
import BL.Workspace.Operation

namespace BL

open Reader Workspace

/-!
# The shape of statements over whole runs

Whatever is done in a workspace, one operation after the other and however many of them fail, all
its statements have the shape of their constructs:

* `Production.keeps_statementReader`, `Action.keeps_read`, … — reading into targets, halfway or not;
* `Action.keeps_describeTarget`, `Action.keeps_printStatement`, … — written forms, for which
  statements are taken apart and put together again;
* `Action.keeps_perform` — one operation;
* `Workspace.shaped_run` — operations one after the other;
* `Workspace.hasShape_of_run` — so every statement that can be reached has its shape.
-/

/-! ### Readers -/

namespace Production

theorem keeps_statementReader {production : Production} {r : Reader Statement Value}
    (h : production.statementReader? = some r) :
    Keeps (OnTarget Statement.WellFormed) r fun _ => True := by
  cases production with
  | statement => cases h; exact keeps_statement.result _
  | block => cases h; exact keeps_block.result _
  | conditional => cases h; exact keeps_conditional.result _
  | loop => cases h; exact keeps_loop.result _
  | call => cases h; exact keeps_call.result _
  | instruction => cases h; exact keeps_instruction.result _
  | program => cases h

theorem keeps_programReader {production : Production} {r : Reader Program Value}
    {P : Program → Prop} (hP : ∀ p, p.WellFormed → P p)
    (h : production.programReader? = some r) : Keeps (OnTarget P) r fun _ => True := by
  cases production with
  | program => cases h; exact (keeps_program hP).result _
  | _ => cases h

/-- A program that stands for an empty block becomes a new one, if the production is a block;
    otherwise it stays. -/
theorem keeps_hollowReader {P : Program → Prop} (hP : P .empty) (production : Production) :
    Keeps (OnTarget P) production.hollowReader fun _ => True := by
  have hown : Keeps (OnTarget P) (do put .empty; wholeEmptyBlock) fun _ => True :=
    (keeps_put hP).bind fun _ _ => detached_wholeEmptyBlock.keeps
  have hinner : Detached (wholeEmptyBlock : Reader Program Bool) := detached_wholeEmptyBlock
  cases production with
  | statement => exact hinner.statementHead.keeps.result _
  | block => exact hown.result _
  | conditional => exact hinner.conditionalHead.keeps.result _
  | loop => exact hinner.loopHead.keeps.result _
  | call => exact detached_callHead.keeps.result _
  | instruction =>
    have hhead : Keeps (OnTarget P) (instructionHead (do put .empty; wholeEmptyBlock))
        fun _ => True := by
      refine detached_instructionOpening.bind_keeps fun name => hown.bind fun ended _ => ?_
      exact .ite ((detached_expect _).bind_keeps fun _ =>
        (detached_closing _).bind_keeps fun _ => keeps_pure trivial) (keeps_pure trivial)
    exact hhead.result _
  | program => exact detached_programOpening.keeps.result _

end Production

namespace Action

/-- Running a reader leaves a target with the property that the reader keeps. -/
theorem runReader_of_keeps {τ α : Type} {P : τ → Prop} {Q : α → Prop} {r : Reader τ α}
    (h : Keeps (OnTarget P) r Q) (q : TokenQueue) {t : τ} (ht : P t) :
    P (runReader r q t).2.target := by
  have hst := h ⟨q, t⟩ ht
  unfold runReader
  cases hr : r ⟨q, t⟩ with
  | ok a st =>
    rw [hr] at hst
    exact hst.1
  | error f st =>
    rw [hr] at hst
    exact hst

theorem keeps_queueOf {input : Input} : Keeps Shaped (queueOf input) fun _ => True := by
  cases input with
  | slot n =>
    refine keeps_get.bind fun w _ => ?_
    split
    · exact keeps_pure trivial
    · exact keeps_queueIn
  | text source => exact keeps_pure trivial
  | texts ss => exact keeps_pure trivial
  | tokens ts => exact keeps_pure trivial

theorem keeps_keepRest {q : TokenQueue} {input : Input} :
    Keeps Shaped (keepRest q input) fun _ => True := by
  cases input with
  | slot n =>
    refine keeps_get.bind fun w _ => ?_
    split
    · exact keeps_setSlot trivial
    · exact keeps_pure trivial
  | text source => exact keeps_pure trivial
  | texts ss => exact keeps_pure trivial
  | tokens ts => exact keeps_pure trivial

/-- The target is written back as the reader left it, also if reading failed. -/
theorem keeps_readStatement {r : Reader Statement Value} {target : Place} {input : Input}
    (hr : Keeps (OnTarget Statement.WellFormed) r fun _ => True) :
    Keeps Shaped (readStatement r target input) fun _ => True := by
  refine keeps_queueOf.bind fun q _ => keeps_statementAt.bind fun s hs => ?_
  have htarget := runReader_of_keeps hr q hs
  exact keeps_keepRest.bind fun _ _ => (keeps_setStatement htarget).result _

theorem keeps_readProgram {r : Reader Program Value} {target : String} {input : Input}
    (hr : Keeps (OnTarget Program.Shaped) r fun _ => True) :
    Keeps Shaped (readProgram r target input) fun _ => True := by
  refine keeps_queueOf.bind fun q _ => keeps_programIn.bind fun p hp => ?_
  have htarget := runReader_of_keeps hr q hp
  exact keeps_keepRest.bind fun _ _ => (keeps_setProgram htarget).result _

theorem keeps_read {production : Production} {target : Reference} {input : Input} :
    Keeps Shaped (read production target input) fun _ => True := by
  unfold Action.read
  split
  · rename_i r hr
    exact keeps_locate.bind fun _ _ =>
      keeps_readStatement (Production.keeps_statementReader hr)
  · refine (keeps_require fun r hr => hr).bind fun r hr => keeps_locate.bind fun _ _ => ?_
    exact keeps_readProgram (Production.keeps_programReader (fun _ hp => hp.shaped) hr)

theorem keeps_outcomeOf {result : Except Fault (Option Value)} {left : List Token} :
    Keeps Shaped (outcomeOf result left) fun _ => True := by
  unfold outcomeOf
  split
  · exact keeps_pure trivial
  · exact keeps_throw
  · exact keeps_pure trivial

theorem keeps_readHead {production : Production} {target : Reference} {input : Input} :
    Keeps Shaped (readHead production target input) fun _ => True := by
  refine keeps_queueOf.bind fun q _ => keeps_get.bind fun w _ => ?_
  split
  · refine keeps_programIn.bind fun p hp => ?_
    have htarget := runReader_of_keeps
      (Production.keeps_hollowReader Program.shaped_empty production) q hp
    exact keeps_keepRest.bind fun _ _ => (keeps_setProgram htarget).bind fun _ _ =>
      keeps_outcomeOf
  · exact keeps_keepRest.bind fun _ _ => keeps_outcomeOf

theorem keeps_tryRead {production : Production} {target : Reference} {input : Input} :
    Keeps Shaped (tryRead production target input) fun _ => True := by
  refine keeps_get.bind fun w _ => ?_
  split
  · rename_i r place hr _
    exact keeps_readStatement (Production.keeps_statementReader hr)
  · split
    · rename_i r n hr _
      exact keeps_readProgram (Production.keeps_programReader (fun _ hp => hp.shaped) hr)
    · exact keeps_readHead

theorem keeps_peeking {what : Peeking} {input : Input} :
    Keeps Shaped (peeking what input) fun _ => True :=
  keeps_queueOf.bind fun _ _ => keeps_keepRest.result _

/-! ### Written forms -/

theorem keeps_describeTarget {target : Reference} :
    Keeps Shaped (describeTarget target) fun _ => True := by
  refine keeps_get.bind fun w _ => ?_
  split
  · refine keeps_statementAt.bind fun s hs => ?_
    have hdescribe : Keeps Shaped (attempt s.describe) fun b => b.2.WellFormed :=
      keeps_attempt_of_eq (Statement.describe_eq hs) hs
    exact hdescribe.bind fun b hb => (keeps_setStatement hb).result _
  · split
    · split
      · exact keeps_pure trivial
      · exact keeps_pure trivial
      · exact keeps_throw
    · exact keeps_throw

theorem keeps_labelTarget {target : Reference} :
    Keeps Shaped (labelTarget target) fun _ => True := by
  refine keeps_get.bind fun w _ => ?_
  split
  · exact keeps_statementAt.result _
  · exact keeps_describeTarget

theorem keeps_agreeing {a b : Reference} : Keeps Shaped (agreeing a b) fun _ => True := by
  refine keeps_get.bind fun w _ => ?_
  split <;> exact keeps_pure trivial

/-- What is printed is put together again as it was. -/
theorem keeps_printStatement {printer : String} {place : Place} {offset : Int} :
    Keeps Shaped (printStatement printer place offset) fun _ => True := by
  refine keeps_printerIn.bind fun pr _ => keeps_statementAt.bind fun s hs => ?_
  have hprint : Keeps Shaped (attempt (pr.statement offset s)) fun b => b.2.WellFormed :=
    keeps_attempt_of_eq (Printer.statement_eq _ _ hs) hs
  exact hprint.bind fun b hb => (keeps_setStatement hb).bind fun _ _ => keeps_setSlot trivial

theorem keeps_printProgram {printer slot : String} :
    Keeps Shaped (printProgram printer slot) fun _ => True := by
  refine keeps_printerIn.bind fun pr _ => keeps_programIn.bind fun p hp => ?_
  have hprint : Keeps Shaped (attempt (pr.program p)) fun b => b.2.Shaped :=
    keeps_attempt_of_eq (Printer.program_eq _ hp.entries hp.body) hp
  exact hprint.bind fun b hb => (keeps_setProgram hb).bind fun _ _ => keeps_setSlot trivial

theorem keeps_prettyStatement {place : Place} {offset : Int} :
    Keeps Shaped (prettyStatement place offset) fun _ => True := by
  refine keeps_statementAt.bind fun s hs => ?_
  have hprint : Keeps Shaped (attempt (s.pretty offset)) fun b => b.2.WellFormed :=
    keeps_attempt_of_eq (Statement.pretty_eq hs offset) hs
  exact hprint.bind fun b hb => (keeps_setStatement hb).result _

theorem keeps_prettyProgram {slot : String} :
    Keeps Shaped (prettyProgram slot) fun _ => True := by
  refine keeps_programIn.bind fun p hp => ?_
  have hprint : Keeps Shaped (attempt p.pretty) fun b => b.2.Shaped :=
    keeps_attempt_of_eq (Program.pretty_eq hp.entries hp.body) hp
  exact hprint.bind fun b hb => (keeps_setProgram hb).result _

/-! ### What references lead to -/

theorem keeps_newLike {model : Reference} : Keeps Shaped (newLike model) Content.Shaped := by
  refine keeps_get.bind fun w _ => ?_
  split
  · exact keeps_pure Program.shaped_empty
  · exact keeps_locate.bind fun _ _ => keeps_pure Statement.wellFormed_empty

theorem keeps_clearTarget {target : Reference} :
    Keeps Shaped (clearTarget target) fun _ => True := by
  refine keeps_get.bind fun w _ => ?_
  split
  · exact keeps_clearProgram
  · exact keeps_clearContext
  · exact keeps_locate.bind fun _ _ => keeps_clear

theorem keeps_transferTarget {target source : Reference} :
    Keeps Shaped (transferTarget target source) fun _ => True := by
  refine keeps_get.bind fun w _ => ?_
  split
  · exact keeps_transferProgram
  · exact keeps_locate.bind fun _ _ => keeps_transfer

theorem keeps_nameTarget {target : Reference} {name : Option String} :
    Keeps Shaped (nameTarget target name) fun _ => True := by
  refine keeps_get.bind fun w _ => keeps_get.bind fun w' _ => ?_
  split
  · exact keeps_setName
  · exact keeps_throw
  · exact keeps_throw
  · exact keeps_pure trivial

/-! ### Operations -/

/-- **One operation** leaves all statements well formed, whether it succeeds or fails. -/
theorem keeps_perform (op : Operation) : Keeps Shaped op.perform fun _ => True := by
  cases op with
  | newStatement slot =>
    exact (keeps_setSlot (c := .statement .empty) Statement.wellFormed_empty).result _
  | newProgram slot => exact (keeps_setSlot (c := .program .empty) Program.shaped_empty).result _
  | newContext slot => exact keeps_clearContext.result _
  | newLike model slot => exact keeps_newLike.bind fun _ hc => (keeps_setSlot hc).result _
  | newQueue input slot =>
    exact keeps_queueOf.bind fun q _ => (keeps_setSlot (c := .queue q) trivial).result _
  | newPrinter indent slot => exact (keeps_setSlot (c := .printer _) trivial).result _
  | statementsOf source slot =>
    have hread : Keeps Shaped (attempt (Statement.ofSource source)) Statement.WellFormed :=
      keeps_attempt fun s hs => (Statement.wellFormed_of_ofSource hs).1
    exact hread.bind fun s hs => (keeps_setSlot (c := .statement s) hs).result _
  | programOf source slot =>
    have hread : Keeps Shaped (attempt (Program.ofSource source)) Program.Shaped :=
      keeps_attempt fun p hp => (Program.wellFormed_of_ofSource hp).1.shaped
    exact hread.bind fun p hp => (keeps_setSlot (c := .program p) hp).result _
  | clear target => exact keeps_clearTarget.result _
  | transfer target source => exact keeps_transferTarget.result _
  | kind s => exact keeps_locate.bind fun _ _ => keeps_statementAt.result _
  | rootLabel s => exact keeps_labelTarget.result _
  | describe target => exact keeps_describeTarget.result _
  | agree a b => exact keeps_agreeing.result _
  | insertChild s index child => exact keeps_locate.bind fun _ _ => keeps_insertChild.result _
  | removeChild s index slot => exact keeps_locate.bind fun _ _ => keeps_removeChild.result _
  | blockLength s => exact keeps_locate.bind fun _ _ => keeps_blockLength.result _
  | assembleIf s c body => exact keeps_locate.bind fun _ _ => keeps_assembleIf.result _
  | assembleIfElse s c body alternative =>
    exact keeps_locate.bind fun _ _ => keeps_assembleIfElse.result _
  | assembleWhile s c body => exact keeps_locate.bind fun _ _ => keeps_assembleWhile.result _
  | assembleCall s name => exact keeps_locate.bind fun _ _ => keeps_assembleCall.result _
  | disassembleIf s body => exact keeps_locate.bind fun _ _ => keeps_disassembleIf.result _
  | disassembleIfElse s body alternative =>
    exact keeps_locate.bind fun _ _ => keeps_disassembleIfElse.result _
  | disassembleWhile s body => exact keeps_locate.bind fun _ _ => keeps_disassembleWhile.result _
  | disassembleCall s => exact keeps_locate.bind fun _ _ => keeps_disassembleCall.result _
  | setName p name => exact keeps_nameTarget.result _
  | swapContext p context => exact keeps_locate.bind fun _ _ => keeps_swapContext.result _
  | swapBody p s => exact keeps_locate.bind fun _ _ => keeps_swapBody.result _
  | putEntry context name s => exact keeps_locate.bind fun _ _ => keeps_putEntry.result _
  | parse production target input =>
    exact keeps_read.bind fun o _ => (keeps_attempt fun _ _ => trivial).result _
  | attempt production target input => exact keeps_tryRead.result _
  | peeking what input => exact keeps_peeking.result _
  | front queue => exact keeps_queueIn.result _
  | dequeue queue =>
    exact keeps_queueIn.bind fun q _ => (keeps_setSlot (c := .queue q.rest) trivial).result _
  | queueSize queue => exact keeps_queueIn.result _
  | queueTokens queue => exact keeps_queueIn.result _
  | tokenDescriptions queue => exact keeps_queueIn.result _
  | pretty s offset => exact keeps_locate.bind fun _ _ => keeps_prettyStatement.result _
  | prettyProgram p => exact keeps_locate.bind fun _ _ => keeps_prettyProgram.result _
  | emit printer offset text =>
    exact keeps_printerIn.bind fun _ _ => (keeps_setSlot (c := .printer _) trivial).result _
  | printStatement printer s offset =>
    exact keeps_locate.bind fun _ _ => keeps_printStatement.result _
  | printProgram printer p => exact keeps_locate.bind fun _ _ => keeps_printProgram.result _
  | printedText printer => exact keeps_printerIn.result _

end Action

/-! ### Runs -/

namespace Workspace

/-- One step of a run. -/
theorem Shaped.step {w : Workspace} (hw : w.Shaped) (op : Operation) : (w.step op).2.Shaped := by
  have h := Action.keeps_perform op w hw
  unfold Workspace.step
  cases hp : op.perform w with
  | ok a w' =>
    rw [hp] at h
    exact h.1
  | error f w' =>
    rw [hp] at h
    exact h

/-- **Runs** leave all statements well formed. -/
theorem Shaped.run {w : Workspace} (hw : w.Shaped) (ops : List Operation) :
    (w.run ops).Shaped := by
  induction ops generalizing w with
  | nil => exact hw
  | cons op ops ih => exact ih (hw.step op)

/-- **The shape of statements.** After any operations on a new workspace, whether they succeed or
    fail, every statement that can be reached from a statement in a slot, from the body or the
    context of a program, or from a context has the shape of its construct. -/
theorem hasShape_of_run (ops : List Operation) (p : Place) (s t : Statement)
    (hs : (Workspace.empty.run ops).statement? p = some s) (ht : s.Reaches t) : t.HasShape :=
  Statement.wellFormed_iff_reaches.1 ((shaped_empty.run ops).statement? hs) t ht

/-- A block that is read up to a conditional that does not end, and operations that fail on it. -/
theorem hasShape_of_run_sample :
    ∃ s, (Workspace.empty.run
        [.newStatement "s", .newStatement "b",
          .parse .block (.place (.slot "s")) (.texts ["move", "IF", "random", "THEN", "END"]),
          .insertChild (.place (.slot "s")) 0 (.place (.slot "b")),
          .assembleIf (.place (.slot "s")) none (.place (.slot "b"))]).statement? (.slot "s")
        = some s ∧
      s.Reaches (.call "move") ∧ (Statement.call "move").HasShape := by
  have hstate : (Workspace.empty.run
      [.newStatement "s", .newStatement "b",
        .parse .block (.place (.slot "s")) (.texts ["move", "IF", "random", "THEN", "END"]),
        .insertChild (.place (.slot "s")) 0 (.place (.slot "b")),
        .assembleIf (.place (.slot "s")) none (.place (.slot "b"))]).statement? (.slot "s")
      = some (.block [.call "move"]) := by decide +kernel
  have hinside : (Statement.block [.call "move"]).Reaches (.call "move") :=
    .single List.mem_cons_self
  exact ⟨_, hstate, hinside, hasShape_of_run _ _ _ _ hstate hinside⟩

end Workspace

end BL
