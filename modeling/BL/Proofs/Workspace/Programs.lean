import BL.Proofs.Workspace.Proper
import BL.Proofs.Workspace.Shape

namespace BL

open Reader Workspace

/-!
# Programs over whole runs

The names of programs are identifiers at any time, whatever was done before and whatever failed.
With the definitions and bodies it is different: an operation that is given a statement does not see
whether it belongs to a program.  So a program is well formed until one of its parts is made into a
statement that is no block, and this can be told from the operation that does it.

* `Reader.keeps_items_kind`, `Production.remakes` — what readers make of a block;
* `Action.proper_read`, `Action.proper_peeking` — reading from a source;
* `Action.proper_perform` — one operation, with `Operation.remade?` as the statement that it makes
  into another one;
* `Operation.Reshapes`, `Workspace.Proper.run` — runs, by induction on the operations;
* `Workspace.program_of_run` — so programs are well formed unless an operation has reshaped a part;
* `Workspace.reshaped_body_is_no_block` — which an operation can do.
-/

/-! ### Readers -/

namespace Reader

/-- A statement joins the block that was read so far, and a block it stays. -/
theorem keeps_append_kind (child : Statement) :
    Keeps (OnTarget fun s => s.kind = .block) (append child) fun _ => True := by
  refine keeps_update fun s t _ h => ?_
  obtain ⟨n, -, hins⟩ := exists_of_bind_eq_ok h
  obtain ⟨ss, -, -, -, -, rfl⟩ := Statement.insertChild_eq_ok hins
  rfl

/-- **The statements of a block** are put into the target one by one, and it stays a block. -/
theorem keeps_items_kind (n : Nat) :
    Keeps (OnTarget fun s => s.kind = .block) (items n) fun _ => True := by
  induction n with
  | zero => exact (detached_throw _).keeps
  | succ n ih =>
    refine detached_peek.bind_keeps fun t => .ite (keeps_pure trivial) ?_
    -- Nothing has to be known about the statement that is built apart from the block.
    have hstatement : Keeps (OnTarget fun _ : Statement => True) (statementOf (items n))
        fun _ => True := keeps_of_forall (fun _ => trivial) _
    exact (keeps_fresh hstatement trivial).bind fun b _ =>
      (keeps_append_kind b.2).bind fun _ _ => ih

theorem keeps_block_kind : Keeps (OnTarget fun s => s.kind = .block) block fun _ => True :=
  (keeps_put (P := fun s : Statement => s.kind = .block) rfl).bind fun _ _ => fun st =>
    keeps_items_kind st.queue.size st

theorem keeps_instruction_kind :
    Keeps (OnTarget fun s => s.kind = .block) instruction fun _ => True :=
  detached_instructionOpening.bind_keeps fun _ => keeps_block_kind.bind fun _ _ =>
    (detached_expect _).bind_keeps fun _ => (detached_closing _).bind_keeps fun _ =>
      keeps_pure trivial

end Reader

namespace Production

/-- The production makes its target a statement of another kind. -/
def remakes : Production → Bool
  | statement | conditional | loop | call => true
  | block | instruction | program => false

theorem keeps_kind_of_remakes {production : Production} {r : Reader Statement Value}
    (hp : production.remakes = false) (h : production.statementReader? = some r) :
    Keeps (OnTarget fun s => s.kind = .block) r fun _ => True := by
  cases production with
  | block => cases h; exact keeps_block_kind.result _
  | instruction => cases h; exact keeps_instruction_kind.result _
  | program => cases h
  | _ => cases hp

end Production

namespace Action

variable {α : Type} {D : Place → Prop} {w : Workspace} {n : String}

theorem looks_queueIn (n : String) : Looks (queueIn n) := by
  refine looks_get.bind fun w => ?_
  split
  · exact looks_pure _
  · exact looks_throw _

theorem looks_printerIn (n : String) : Looks (printerIn n) := by
  refine looks_get.bind fun w => ?_
  split
  · exact looks_pure _
  · exact looks_throw _

theorem looks_queueOf (input : Input) : Looks (queueOf input) := by
  cases input with
  | slot n =>
    refine looks_get.bind fun w => ?_
    split
    · exact looks_pure _
    · exact looks_queueIn n
  | text source => exact looks_pure _
  | texts ss => exact looks_pure _
  | tokens ts => exact looks_pure _

theorem looks_outcomeOf (result : Except Fault (Option Value)) (left : List Token) :
    Looks (outcomeOf result left) := by
  unfold outcomeOf
  split
  · exact looks_pure _
  · exact looks_throw _
  · exact looks_pure _

/-- Where there is a queue, there is no statement, neither in it nor inside of it. -/
theorem statement?_setQueue {q q' : TokenQueue} (h : w.content? n = some (.queue q)) (p : Place) :
    (w.setContent n (.queue q')).statement? p = w.statement? p := by
  cases p with
  | slot m =>
    by_cases hm : m = n
    · subst hm
      simp [statement?, h]
    · simp [statement?, hm]
  | body m =>
    by_cases hm : m = n
    · subst hm
      simp [statement?, h]
    · simp [statement?, hm]
  | entry m k =>
    by_cases hm : m = n
    · subst hm
      simp [statement?, h]
    · simp [statement?, hm]

/-- What is left of a queue is written where the queue was, and nowhere else. -/
theorem keepRest_eq (q : TokenQueue) (input : Input) (hw : w.Proper D) :
    ∃ w', keepRest q input w = .ok () w' ∧ w'.Proper D ∧ ∀ p, w'.statement? p = w.statement? p := by
  cases input with
  | slot n =>
    rw [keepRest, get_bind]
    cases hc : w.content? n with
    | none => exact ⟨w, rfl, hw, fun _ => rfl⟩
    | some c =>
      cases c with
      | queue q' => exact ⟨_, rfl, hw.setContent trivial, statement?_setQueue hc⟩
      | _ => exact ⟨w, rfl, hw, fun _ => rfl⟩
  | _ => exact ⟨w, rfl, hw, fun _ => rfl⟩

theorem proper_readStatement {r : Reader Statement Value} {target : Place} {input : Input}
    (hw : w.Proper D)
    (hr : D target → Keeps (OnTarget fun s => s.kind = .block) r fun _ => True) :
    (behind (readStatement r target input) w).Proper D := by
  refine (looks_queueOf input).behind_bind hw fun q _ => ?_
  refine (looks_statementAt target).behind_bind hw fun s hs => ?_
  obtain ⟨w', hrest, hw', hsame⟩ := keepRest_eq (runReader r q s).2.queue input hw
  rw [behind_bind_ok hrest, behind_result]
  exact hw'.setStatement ((hsame target).trans (statementAt_eq_ok hs))
    fun hd hk => runReader_of_keeps (hr hd) q hk

theorem proper_readProgram {r : Reader Program Value} {input : Input} (hw : w.Proper D)
    (hr : Keeps (OnTarget fun p => p.Proper D n) r fun _ => True) :
    (behind (readProgram r n input) w).Proper D := by
  refine (looks_queueOf input).behind_bind hw fun q _ => ?_
  refine (looks_programIn n).behind_bind hw fun p hp => ?_
  obtain ⟨w', hrest, hw', -⟩ := keepRest_eq (runReader r q p).2.queue input hw
  rw [behind_bind_ok hrest, behind_result]
  exact proper_setProgram hw' (runReader_of_keeps hr q (hw n _ (programIn_eq_ok hp)))

theorem keeps_programReader_proper {production : Production} {r : Reader Program Value}
    (h : production.programReader? = some r) :
    Keeps (OnTarget fun p => p.Proper D n) r fun _ => True :=
  Production.keeps_programReader (fun _ hp => hp.proper) h

/-- Where a block is demanded, only productions may read that keep it a block. -/
theorem keeps_demanded {production : Production} {r : Reader Statement Value} {p : Place}
    (hD : production.remakes = true → ¬ D p) (h : production.statementReader? = some r)
    (hd : D p) : Keeps (OnTarget fun s => s.kind = .block) r fun _ => True := by
  cases hk : production.remakes with
  | true => exact absurd hd (hD hk)
  | false => exact Production.keeps_kind_of_remakes hk h

/-- **Reading** into a statement keeps it a block, or makes it another one where no block is
    demanded. -/
theorem proper_read {production : Production} {target : Reference} {input : Input}
    (hw : w.Proper D) (hD : production.remakes = true → ∀ p, target = .place p → ¬ D p) :
    (behind (Action.read production target input) w).Proper D := by
  unfold Action.read
  split
  · rename_i r hr
    exact behind_statementPlace_bind hw fun p s hp hs =>
      proper_readStatement hw (keeps_demanded (fun hk => hD hk p hp) hr)
  · cases hr : production.programReader? with
    | none => exact hw
    | some r =>
      exact behind_programSlot_bind hw fun n p hp =>
        proper_readProgram hw (keeps_programReader_proper hr)

theorem proper_readHead {production : Production} {target : Reference} {input : Input}
    (hw : w.Proper D) : (behind (readHead production target input) w).Proper D := by
  refine (looks_queueOf input).behind_bind hw fun q _ => ?_
  refine looks_get.behind_bind hw fun u hu => ?_
  split
  · rename_i n hn
    refine (looks_programIn n).behind_bind hw fun p hp => ?_
    have htarget := runReader_of_keeps (Production.keeps_hollowReader
      (P := fun p => p.Proper D n) Program.proper_empty production) q (hw n _ (programIn_eq_ok hp))
    obtain ⟨w', hrest, hw', -⟩ :=
      keepRest_eq (runReader production.hollowReader q p).2.queue input hw
    rw [behind_bind_ok hrest, behind_bind_looks _ fun _ => looks_outcomeOf _ _]
    exact proper_setProgram hw' htarget
  · obtain ⟨w', hrest, hw', -⟩ :=
      keepRest_eq (runReader production.openingReader q ()).2.queue input hw
    rwa [behind_bind_ok hrest, (looks_outcomeOf _ _).behind]

theorem proper_tryRead {production : Production} {target : Reference} {input : Input}
    (hw : w.Proper D) (hD : production.remakes = true → ∀ p, target = .place p → ¬ D p) :
    (behind (tryRead production target input) w).Proper D := by
  refine looks_get.behind_bind hw fun u hu => ?_
  cases hu
  split
  · rename_i r p hr hp
    have htarget := (statementPlace?_eq_some_iff.1 hp).1
    exact proper_readStatement hw (keeps_demanded (fun hk => hD hk p htarget) hr)
  · split
    · rename_i r n hr hn
      exact proper_readProgram hw (keeps_programReader_proper hr)
    · exact proper_readHead hw

theorem proper_peeking {what : Peeking} {input : Input} (hw : w.Proper D) :
    (behind (peeking what input) w).Proper D := by
  refine (looks_queueOf input).behind_bind hw fun q _ => ?_
  obtain ⟨w', hrest, hw', -⟩ := keepRest_eq (runReader what.reader q ()).2.queue input hw
  rwa [behind_result, behind_eq hrest]

/-! ### Written forms -/

theorem eq_ok_of_attempt {y : Except Fault α} {a : α} {w' : Workspace}
    (h : attempt y w = .ok a w') : y = .ok a := by
  cases y with
  | ok b =>
    cases h
    rfl
  | error e => cases h

/-- A statement that is taken apart and put together again may be written back. -/
theorem proper_writeBack {p : Place} {s t : Statement} (hw : w.Proper D)
    (hs : statementAt p w = .ok s w) (ht : t = s) : (w.setStatement t p).Proper D :=
  hw.setStatement (statementAt_eq_ok hs) fun _ hk => ht ▸ hk

theorem proper_describeTarget {target : Reference} (hshaped : w.Shaped) (hw : w.Proper D) :
    (behind (describeTarget target) w).Proper D := by
  refine looks_get.behind_bind hw fun u hu => ?_
  split
  · rename_i p hp
    refine (looks_statementAt p).behind_bind hw fun s hs => ?_
    refine (looks_attempt _).behind_bind hw fun b hb => ?_
    have hdescribe := Statement.describe_eq (hshaped.statement? (statementAt_eq_ok hs))
    cases hdescribe.symm.trans (eq_ok_of_attempt hb)
    rw [behind_result]
    exact proper_writeBack hw hs rfl
  · split
    · split
      · exact hw
      · exact hw
      · exact hw
    · exact hw

theorem proper_labelTarget {target : Reference} (hshaped : w.Shaped) (hw : w.Proper D) :
    (behind (labelTarget target) w).Proper D := by
  refine looks_get.behind_bind hw fun u hu => ?_
  split
  · rename_i p hp
    rwa [behind_result, (looks_statementAt p).behind]
  · exact proper_describeTarget hshaped hw

theorem looks_agreeing (a b : Reference) : Looks (agreeing a b) := by
  refine looks_get.bind fun w => ?_
  split
  · exact looks_pure _
  · exact looks_pure _
  · exact looks_pure _
  · exact looks_pure _

theorem proper_printStatement {printer : String} {place : Place} {offset : Int}
    (hshaped : w.Shaped) (hw : w.Proper D) :
    (behind (printStatement printer place offset) w).Proper D := by
  refine (looks_printerIn printer).behind_bind hw fun pr _ => ?_
  refine (looks_statementAt place).behind_bind hw fun s hs => ?_
  refine (looks_attempt _).behind_bind hw fun b hb => ?_
  have hprint := Printer.statement_eq pr offset (hshaped.statement? (statementAt_eq_ok hs))
  cases hprint.symm.trans (eq_ok_of_attempt hb)
  exact (proper_writeBack hw hs rfl).setContent trivial

theorem proper_prettyStatement {place : Place} {offset : Int} (hshaped : w.Shaped)
    (hw : w.Proper D) : (behind (prettyStatement place offset) w).Proper D := by
  refine (looks_statementAt place).behind_bind hw fun s hs => ?_
  refine (looks_attempt _).behind_bind hw fun b hb => ?_
  have hpretty := Statement.pretty_eq (hshaped.statement? (statementAt_eq_ok hs)) offset
  cases hpretty.symm.trans (eq_ok_of_attempt hb)
  rw [behind_result]
  exact proper_writeBack hw hs rfl

theorem proper_printProgram {printer slot : String} (hshaped : w.Shaped) (hw : w.Proper D) :
    (behind (printProgram printer slot) w).Proper D := by
  refine (looks_printerIn printer).behind_bind hw fun pr _ => ?_
  refine (looks_programIn slot).behind_bind hw fun p hp => ?_
  refine (looks_attempt _).behind_bind hw fun b hb => ?_
  have hp := programIn_eq_ok hp
  have hparts : p.Shaped := hshaped slot _ hp
  cases (Printer.program_eq pr hparts.entries hparts.body).symm.trans (eq_ok_of_attempt hb)
  exact (hw.setContent (hw slot _ hp)).setContent trivial

theorem proper_prettyProgram {slot : String} (hshaped : w.Shaped) (hw : w.Proper D) :
    (behind (prettyProgram slot) w).Proper D := by
  refine (looks_programIn slot).behind_bind hw fun p hp => ?_
  refine (looks_attempt _).behind_bind hw fun b hb => ?_
  have hp := programIn_eq_ok hp
  have hparts : p.Shaped := hshaped slot _ hp
  cases (Program.pretty_eq hparts.entries hparts.body).symm.trans (eq_ok_of_attempt hb)
  rw [behind_result]
  exact hw.setContent (hw slot _ hp)

/-! ### What references lead to -/

theorem looks_newLike (model : Reference) : Looks (newLike model) := by
  refine looks_get.bind fun w => ?_
  split
  · exact looks_pure _
  · exact (looks_locate _ _).bind fun _ => looks_pure _

/-- What is new is proper. -/
theorem proper_of_newLike {model : Reference} {c : Content} {w' : Workspace}
    (h : newLike model w = .ok c w') : c.Proper D n := by
  unfold newLike at h
  rw [get_bind] at h
  cases hslot : w.programSlot? model with
  | some m =>
    rw [hslot] at h
    cases h
    exact Program.proper_empty
  | none =>
    rw [hslot] at h
    dsimp only at h
    rw [bind_eq] at h
    cases hplace : statementPlace model w with
    | ok p u =>
      rw [hplace] at h
      cases h
      trivial
    | error e u =>
      rw [hplace] at h
      cases h

theorem proper_clearTarget {target : Reference} (hw : w.Proper D) :
    (behind (clearTarget target) w).Proper D := by
  refine looks_get.behind_bind hw fun u hu => ?_
  split
  · exact proper_clearProgram hw
  · exact proper_clearContext hw
  · exact behind_statementPlace_bind hw fun p s _ hs => proper_clear hw hs

theorem proper_nameTarget {target : Reference} {name : Option String} (hw : w.Proper D) :
    (behind (nameTarget target name) w).Proper D := by
  refine looks_get.behind_bind hw fun u hu => looks_get.behind_bind hw fun u' hu' => ?_
  split
  · exact proper_setName hw
  · exact hw
  · exact hw
  · exact hw

/-- **Whole statements** of any kind are moved into the target, whole programs are as good as
    before. -/
theorem proper_transferTarget {b : Prop} {target source : Reference}
    (hw : w.Proper fun _ => b) :
    (behind (transferTarget target source) w).Proper
      fun q => b ∧ some target ≠ some (.place q) := by
  refine looks_get.behind_bind (hw.mono fun _ => And.left) fun u hu => ?_
  split
  · exact (proper_transferProgram hw).mono fun _ => And.left
  · refine behind_statementPlace_bind (hw.mono fun _ => And.left) fun p s hp hs => ?_
    exact proper_transfer (hw.mono fun _ => And.left) hs fun hd => hd.2 (congrArg some hp)

/-! ### Operations -/

section

variable {β : Type} {P : Workspace → Prop} {r : Reference}

/-- An operation at a place where there is a statement. -/
theorem behind_at {x : Place → Action α} {g : α → β} (hw : P w)
    (h : ∀ p s, r = .place p → w.statement? p = some s → P (behind (x p) w)) :
    P (behind (do let a ← x (← statementPlace r); return g a) w) := by
  refine behind_statementPlace_bind hw fun p s hp hs => ?_
  rw [behind_result]
  exact h p s hp hs

/-- An operation on a program in a slot. -/
theorem behind_inProgram {x : String → Action α} {g : α → β} (hw : P w)
    (h : ∀ n p, w.content? n = some (.program p) → P (behind (x n) w)) :
    P (behind (do let a ← x (← programSlot r); return g a) w) := by
  refine behind_programSlot_bind hw fun n p hp => ?_
  rw [behind_result]
  exact h n p hp

end

end Action

/-- The statement that an operation makes into another one, of any kind. -/
def Operation.remade? : Operation → Option Reference
  | transfer target _ | assembleIf target .. | assembleIfElse target .. | assembleWhile target ..
  | assembleCall target _ => some target
  | parse production target _ | attempt production target _ =>
    if production.remakes then some target else none
  | _ => none

namespace Action

/-- **One operation** keeps all programs proper, whether it succeeds or fails, but for what it makes
    into another statement. -/
theorem proper_perform {b : Prop} {w : Workspace} (op : Operation) (hshaped : w.Shaped)
    (hw : w.Proper fun _ => b) :
    (behind op.perform w).Proper fun q => b ∧ op.remade? ≠ some (.place q) := by
  have hkept : w.Proper fun q => b ∧ op.remade? ≠ some (.place q) := hw.mono fun _ => And.left
  cases op with
  | newStatement slot => exact hkept.setContent trivial
  | newProgram slot => exact hkept.setContent (c := .program .empty) Program.proper_empty
  | newContext slot => exact hkept.setContent trivial
  | newLike model slot =>
    exact (looks_newLike model).behind_bind hkept fun c hc =>
      hkept.setContent (proper_of_newLike hc)
  | newQueue input slot =>
    exact (looks_queueOf input).behind_bind hkept fun q _ => hkept.setContent trivial
  | newPrinter indent slot => exact hkept.setContent trivial
  | statementsOf source slot =>
    exact (looks_attempt _).behind_bind hkept fun s _ => hkept.setContent trivial
  | programOf source slot =>
    refine (looks_attempt _).behind_bind hkept fun p hp => ?_
    have hread := (Program.wellFormed_of_ofSource (eq_ok_of_attempt hp)).1
    exact hkept.setContent (c := .program p) hread.proper
  | clear target =>
    rw [Operation.perform, behind_result]
    exact proper_clearTarget hkept
  | transfer target source =>
    rw [Operation.perform, behind_result]
    exact proper_transferTarget hw
  | kind s =>
    rwa [Looks.behind]
    exact (looks_locate _ _).bind fun _ => (looks_statementAt _).bind fun _ => looks_pure _
  | rootLabel s =>
    rw [Operation.perform, behind_result]
    exact proper_labelTarget hshaped hkept
  | describe target =>
    rw [Operation.perform, behind_result]
    exact proper_describeTarget hshaped hkept
  | agree a b =>
    rwa [Operation.perform, behind_result, (looks_agreeing a b).behind]
  | insertChild s index child =>
    exact behind_at hkept fun p t _ _ => proper_insertChild hkept
  | removeChild s index slot =>
    exact behind_at hkept fun p t _ _ => proper_removeChild hkept
  | blockLength s =>
    refine behind_at hkept fun p t _ _ => ?_
    rwa [Looks.behind]
    exact (looks_statementAt p).bind fun _ => looks_check _
  | assembleIf s c body =>
    exact behind_at hkept fun p t hp ht =>
      proper_assembleIf hkept ht fun hd => hd.2 (congrArg some hp)
  | assembleIfElse s c body alternative =>
    exact behind_at hkept fun p t hp ht =>
      proper_assembleIfElse hkept ht fun hd => hd.2 (congrArg some hp)
  | assembleWhile s c body =>
    exact behind_at hkept fun p t hp ht =>
      proper_assembleWhile hkept ht fun hd => hd.2 (congrArg some hp)
  | assembleCall s name =>
    exact behind_at hkept fun p t hp ht =>
      proper_assembleCall hkept ht fun hd => hd.2 (congrArg some hp)
  | disassembleIf s body =>
    exact behind_at hkept fun p t _ _ => proper_disassembleIf hshaped hkept
  | disassembleIfElse s body alternative =>
    exact behind_at hkept fun p t _ _ => proper_disassembleIfElse hshaped hkept
  | disassembleWhile s body =>
    exact behind_at hkept fun p t _ _ => proper_disassembleWhile hshaped hkept
  | disassembleCall s =>
    exact behind_at hkept fun p t _ _ => proper_disassembleCall hkept
  | setName p name =>
    rw [Operation.perform, behind_result]
    exact proper_nameTarget hkept
  | swapContext p context =>
    exact behind_inProgram hkept fun n q hq => proper_swapContext hkept hq
  | swapBody p s =>
    exact behind_inProgram hkept fun n q hq => (proper_swapBody hw hq).mono fun _ => And.left
  | putEntry context name s =>
    refine (looks_locate _ _).behind_bind hkept fun n hn => ?_
    obtain ⟨-, c, hc⟩ := contextSlot?_eq_some_iff.1 (locate_eq_ok hn)
    rw [behind_result]
    exact proper_putEntry hkept hc
  | parse production target input =>
    have hvalue (o : Outcome) : Looks (do return Answer.value (← o.value)) :=
      (looks_attempt _).bind fun _ => looks_pure _
    rw [Operation.perform, behind_bind_looks _ hvalue]
    refine proper_read hkept fun hr p hp hd => hd.2 ?_
    rw [Operation.remade?, if_pos hr, hp]
  | attempt production target input =>
    rw [Operation.perform, behind_result]
    refine proper_tryRead hkept fun hr p hp hd => hd.2 ?_
    rw [Operation.remade?, if_pos hr, hp]
  | peeking what input =>
    rw [Operation.perform, behind_result]
    exact proper_peeking hkept
  | front queue => rwa [Operation.perform, behind_result, (looks_queueIn queue).behind]
  | dequeue queue =>
    exact (looks_queueIn queue).behind_bind hkept fun q _ => hkept.setContent trivial
  | queueSize queue => rwa [Operation.perform, behind_result, (looks_queueIn queue).behind]
  | queueTokens queue => rwa [Operation.perform, behind_result, (looks_queueIn queue).behind]
  | tokenDescriptions queue => rwa [Operation.perform, behind_result, (looks_queueIn queue).behind]
  | pretty s offset => exact behind_at hkept fun p t _ _ => proper_prettyStatement hshaped hkept
  | prettyProgram p => exact behind_inProgram hkept fun n q _ => proper_prettyProgram hshaped hkept
  | emit printer offset text =>
    exact (looks_printerIn printer).behind_bind hkept fun pr _ => hkept.setContent trivial
  | printStatement printer s offset =>
    exact behind_at hkept fun p t _ _ => proper_printStatement hshaped hkept
  | printProgram printer p =>
    exact behind_inProgram hkept fun n q _ => proper_printProgram hshaped hkept
  | printedText printer => rwa [Operation.perform, behind_result, (looks_printerIn printer).behind]

end Action

/-! ### Runs -/

namespace Workspace

variable {b : Prop} {w : Workspace} {op : Operation} {n : String} {p : Program}

theorem step_eq_behind (op : Operation) (w : Workspace) :
    (w.step op).2 = Action.behind op.perform w := by
  unfold step Action.behind
  cases op.perform w with
  | ok a u => rfl
  | error e u => rfl

/-- The statement at a place that belongs to a program. -/
def part? (w : Workspace) : Place → Option Statement
  | .slot _ => none
  | .body n =>
    match w.content? n with
    | some (.program p) => some p.body
    | _ => none
  | .entry n m =>
    match w.content? n with
    | some (.program p) => p.context.find? m
    | _ => none

end Workspace

/-- The operation makes a part of a program into a statement that is no block. -/
def Operation.Reshapes (op : Operation) (w : Workspace) : Prop :=
  ∃ p s, op.remade? = some (.place p) ∧ (w.step op).2.part? p = some s ∧ s.kind ≠ .block

namespace Workspace

variable {b : Prop} {w : Workspace} {op : Operation} {n : String} {p : Program}

/-- **One step** of a run: blocks may be demanded as before, if the step does not reshape a part. -/
theorem Proper.step (hw : w.Proper fun _ => b) (hshaped : w.Shaped) (op : Operation) :
    (w.step op).2.Proper fun _ => b ∧ ¬ op.Reshapes w := by
  have hstep := Action.proper_perform op hshaped hw
  rw [← step_eq_behind] at hstep
  intro n c hc
  cases c with
  | program p =>
    have hp : p.Proper _ n := hstep n _ hc
    refine ⟨hp.name, fun e he => ⟨(hp.entries e he).1, fun hd => ?_⟩, fun hd => ?_⟩
    · by_cases hr : op.remade? = some (.place (.entry n e.1))
      · by_contra hk
        have hpart : (w.step op).2.part? (.entry n e.1) = some e.2 := by
          simp only [part?, hc]
          exact p.context.find?_eq_some_iff.2 he
        exact hd.2 ⟨_, _, hr, hpart, hk⟩
      · exact (hp.entries e he).2 ⟨hd.1, hr⟩
    · by_cases hr : op.remade? = some (.place (.body n))
      · by_contra hk
        have hpart : (w.step op).2.part? (.body n) = some p.body := by
          simp only [part?, hc]
        exact hd.2 ⟨_, _, hr, hpart, hk⟩
      · exact hp.body ⟨hd.1, hr⟩
  | _ => trivial

/-- **Runs.** Blocks may be demanded as long as no step has reshaped a part. -/
theorem Proper.run (hw : w.Proper fun _ => b) (hshaped : w.Shaped) (ops : List Operation) :
    (w.run ops).Proper fun _ =>
      b ∧ ∀ before op after, ops = before ++ op :: after → ¬ op.Reshapes (w.run before) := by
  induction ops generalizing w b with
  | nil => exact hw.mono fun _ => And.left
  | cons op ops ih =>
    refine (ih (hw.step hshaped op) (hshaped.step op)).mono fun _ hd => ⟨⟨hd.1, ?_⟩, ?_⟩
    · exact hd.2 [] op ops rfl
    · intro before op' after hops
      exact hd.2 (op :: before) op' after (by rw [hops, List.cons_append])

/-- **Programs.** After any operations on a new workspace, whether they succeed or fail, the name of
    every program and all names in its context are identifiers.  Its definitions and its body are
    blocks, and all of it is well formed, unless one of the operations has made a part of a program
    into a statement that is no block. -/
theorem program_of_run (ops : List Operation)
    (h : (Workspace.empty.run ops).content? n = some (.program p)) :
    Word.isIdentifier p.name = true ∧ (∀ m ∈ p.context.names, Word.isIdentifier m = true) ∧
      ((∀ before op after, ops = before ++ op :: after →
        ¬ op.Reshapes (Workspace.empty.run before)) → p.WellFormed) := by
  have hproper : p.Proper _ n := (proper_empty (D := fun _ => True)).run shaped_empty ops n _ h
  have hshaped : p.Shaped := shaped_empty.run ops n _ h
  refine ⟨hproper.name, fun m hm => ?_, fun hops => ⟨hproper.name, fun e he => ?_, ?_⟩⟩
  · obtain ⟨e, he, rfl⟩ := List.mem_map.1 hm
    exact (hproper.entries e he).1
  · obtain ⟨hname, hkind⟩ := hproper.entries e he
    exact ⟨hname, hkind ⟨trivial, hops⟩, hshaped.entries e he⟩
  · exact ⟨hproper.body ⟨trivial, hops⟩, hshaped.body⟩

/-- A program gets a name, and is to get a call as its body, which it refuses. -/
theorem program_of_run_sample :
    ∃ p, (Workspace.empty.run [.newProgram "p", .setName (.place (.slot "p")) (some "Patrol"),
        .newStatement "s", .assembleCall (.place (.slot "s")) (some "move"),
        .swapBody (.place (.slot "p")) (.place (.slot "s"))]).content? "p" = some (.program p) ∧
      p.name = "Patrol" ∧ p.WellFormed := by
  have hstate : (Workspace.empty.run [.newProgram "p",
      .setName (.place (.slot "p")) (some "Patrol"), .newStatement "s",
      .assembleCall (.place (.slot "s")) (some "move"),
      .swapBody (.place (.slot "p")) (.place (.slot "s"))]).content? "p" =
      some (.program { Program.empty with name := "Patrol" }) := rfl
  refine ⟨_, hstate, rfl, (program_of_run _ hstate).2.2 ?_⟩
  rintro before op after hops ⟨q, s, hremade, hpart, -⟩
  have hop : op ∈ before ++ op :: after := List.mem_append_right _ List.mem_cons_self
  rw [← hops] at hop
  -- Only the call is made of a statement, and this statement belongs to no program.
  simp only [List.mem_cons, List.not_mem_nil, or_false] at hop
  rcases hop with rfl | rfl | rfl | rfl | rfl
  · cases hremade
  · cases hremade
  · cases hremade
  · cases hremade
    cases hpart
  · cases hremade

/-- **A part that is no block.** The body of a new program is made a call. -/
theorem reshaped_body_is_no_block :
    ∃ p, (Workspace.empty.run [.newProgram "p",
        .assembleCall (.place (.body "p")) (some "move")]).content? "p" = some (.program p) ∧
      p.body.kind ≠ .block :=
  ⟨_, rfl, by decide⟩

end Workspace

end BL
