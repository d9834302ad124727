import BL.Proofs.Reading.Target
import BL.Workspace.Programs

namespace BL

/-!
# Actions that keep a workspace well formed

All statements in a workspace are well formed, and every action that moves them about leaves it so,
whether it succeeds or fails on its way:

* `Content.Shaped`, `Workspace.Shaped` — the statements in a slot, and those in all slots;
* `Workspace.Shaped.setContent`, `Workspace.Shaped.setStatement` — writing well-formed statements;
* `Action.keeps_statementAt`, `Action.keeps_setStatement`, … — looking things up and writing them;
* `Action.keeps_take`, `Action.keeps_insertChild`, … — the operations on statements;
* `Action.keeps_swapContext`, `Action.keeps_swapBody`, … — the operations on programs.
-/

/-! ### Well-formed workspaces -/

/-- All statements of the content are well formed. -/
def Content.Shaped : Content → Prop
  | statement s => s.WellFormed
  | program p => p.Shaped
  | context c => ∀ e ∈ c.entries, e.2.WellFormed
  | queue _ | printer _ => True

/-- A value that is put into a table joins those that are there. -/
theorem Table.forall_entries_insert {α : Type} {Q : α → Prop} {t : Table α} {n : String} {v : α}
    (ht : ∀ e ∈ t.entries, Q e.2) (hv : Q v) : ∀ e ∈ (t.insert n v).entries, Q e.2 := by
  rintro ⟨m, w⟩ he
  rw [← Table.find?_eq_some_iff, Table.find?_insert] at he
  split at he
  · exact Option.some.inj he ▸ hv
  · exact ht (m, w) (t.find?_eq_some_iff.1 he)

/-- A value that is found in a table is one of its entries. -/
theorem Table.of_find?_eq_some {α : Type} {Q : α → Prop} {t : Table α} {n : String} {v : α}
    (ht : ∀ e ∈ t.entries, Q e.2) (h : t.find? n = some v) : Q v :=
  ht (n, v) (t.find?_eq_some_iff.1 h)

namespace Workspace

variable {w : Workspace} {n : String} {c : Content} {s : Statement} {p : Place}

/-- All statements in all slots are well formed. -/
def Shaped (w : Workspace) : Prop := ∀ n c, w.content? n = some c → c.Shaped

theorem shaped_empty : Workspace.empty.Shaped := by
  intro n c h
  cases h

theorem Shaped.setContent (hw : w.Shaped) (hc : c.Shaped) : (w.setContent n c).Shaped := by
  intro m d hd
  rw [content?_setContent] at hd
  split at hd
  · exact Option.some.inj hd ▸ hc
  · exact hw m d hd

/-- The statement at a place is well formed. -/
theorem Shaped.statement? (hw : w.Shaped) (h : w.statement? p = some s) : s.WellFormed := by
  cases p with
  | slot n =>
    simp only [Workspace.statement?] at h
    split at h
    · rename_i t ht
      exact Option.some.inj h ▸ hw n _ ht
    · cases h
  | body n =>
    simp only [Workspace.statement?] at h
    split at h
    · rename_i q hq
      exact Option.some.inj h ▸ (hw n _ hq).body
    · cases h
  | entry n m =>
    simp only [Workspace.statement?] at h
    split at h
    · rename_i q hq
      exact Table.of_find?_eq_some (hw n _ hq).entries h
    · rename_i d hd
      exact Table.of_find?_eq_some (hw n _ hd) h
    · cases h

/-- A well-formed statement may be written anywhere. -/
theorem Shaped.setStatement (hw : w.Shaped) (hs : s.WellFormed) : (w.setStatement s p).Shaped := by
  cases p with
  | slot n => exact hw.setContent hs
  | body n =>
    simp only [Workspace.setStatement]
    split
    · rename_i q hq
      exact hw.setContent ⟨(hw n _ hq).entries, hs⟩
    · exact hw
  | entry n m =>
    simp only [Workspace.setStatement]
    split
    · rename_i q hq
      exact hw.setContent ⟨Table.forall_entries_insert (hw n _ hq).entries hs, (hw n _ hq).body⟩
    · rename_i d hd
      exact hw.setContent (Table.forall_entries_insert (hw n _ hd) hs)
    · exact hw

end Workspace

namespace Action

variable {α : Type} {Q : α → Prop} {P : Workspace → Prop}

/-! ### Steps of actions -/

theorem keeps_attempt {x : Except Fault α} (h : ∀ a, x = .ok a → Q a) :
    Keeps P (attempt x) Q := by
  cases x with
  | ok a => exact keeps_pure (h a rfl)
  | error f => exact keeps_throw

/-- An attempt of which the result is known. -/
theorem keeps_attempt_of_eq {x : Except Fault α} {a : α} (h : x = .ok a) (ha : Q a) :
    Keeps P (attempt x) Q :=
  keeps_attempt fun _ hb => Except.ok.inj (h.symm.trans hb) ▸ ha

theorem keeps_check {x : Except Violation α} (h : ∀ a, x = .ok a → Q a) : Keeps P (check x) Q := by
  cases x with
  | ok a => exact keeps_pure (h a rfl)
  | error v => exact keeps_throw

theorem keeps_violate {v : Violation} : Keeps P (violate v : Action α) Q := keeps_throw

theorem keeps_refuse {p : Prop} [Decidable p] {v : Violation} :
    Keeps P (refuse p v) fun _ => True :=
  .ite keeps_violate (keeps_pure trivial)

theorem keeps_require {o : Option α} (h : ∀ a, o = some a → Q a) : Keeps P (require o) Q := by
  cases o with
  | some a => exact keeps_pure (h a rfl)
  | none => exact keeps_throw

/-! ### Looking things up and writing them -/

open Workspace

theorem keeps_locate {find : Workspace → Reference → Option α} {r : Reference} :
    Keeps Shaped (locate find r) fun _ => True :=
  keeps_get.bind fun _ _ => keeps_require fun _ _ => trivial

theorem keeps_statementAt {p : Place} : Keeps Shaped (statementAt p) Statement.WellFormed :=
  keeps_get.bind fun _ hw => keeps_require fun _ hs => hw.statement? hs

theorem keeps_statementOf {r : Reference} :
    Keeps Shaped (Action.statementOf r) Statement.WellFormed :=
  keeps_locate.bind fun _ _ => keeps_statementAt

theorem keeps_setStatement {p : Place} {s : Statement} (hs : s.WellFormed) :
    Keeps Shaped (setStatement p s) fun _ => True :=
  keeps_modify fun _ hw => hw.setStatement hs

theorem keeps_setSlot {n : String} {c : Content} (hc : c.Shaped) :
    Keeps Shaped (setSlot n c) fun _ => True :=
  keeps_modify fun _ hw => hw.setContent hc

theorem keeps_programIn {n : String} : Keeps Shaped (programIn n) Program.Shaped := by
  refine keeps_get.bind fun w hw => ?_
  split
  · rename_i p hp
    exact keeps_pure (hw n _ hp)
  · exact keeps_throw

theorem keeps_contextIn {n : String} :
    Keeps Shaped (contextIn n) fun c => ∀ e ∈ c.entries, e.2.WellFormed := by
  refine keeps_get.bind fun w hw => ?_
  split
  · rename_i c hc
    exact keeps_pure (hw n _ hc)
  · exact keeps_throw

theorem keeps_queueIn {n : String} : Keeps Shaped (queueIn n) fun _ => True := by
  refine keeps_get.bind fun w _ => ?_
  split
  · exact keeps_pure trivial
  · exact keeps_throw

theorem keeps_printerIn {n : String} : Keeps Shaped (printerIn n) fun _ => True := by
  refine keeps_get.bind fun w _ => ?_
  split
  · exact keeps_pure trivial
  · exact keeps_throw

/-! ### Moving statements -/

/-- What is moved away is well formed, and so is the empty block that is left. -/
theorem keeps_take {target : Place} {source : Reference} :
    Keeps Shaped (take target source) Statement.WellFormed := by
  refine keeps_get.bind fun w _ => ?_
  split
  · exact keeps_violate
  · refine keeps_refuse.bind fun _ _ => keeps_statementAt.bind fun s hs => ?_
    exact (keeps_setStatement Statement.wellFormed_empty).bind fun _ _ => keeps_pure hs

/-- What is handed over goes to the recipient, if there is one; else the target is left hollow. -/
theorem keeps_hand {target : Place} {recipient : Reference} {s hollow : Statement}
    (hhollow : hollow.WellFormed) (hs : s.WellFormed) :
    Keeps Shaped (hand target hollow recipient s) fun _ => True := by
  refine keeps_get.bind fun w _ => ?_
  split
  · exact keeps_setStatement hs
  · refine keeps_get.bind fun w _ => ?_
    split
    · exact (keeps_setStatement hhollow).bind fun _ _ => keeps_throw
    · exact (keeps_setStatement hhollow).bind fun _ _ => keeps_throw
    · exact keeps_pure trivial

theorem keeps_insertChild {target : Place} {index : Int} {child : Reference} :
    Keeps Shaped (insertChild target index child) fun _ => True := by
  refine keeps_statementAt.bind fun s hs => ?_
  refine (keeps_check fun _ _ => trivial).bind fun _ _ => ?_
  refine keeps_statementOf.bind fun t ht => ?_
  refine (keeps_check fun u hu => Statement.insertChild_wellFormed hs ht hu).bind fun u hu => ?_
  -- The child is moved only behind all checks, and what is written was computed before.
  exact keeps_take.bind fun _ _ => keeps_setStatement hu

theorem keeps_removeChild {target : Place} {index : Int} {slot : String} :
    Keeps Shaped (removeChild target index slot) fun _ => True := by
  refine keeps_statementAt.bind fun s hs => ?_
  have hremove : Keeps Shaped (check (s.removeChild index))
      fun b => b.1.WellFormed ∧ b.2.WellFormed :=
    keeps_check fun b hb => (Statement.removeChild_wellFormed hs hb).2
  refine hremove.bind fun b hb => ?_
  exact (keeps_setStatement hb.2).bind fun _ _ => keeps_setSlot hb.1

theorem keeps_blockLength {target : Place} : Keeps Shaped (blockLength target) fun _ => True :=
  keeps_statementAt.bind fun _ _ => keeps_check fun _ _ => trivial

theorem keeps_assembleIf {target : Place} {c : Option Condition} {body : Reference} :
    Keeps Shaped (assembleIf target c body) fun _ => True := by
  refine keeps_statementOf.bind fun s hs => ?_
  refine (keeps_check fun u hu => Statement.assembleIf_wellFormed hs hu).bind fun u hu => ?_
  exact keeps_take.bind fun _ _ => keeps_setStatement hu

/-- Also if the second branch cannot be moved, when the first one is moved already. -/
theorem keeps_assembleIfElse {target : Place} {c : Option Condition}
    {body alternative : Reference} :
    Keeps Shaped (assembleIfElse target c body alternative) fun _ => True := by
  refine keeps_refuse.bind fun _ _ => keeps_statementOf.bind fun s hs => ?_
  refine (keeps_check fun _ _ => trivial).bind fun _ _ => keeps_statementOf.bind fun t ht => ?_
  refine (keeps_check fun u hu => Statement.assembleIfElse_wellFormed hs ht hu).bind fun u hu => ?_
  exact keeps_take.bind fun _ _ => keeps_take.bind fun _ _ => keeps_setStatement hu

theorem keeps_assembleWhile {target : Place} {c : Option Condition} {body : Reference} :
    Keeps Shaped (assembleWhile target c body) fun _ => True := by
  refine keeps_statementOf.bind fun s hs => ?_
  refine (keeps_check fun u hu => Statement.assembleWhile_wellFormed hs hu).bind fun u hu => ?_
  exact keeps_take.bind fun _ _ => keeps_setStatement hu

theorem keeps_assembleCall {target : Place} {name : Option String} :
    Keeps Shaped (assembleCall target name) fun _ => True :=
  (keeps_check fun _ hu => Statement.assembleCall_wellFormed hu).bind fun _ hu =>
    keeps_setStatement hu

theorem keeps_clear {target : Place} : Keeps Shaped (clear target) fun _ => True :=
  keeps_setStatement Statement.wellFormed_empty

theorem keeps_transfer {target : Place} {source : Reference} :
    Keeps Shaped (transfer target source) fun _ => True :=
  keeps_take.bind fun _ hs => keeps_setStatement hs

/-! ### Taking statements apart -/

theorem keeps_disassembleIf {target : Place} {body : Reference} :
    Keeps Shaped (disassembleIf target body) fun _ => True := by
  refine keeps_statementAt.bind fun s hs => ?_
  have hpart : Keeps Shaped (check s.disassembleIf) fun b => b.2.WellFormed :=
    keeps_check fun b hb => Statement.disassembleIf_wellFormed hs hb
  refine hpart.bind fun b hb => keeps_refuse.bind fun _ _ => ?_
  refine (keeps_hand (by simp) hb).bind fun _ _ => ?_
  exact (keeps_setStatement Statement.wellFormed_empty).result _

theorem keeps_disassembleIfElse {target : Place} {body alternative : Reference} :
    Keeps Shaped (disassembleIfElse target body alternative) fun _ => True := by
  refine keeps_statementAt.bind fun s hs => ?_
  have hparts : Keeps Shaped (check s.disassembleIfElse)
      fun b => (b.2.1.kind = .block ∧ b.2.1.WellFormed) ∧
        b.2.2.kind = .block ∧ b.2.2.WellFormed :=
    keeps_check fun b hb => Statement.disassembleIfElse_wellFormed hs hb
  refine hparts.bind fun b hb => keeps_refuse.bind fun _ _ => keeps_refuse.bind fun _ _ => ?_
  refine (keeps_hand (by simp [hb.2]) hb.1.2).bind fun _ _ => ?_
  refine (keeps_hand (by simp) hb.2.2).bind fun _ _ => ?_
  exact (keeps_setStatement Statement.wellFormed_empty).result _

theorem keeps_disassembleWhile {target : Place} {body : Reference} :
    Keeps Shaped (disassembleWhile target body) fun _ => True := by
  refine keeps_statementAt.bind fun s hs => ?_
  have hpart : Keeps Shaped (check s.disassembleWhile) fun b => b.2.WellFormed :=
    keeps_check fun b hb => Statement.disassembleWhile_wellFormed hs hb
  refine hpart.bind fun b hb => keeps_refuse.bind fun _ _ => ?_
  refine (keeps_hand (by simp) hb).bind fun _ _ => ?_
  exact (keeps_setStatement Statement.wellFormed_empty).result _

theorem keeps_disassembleCall {target : Place} :
    Keeps Shaped (disassembleCall target) fun _ => True := by
  refine keeps_statementAt.bind fun s _ => (keeps_check fun _ _ => trivial).bind fun _ _ => ?_
  exact (keeps_setStatement Statement.wellFormed_empty).result _

/-! ### Programs and contexts -/

theorem keeps_setProgram {slot : String} {p : Program} (hp : p.Shaped) :
    Keeps Shaped (setProgram slot p) fun _ => True :=
  keeps_setSlot hp

theorem keeps_setName {slot : String} {name : Option String} :
    Keeps Shaped (setName slot name) fun _ => True := by
  refine keeps_programIn.bind fun p hp => ?_
  exact (keeps_check fun q hq => hp.setName hq).bind fun q hq => keeps_setProgram hq

theorem keeps_clearProgram {slot : String} : Keeps Shaped (clearProgram slot) fun _ => True :=
  keeps_setProgram Program.shaped_empty

theorem keeps_transferProgram {target : String} {source : Reference} :
    Keeps Shaped (transferProgram target source) fun _ => True := by
  refine keeps_get.bind fun w _ => ?_
  split
  · exact keeps_violate
  · refine keeps_refuse.bind fun _ _ => keeps_programIn.bind fun p hp => ?_
    exact keeps_clearProgram.bind fun _ _ => keeps_setProgram hp

theorem keeps_swapContext {program : String} {context : Reference} :
    Keeps Shaped (swapContext program context) fun _ => True := by
  refine keeps_get.bind fun w _ => ?_
  split
  · exact keeps_violate
  · refine keeps_programIn.bind fun p hp => keeps_contextIn.bind fun c hc => ?_
    have hswap : Keeps Shaped (check (p.swapContext c))
        fun b => b.1.Shaped ∧ ∀ e ∈ b.2.entries, e.2.WellFormed :=
      keeps_check fun b hb => hp.swapContext hc hb
    exact hswap.bind fun b hb => (keeps_setProgram hb.1).bind fun _ _ => keeps_setSlot hb.2

/-- Also if the statement turns out to be the body itself, when the body is moved away already. -/
theorem keeps_swapBody {program : String} {source : Reference} :
    Keeps Shaped (swapBody program source) fun _ => True := by
  refine keeps_get.bind fun w _ => ?_
  split
  · exact keeps_violate
  · refine keeps_programIn.bind fun p hp => keeps_statementAt.bind fun s hs => ?_
    have hswap : Keeps Shaped (check (p.swapBody s)) fun b => b.2.WellFormed :=
      keeps_check fun b hb => (hp.swapBody hs hb).2
    refine hswap.bind fun b hb => keeps_clear.bind fun _ _ => ?_
    exact keeps_transfer.bind fun _ _ => keeps_setStatement hb

theorem keeps_clearContext {slot : String} : Keeps Shaped (clearContext slot) fun _ => True :=
  keeps_setSlot (List.forall_mem_nil _)

theorem keeps_putEntry {context name : String} {source : Reference} :
    Keeps Shaped (putEntry context name source) fun _ => True := by
  refine keeps_contextIn.bind fun _ _ => keeps_get.bind fun w _ => ?_
  split
  · exact keeps_violate
  · refine keeps_statementAt.bind fun s hs => ?_
    exact (keeps_setStatement Statement.wellFormed_empty).bind fun _ _ => keeps_setStatement hs

end Action

end BL
