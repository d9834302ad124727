import BL.Proofs.Workspace.Effects
import BL.Workspace.Operation

namespace BL

/-!
# Violated conditions of use leave no trace

The operations that move statements check their conditions of use.  With one exception they do so
before anything is written, so that a violation leaves all statements as they were.  The exception
is a conditional with two branches: that the second branch is another statement than the one that
becomes the conditional is found out only when the first branch has been moved away, and then the
first branch is lost.

* `Action.take_eq` — moving a statement away from its place;
* `Action.atomic_insertChild`, `Action.atomic_transfer`, … — the operations that are atomic;
* `Action.violates_assembleIfElse`, `Action.assembleIfElse_self` — the one that is not, and what it
  does then;
* `Operation.IsMove`, `Operation.LosesBranch` — the operations in question, and the exception;
* `Workspace.violation_leaves_no_trace` — all of them, with whatever arguments;
* `Workspace.assembleIfElse_loses_branch` — a run in which a statement is lost.
-/

namespace Action

variable {w w' : Workspace} {target place : Place} {source : Reference} {s : Statement}
  {v : Violation}

/-! ### Moving a statement away -/

/-- A statement is moved away from its place, unless this is the place that it is for. -/
theorem take_eq (hp : w.statementPlace? source = some place) (hs : w.statement? place = some s) :
    take target source w =
      if place = target then .error (.fault (.violated .sameStatement)) w
      else .ok s (w.setStatement .empty place) := by
  unfold take
  rw [get_bind, hp]
  dsimp only
  split
  · rename_i h
    rw [bind_error (refuse_of h _ _)]
  · rename_i h
    rw [bind_ok (refuse_of_not h _ _), bind_ok (statementAt_eq hs)]
    rfl

/-- The statement that a reference leads to is at its place. -/
theorem statementOf_eq_ok {r : Reference} (h : Action.statementOf r w = .ok s w') :
    ∃ p, w.statementPlace? r = some p ∧ w.statement? p = some s := by
  cases hp : w.statementPlace? r with
  | none =>
    have hnone : Action.statementOf r w = .error .nothingThere w := by
      unfold Action.statementOf statementPlace locate
      rw [bind_error]
      rw [get_bind, hp]
      rfl
    rw [hnone] at h
    cases h
  | some p =>
    obtain ⟨-, t, ht⟩ := Workspace.statementPlace?_eq_some_iff.1 hp
    rw [statementOf_eq hp ht] at h
    cases h
    exact ⟨p, rfl, ht⟩

theorem eq_ok_of_check {α : Type} {x : Except Violation α} {a : α} (h : check x w = .ok a w') :
    x = .ok a := by
  cases x with
  | ok b =>
    cases h
    rfl
  | error u => cases h

/-! ### Operations that check first -/

theorem atomic_take (target : Place) (source : Reference) : Atomic (take target source) := by
  refine looks_get.bind_atomic fun w => ?_
  split
  · exact (looks_violate _).atomic
  · refine (looks_refuse _ _).bind_atomic fun _ => (looks_statementAt _).bind_atomic fun s => ?_
    exact ((quiet_setStatement _ _).bind fun _ => quiet_pure _).atomic

/-- Handing a statement out can fail, but no condition of use is in the way. -/
theorem quiet_hand (target : Place) (hollow : Statement) (recipient : Reference) (s : Statement) :
    Quiet (hand target hollow recipient s) := by
  refine quiet_get.bind fun w => ?_
  split
  · exact quiet_setStatement _ _
  · refine quiet_get.bind fun w => ?_
    split
    · exact (quiet_setStatement _ _).bind fun _ => quiet_nothingThere
    · exact (quiet_setStatement _ _).bind fun _ => quiet_nothingThere
    · exact quiet_pure _

theorem atomic_transfer (target : Place) (source : Reference) : Atomic (transfer target source) :=
  (atomic_take target source).bind_quiet fun _ => quiet_setStatement _ _

theorem atomic_insertChild (target : Place) (index : Int) (child : Reference) :
    Atomic (insertChild target index child) := by
  refine (looks_statementAt _).bind_atomic fun s => (looks_check _).bind_atomic fun _ => ?_
  refine (looks_statementOf _).bind_atomic fun t => (looks_check _).bind_atomic fun u => ?_
  exact (atomic_take target child).bind_quiet fun _ => quiet_setStatement _ _

theorem atomic_removeChild (target : Place) (index : Int) (slot : String) :
    Atomic (removeChild target index slot) := by
  refine (looks_statementAt _).bind_atomic fun s => (looks_check _).bind_atomic fun b => ?_
  exact ((quiet_setStatement _ _).bind fun _ => quiet_setSlot _ _).atomic

/-- A construct with one block: everything is checked, then the block is moved. -/
theorem atomic_assemble {body : Reference} {build : Statement → Except Violation Statement}
    (target : Place) :
    Atomic (do let s ← check (build (← Action.statementOf body))
               let _ ← take target body
               setStatement target s) := by
  refine (looks_statementOf _).bind_atomic fun t => (looks_check _).bind_atomic fun u => ?_
  exact (atomic_take target body).bind_quiet fun _ => quiet_setStatement _ _

theorem atomic_assembleIf (target : Place) (c : Option Condition) (body : Reference) :
    Atomic (assembleIf target c body) :=
  atomic_assemble target

theorem atomic_assembleWhile (target : Place) (c : Option Condition) (body : Reference) :
    Atomic (assembleWhile target c body) :=
  atomic_assemble target

theorem atomic_assembleCall (target : Place) (name : Option String) :
    Atomic (assembleCall target name) :=
  (looks_check _).bind_atomic fun _ => (quiet_setStatement _ _).atomic

/-- A part is handed out, and the target becomes an empty block. -/
theorem quiet_handOut {body : Reference} {s hollow : Statement} {c : Condition} (target : Place) :
    Quiet (do hand target hollow body s
              setStatement target .empty
              return c : Action Condition) :=
  (quiet_hand _ _ _ _).bind fun _ => (quiet_setStatement _ _).bind fun _ => quiet_pure _

theorem atomic_disassembleIf (target : Place) (body : Reference) :
    Atomic (disassembleIf target body) := by
  refine (looks_statementAt _).bind_atomic fun s => (looks_check _).bind_atomic fun b => ?_
  exact (looks_refuse _ _).bind_atomic fun _ => (quiet_handOut target).atomic

theorem atomic_disassembleIfElse (target : Place) (body alternative : Reference) :
    Atomic (disassembleIfElse target body alternative) := by
  refine (looks_statementAt _).bind_atomic fun s => (looks_check _).bind_atomic fun b => ?_
  refine (looks_refuse _ _).bind_atomic fun _ => (looks_refuse _ _).bind_atomic fun _ => ?_
  exact ((quiet_hand _ _ _ _).bind fun _ => quiet_handOut target).atomic

theorem atomic_disassembleWhile (target : Place) (body : Reference) :
    Atomic (disassembleWhile target body) := by
  refine (looks_statementAt _).bind_atomic fun s => (looks_check _).bind_atomic fun b => ?_
  exact (looks_refuse _ _).bind_atomic fun _ => (quiet_handOut target).atomic

theorem atomic_disassembleCall (target : Place) : Atomic (disassembleCall target) := by
  refine (looks_statementAt _).bind_atomic fun s => (looks_check _).bind_atomic fun name => ?_
  exact ((quiet_setStatement _ _).bind fun _ => quiet_pure _).atomic

theorem atomic_transferProgram (target : String) (source : Reference) :
    Atomic (transferProgram target source) := by
  refine looks_get.bind_atomic fun w => ?_
  split
  · exact (looks_violate _).atomic
  · refine (looks_refuse _ _).bind_atomic fun _ => (looks_programIn _).bind_atomic fun p => ?_
    exact ((quiet_setSlot _ _).bind fun _ => quiet_setSlot _ _).atomic

theorem atomic_transferTarget (target source : Reference) :
    Atomic (transferTarget target source) := by
  refine looks_get.bind_atomic fun w => ?_
  split
  · exact atomic_transferProgram _ source
  · exact (looks_locate _ _).bind_atomic fun p => atomic_transfer p source

/-! ### The exception -/

/-- Behind its checks a conditional with two branches moves the first branch away, and then the
    second one.  If the second one is the target itself, then the first one is gone. -/
theorem violates_takeBoth {body alternative : Reference} {second : Place} {u : Statement}
    (hbody : w.statementPlace? body = some place) (hs : w.statement? place = some s)
    (hother : w.statementPlace? alternative = some second)
    (h : Violates (do let _ ← take target body
                      let _ ← take target alternative
                      setStatement target u) w v w') :
    w' = w ∨ (second = target ∧ place ≠ target) := by
  rw [Violates, bind_eq, take_eq hbody hs] at h
  by_cases hp : place = target
  · rw [if_pos hp] at h
    cases h
    exact .inl rfl
  rw [if_neg hp] at h
  dsimp only at h
  -- The second branch is still where it was, if only as the empty block that the first one left.
  have hother' : (w.setStatement .empty place).statementPlace? alternative = some second :=
    (Workspace.statementPlace?_setStatement hs alternative).trans hother
  obtain ⟨-, t', ht'⟩ := Workspace.statementPlace?_eq_some_iff.1 hother'
  rw [bind_eq, take_eq hother' ht'] at h
  by_cases hsecond : second = target
  · rw [if_pos hsecond] at h
    cases h
    exact .inr ⟨hsecond, hp⟩
  · rw [if_neg hsecond] at h
    cases h

/-- **Conditionals with two branches.** A violation leaves the workspace as it was, unless the
    target is given as its own second branch and all else is right: then the first branch is left an
    empty block. -/
theorem violates_assembleIfElse {c : Option Condition} {body alternative : Reference}
    (h : Violates (assembleIfElse target c body alternative) w v w') :
    w' = w ∨ ∃ d p ss ts, c = some d ∧ body = .place p ∧ alternative = .place target ∧ p ≠ target ∧
      w.statement? p = some (.block ss) ∧ w.statement? target = some (.block ts) := by
  rcases (looks_refuse _ _).violated_bind h with hw | ⟨_, -, h⟩
  · exact .inl hw
  rcases (looks_statementOf _).violated_bind h with hw | ⟨s, hs, h⟩
  · exact .inl hw
  rcases (looks_check _).violated_bind h with hw | ⟨_, -, h⟩
  · exact .inl hw
  rcases (looks_statementOf _).violated_bind h with hw | ⟨t, ht, h⟩
  · exact .inl hw
  rcases (looks_check _).violated_bind h with hw | ⟨u, hu, h⟩
  · exact .inl hw
  obtain ⟨p, hp, hs⟩ := statementOf_eq_ok hs
  obtain ⟨q, hq, ht⟩ := statementOf_eq_ok ht
  rcases violates_takeBoth hp hs hq h with hw | ⟨rfl, hne⟩
  · exact .inl hw
  obtain ⟨hkind, hkind', d, hc, -⟩ := Statement.assembleIfElse_eq_ok (eq_ok_of_check hu)
  obtain ⟨ss, rfl⟩ := Statement.kind_eq_block_iff.1 hkind
  obtain ⟨ts, rfl⟩ := Statement.kind_eq_block_iff.1 hkind'
  have hbody := (Workspace.statementPlace?_eq_some_iff.1 hp).1
  have hother := (Workspace.statementPlace?_eq_some_iff.1 hq).1
  exact .inr ⟨d, p, ss, ts, hc, hbody, hother, hne, hs, ht⟩

/-- There the first branch is moved away before the violation is found. -/
theorem assembleIfElse_self {c : Condition} {ss ts : List Statement} (hne : place ≠ target)
    (hs : w.statement? place = some (.block ss)) (ht : w.statement? target = some (.block ts)) :
    assembleIfElse target (some c) (.place place) (.place target) w =
      .error (.fault (.violated .sameStatement)) (w.setStatement .empty place) := by
  have hp : w.statementPlace? (.place place) = some place :=
    Workspace.statementPlace?_eq_some_iff.2 ⟨rfl, _, hs⟩
  have hq : w.statementPlace? (.place target) = some target :=
    Workspace.statementPlace?_eq_some_iff.2 ⟨rfl, _, ht⟩
  have hrefuse : refuse ((Reference.place place).sameAs (.place target)) .sameBranches w
      = .ok () w := by
    refine refuse_of_not ?_ _ _
    simpa [Reference.sameAs] using hne
  have hq' : (w.setStatement .empty place).statementPlace? (.place target) = some target :=
    (Workspace.statementPlace?_setStatement hs _).trans hq
  have ht' : (w.setStatement .empty place).statement? target = some (.block ts) :=
    (Workspace.statement?_setStatement_of_ne hs hne.symm).trans ht
  have hblock : check ((Statement.block ss).requireBlock .firstBranchNotBlock) w = .ok () w := rfl
  unfold assembleIfElse
  rw [bind_ok hrefuse, bind_ok (statementOf_eq hp hs), bind_ok hblock,
    bind_ok (statementOf_eq hq ht), Statement.assembleIfElse_some rfl rfl, bind_ok (check_ok _ _)]
  have htake : take target (.place place) w = .ok (.block ss) (w.setStatement .empty place) :=
    (take_eq hp hs).trans (if_neg hne)
  rw [bind_ok htake, bind_error ((take_eq hq' ht').trans (if_pos rfl))]

end Action

/-! ### Operations -/

namespace Operation

/-- The operations that build statements, take them apart and move them. -/
def IsMove : Operation → Prop
  | insertChild .. | removeChild .. | assembleIf .. | assembleIfElse .. | assembleWhile ..
  | assembleCall .. | disassembleIf .. | disassembleIfElse .. | disassembleWhile ..
  | disassembleCall .. | transfer .. => True
  | _ => False

/-- A block is to become a conditional with itself as the second branch; what is lost is the block
    at the place of the first one. -/
def LosesBranch (w : Workspace) (op : Operation) (p : Place) : Prop :=
  ∃ target c ss ts, op = .assembleIfElse (.place target) (some c) (.place p) (.place target) ∧
    p ≠ target ∧ w.statement? p = some (.block ss) ∧ w.statement? target = some (.block ts)

end Operation

namespace Workspace

open BL.Action

variable {w w' : Workspace} {op : Operation} {p : Place} {v : Violation}

/-- A step that succeeds, as an action. -/
theorem step_eq_ok_iff {a : Answer} : w.step op = (.ok a, w') ↔ op.perform w = .ok a w' := by
  unfold step
  cases op.perform w with
  | ok b u => simp
  | error e u => simp

/-- A step that finds a condition of use violated, as an action. -/
theorem step_eq_violated_iff :
    w.step op = (.error (.fault (.violated v)), w') ↔ Violates op.perform w v w' := by
  unfold step Violates
  cases op.perform w with
  | ok a u => simp
  | error e u => simp

/-- Operations that move statements are atomic, but for conditionals with two branches. -/
theorem atomic_perform (hop : op.IsMove)
    (hne : ∀ s c body alternative, op ≠ .assembleIfElse s c body alternative) :
    Atomic op.perform := by
  cases op with
  | transfer target source => exact (atomic_transferTarget target source).result _
  | insertChild s index child =>
    exact (looks_locate _ _).bind_atomic fun p => (atomic_insertChild p index child).result _
  | removeChild s index slot =>
    exact (looks_locate _ _).bind_atomic fun p => (atomic_removeChild p index slot).result _
  | assembleIf s c body =>
    exact (looks_locate _ _).bind_atomic fun p => (atomic_assembleIf p c body).result _
  | assembleIfElse s c body alternative => exact absurd rfl (hne s c body alternative)
  | assembleWhile s c body =>
    exact (looks_locate _ _).bind_atomic fun p => (atomic_assembleWhile p c body).result _
  | assembleCall s name =>
    exact (looks_locate _ _).bind_atomic fun p => (atomic_assembleCall p name).result _
  | disassembleIf s body =>
    exact (looks_locate _ _).bind_atomic fun p => (atomic_disassembleIf p body).result _
  | disassembleIfElse s body alternative =>
    exact (looks_locate _ _).bind_atomic fun p =>
      (atomic_disassembleIfElse p body alternative).result _
  | disassembleWhile s body =>
    exact (looks_locate _ _).bind_atomic fun p => (atomic_disassembleWhile p body).result _
  | disassembleCall s =>
    exact (looks_locate _ _).bind_atomic fun p => (atomic_disassembleCall p).result _
  | _ => exact hop.elim

/-- Conditionals with two branches are atomic as well, unless they lose a branch. -/
theorem assembleIfElse_leaves_no_trace {s body alternative : Reference} {c : Option Condition}
    (h : Violates (Operation.assembleIfElse s c body alternative).perform w v w') :
    w' = w ∨ ∃ p, Operation.LosesBranch w (.assembleIfElse s c body alternative) p := by
  rcases (looks_locate _ _).violated_bind h with hw | ⟨target, htarget, hrest⟩
  · exact .inl hw
  obtain ⟨rfl, -, -⟩ := Workspace.statementPlace?_eq_some_iff.1 (locate_eq_ok htarget)
  rcases violates_assembleIfElse (Violates.of_bind hrest fun _ => quiet_pure _) with
    hw | ⟨d, p, ss, ts, rfl, rfl, rfl, hne, hs, ht⟩
  · exact .inl hw
  · exact .inr ⟨p, target, d, ss, ts, rfl, hne, hs, ht⟩

/-- **The exception.** A block that is given as its own second branch is found out, but the block
    that was to be the first branch is gone. -/
theorem step_of_losesBranch (h : op.LosesBranch w p) :
    w.step op = (.error (.fault (.violated .sameStatement)), w.setStatement .empty p) := by
  obtain ⟨target, c, ss, ts, rfl, hne, hs, ht⟩ := h
  refine step_eq_violated_iff.2 ?_
  show (Action.statementPlace _ >>= _) w = _
  rw [bind_ok (statementPlace_eq ht), bind_error (assembleIfElse_self hne hs ht)]

/-- **Violated conditions of use leave no trace.** An operation that moves statements, with whatever
    arguments, and finds a condition of use violated leaves the whole workspace as it was.  The one
    exception loses the block that was to be the first branch, and nothing else. -/
theorem violation_leaves_no_trace (hop : op.IsMove)
    (h : w.step op = (.error (.fault (.violated v)), w')) :
    ((∀ p, ¬ op.LosesBranch w p) → w' = w) ∧
      ∀ p, op.LosesBranch w p → v = .sameStatement ∧ w' = w.setStatement .empty p := by
  constructor
  · intro hnone
    have hv := step_eq_violated_iff.1 h
    by_cases hbranches : ∃ s c body alternative, op = .assembleIfElse s c body alternative
    · obtain ⟨s, c, body, alternative, rfl⟩ := hbranches
      rcases assembleIfElse_leaves_no_trace hv with hw | ⟨p, hp⟩
      · exact hw
      · exact absurd hp (hnone p)
    · -- All other operations are atomic, so that there is no exception to exclude.
      have hne : ∀ s c body alternative, op ≠ .assembleIfElse s c body alternative :=
        fun s c body alternative e => hbranches ⟨s, c, body, alternative, e⟩
      exact atomic_perform hop hne w v w' hv
  · intro p hp
    rw [step_of_losesBranch hp] at h
    cases h
    exact ⟨rfl, rfl⟩

/-- A workspace with a block that holds a call, and with an empty block. -/
def twoBlocks : Workspace :=
  (Workspace.empty.setContent "full" (.statement (.block [.call "move"]))).setContent "hollow"
    (.statement .empty)

/-- A block that is to be moved into itself, and one that is given as its own second branch. -/
theorem violation_leaves_no_trace_sample :
    (∃ w', twoBlocks.step (.transfer (.place (.slot "full")) (.place (.slot "full"))) =
        (.error (.fault (.violated .sameStatement)), w') ∧ w' = twoBlocks) ∧
      ∃ w', twoBlocks.step (.assembleIfElse (.place (.slot "hollow")) (some .random)
          (.place (.slot "full")) (.place (.slot "hollow"))) =
        (.error (.fault (.violated .sameStatement)), w') ∧
        w' = twoBlocks.setStatement .empty (.slot "full") := by
  constructor
  · have hop : Operation.IsMove (.transfer (.place (.slot "full")) (.place (.slot "full"))) :=
      trivial
    have hkept : ∀ p, ¬ Operation.LosesBranch twoBlocks
        (.transfer (.place (.slot "full")) (.place (.slot "full"))) p := by
      rintro p ⟨_, _, _, _, h, -⟩
      cases h
    exact ⟨_, rfl, (violation_leaves_no_trace hop rfl).1 hkept⟩
  · have hop : Operation.IsMove (.assembleIfElse (.place (.slot "hollow")) (some .random)
        (.place (.slot "full")) (.place (.slot "hollow"))) := trivial
    have hlost : Operation.LosesBranch twoBlocks (.assembleIfElse (.place (.slot "hollow"))
        (some .random) (.place (.slot "full")) (.place (.slot "hollow"))) (.slot "full") :=
      ⟨.slot "hollow", .random, [.call "move"], [], rfl, by decide, rfl, rfl⟩
    exact ⟨_, rfl, ((violation_leaves_no_trace hop rfl).2 _ hlost).2⟩

/-- **A lost branch.** The empty block is to become a conditional with the call as its first branch
    and itself as its second one.  It is refused, but the call is gone. -/
theorem assembleIfElse_loses_branch :
    ∃ w', twoBlocks.step (.assembleIfElse (.place (.slot "hollow")) (some .random)
          (.place (.slot "full")) (.place (.slot "hollow"))) =
        (.error (.fault (.violated .sameStatement)), w') ∧
      twoBlocks.statement? (.slot "full") = some (.block [.call "move"]) ∧
      w'.statement? (.slot "full") = some .empty ∧ w' ≠ twoBlocks := by
  refine ⟨_, rfl, rfl, rfl, fun h => ?_⟩
  have hfull := congrArg (Workspace.statement? · (.slot "full")) h
  cases hfull

end Workspace

end BL
