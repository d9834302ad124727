import BL.Violation
import BL.Word

namespace BL

/-!
# Statements

A statement is a tree: a block of statements, a conditional with one branch or two, a loop, or the
call of an instruction. The type allows trees that no source text has, such as a loop whose body is
a call; `WellFormed` says which trees are meant.

* `Statement` — the trees;
* `Statement.inductionOn` — induction that assumes the property of every child of a block;
* `Statement.kind`, `Statement.rootLabel` — what stands at the root;
* `Statement.WellFormed` — children of a block are no blocks, branches and bodies are blocks, the
  name of a call is an identifier;
* `Statement.depth` — the number of constructs on the longest way from the root.
-/

/-- A statement, as a tree. -/
inductive Statement where
  | block (children : List Statement)
  | ifThen (c : Condition) (body : Statement)
  | ifElse (c : Condition) (body alternative : Statement)
  | whileDo (c : Condition) (body : Statement)
  | call (name : String)
  deriving Repr

namespace Statement

/-- The block without children, which does nothing. -/
def empty : Statement := block []

instance : Inhabited Statement := ⟨empty⟩

/-! ### Induction -/

/-- Induction on statements; for a block the property may be assumed of each child. -/
@[elab_as_elim, induction_eliminator]
theorem inductionOn {motive : Statement → Prop}
    (block : ∀ children, (∀ s ∈ children, motive s) → motive (block children))
    (ifThen : ∀ c body, motive body → motive (ifThen c body))
    (ifElse : ∀ c body alternative, motive body → motive alternative →
      motive (ifElse c body alternative))
    (whileDo : ∀ c body, motive body → motive (whileDo c body))
    (call : ∀ name, motive (call name)) (s : Statement) : motive s :=
  Statement.rec (motive_1 := motive) (motive_2 := fun ss => ∀ s ∈ ss, motive s)
    block ifThen ifElse whileDo call (by simp)
    (fun s ss hs hss => by simpa using ⟨hs, hss⟩) s

/-! ### Equality -/

mutual
/-- Two statements are compared construct by construct. -/
def decEq : (s t : Statement) → Decidable (s = t)
  | .block ss, .block ts =>
    match listDecEq ss ts with
    | .isTrue h => .isTrue (by rw [h])
    | .isFalse h => .isFalse (by simpa using h)
  | .ifThen c s, .ifThen d t =>
    match decEq s t with
    | .isTrue h => decidable_of_iff (c = d) (by simp [h])
    | .isFalse h => .isFalse (by simp [h])
  | .ifElse c s s', .ifElse d t t' =>
    match decEq s t, decEq s' t' with
    | .isTrue h, .isTrue h' => decidable_of_iff (c = d) (by simp [h, h'])
    | .isFalse h, _ => .isFalse (by simp [h])
    | _, .isFalse h => .isFalse (by simp [h])
  | .whileDo c s, .whileDo d t =>
    match decEq s t with
    | .isTrue h => decidable_of_iff (c = d) (by simp [h])
    | .isFalse h => .isFalse (by simp [h])
  | .call m, .call n => decidable_of_iff (m = n) (by simp)
  | .block _, .ifThen .. | .block _, .ifElse .. | .block _, .whileDo .. | .block _, .call _
  | .ifThen .., .block _ | .ifThen .., .ifElse .. | .ifThen .., .whileDo .. | .ifThen .., .call _
  | .ifElse .., .block _ | .ifElse .., .ifThen .. | .ifElse .., .whileDo .. | .ifElse .., .call _
  | .whileDo .., .block _ | .whileDo .., .ifThen .. | .whileDo .., .ifElse .. | .whileDo .., .call _
  | .call _, .block _ | .call _, .ifThen .. | .call _, .ifElse .. | .call _, .whileDo .. =>
    .isFalse (by simp)

/-- Lists of statements are compared child by child. -/
def listDecEq : (ss ts : List Statement) → Decidable (ss = ts)
  | [], [] => .isTrue rfl
  | s :: ss, t :: ts =>
    match decEq s t, listDecEq ss ts with
    | .isTrue h, .isTrue h' => .isTrue (by rw [h, h'])
    | .isFalse h, _ => .isFalse (by simp [h])
    | _, .isFalse h => .isFalse (by simp [h])
  | [], _ :: _ => .isFalse (by simp)
  | _ :: _, [] => .isFalse (by simp)
end

instance : DecidableEq Statement := decEq

/-! ### The root -/

/-- The construct at the root. -/
def kind : Statement → Kind
  | block _ => .block
  | ifThen .. => .ifThen
  | ifElse .. => .ifElse
  | whileDo .. => .whileDo
  | call _ => .call

@[simp] theorem kind_block (ss : List Statement) : (block ss).kind = .block := rfl
@[simp] theorem kind_ifThen (c : Condition) (s : Statement) : (ifThen c s).kind = .ifThen := rfl
@[simp] theorem kind_ifElse (c : Condition) (s t : Statement) :
    (ifElse c s t).kind = .ifElse := rfl
@[simp] theorem kind_whileDo (c : Condition) (s : Statement) : (whileDo c s).kind = .whileDo := rfl
@[simp] theorem kind_call (n : String) : (call n).kind = .call := rfl
@[simp] theorem kind_empty : empty.kind = .block := rfl

theorem kind_eq_block_iff {s : Statement} : s.kind = .block ↔ ∃ ss, s = block ss := by
  cases s <;> simp

/-- The condition at the root. -/
def condition? : Statement → Option Condition
  | ifThen c _ | ifElse c _ _ | whileDo c _ => some c
  | block _ | call _ => none

/-- The instruction that the root calls. -/
def instruction? : Statement → Option String
  | call n => some n
  | _ => none

/-- What stands at the root: kind, condition and instruction, a question mark where there is
    none. -/
def rootLabel (s : Statement) : String :=
  "(" ++ s.kind.label ++ "," ++ (s.condition?.map Condition.label).getD "?" ++ "," ++
    s.instruction?.getD "?" ++ ")"

/-! ### Well-formed trees -/

mutual
/-- The tree is one that a source text can have. -/
def WellFormed : Statement → Prop
  | .block children => WellFormedAll children
  | .ifThen _ body => body.kind = .block ∧ WellFormed body
  | .ifElse _ body alternative =>
    (body.kind = .block ∧ WellFormed body) ∧ alternative.kind = .block ∧ WellFormed alternative
  | .whileDo _ body => body.kind = .block ∧ WellFormed body
  | .call name => Word.isIdentifier name = true

/-- The statements may stand in a block. -/
def WellFormedAll : List Statement → Prop
  | [] => True
  | s :: ss => (s.kind ≠ .block ∧ WellFormed s) ∧ WellFormedAll ss
end

theorem wellFormedAll_iff {ss : List Statement} :
    WellFormedAll ss ↔ ∀ s ∈ ss, s.kind ≠ .block ∧ s.WellFormed := by
  induction ss with
  | nil => simp [WellFormedAll]
  | cons s ss ih => simp [WellFormedAll, ih]

@[simp] theorem wellFormed_block {ss : List Statement} :
    (block ss).WellFormed ↔ ∀ s ∈ ss, s.kind ≠ .block ∧ s.WellFormed := by
  rw [WellFormed, wellFormedAll_iff]

@[simp] theorem wellFormed_ifThen {c : Condition} {s : Statement} :
    (ifThen c s).WellFormed ↔ s.kind = .block ∧ s.WellFormed := by rw [WellFormed]

@[simp] theorem wellFormed_ifElse {c : Condition} {s t : Statement} :
    (ifElse c s t).WellFormed ↔
      (s.kind = .block ∧ s.WellFormed) ∧ t.kind = .block ∧ t.WellFormed := by rw [WellFormed]

@[simp] theorem wellFormed_whileDo {c : Condition} {s : Statement} :
    (whileDo c s).WellFormed ↔ s.kind = .block ∧ s.WellFormed := by rw [WellFormed]

@[simp] theorem wellFormed_call {n : String} :
    (call n).WellFormed ↔ Word.isIdentifier n = true := by rw [WellFormed]

@[simp] theorem wellFormed_empty : empty.WellFormed := by simp [empty]

mutual
/-- Well-formedness is decided from the root down. -/
def decideWellFormed : (s : Statement) → Decidable s.WellFormed
  | .block ss => @decidable_of_iff _ _ (by rw [WellFormed]) (decideWellFormedAll ss)
  | .ifThen _ s =>
    @decidable_of_iff _ _ wellFormed_ifThen.symm (@instDecidableAnd _ _ _ (decideWellFormed s))
  | .ifElse _ s t =>
    @decidable_of_iff _ _ wellFormed_ifElse.symm
      (@instDecidableAnd _ _ (@instDecidableAnd _ _ _ (decideWellFormed s))
        (@instDecidableAnd _ _ _ (decideWellFormed t)))
  | .whileDo _ s =>
    @decidable_of_iff _ _ wellFormed_whileDo.symm (@instDecidableAnd _ _ _ (decideWellFormed s))
  | .call _ => decidable_of_iff _ wellFormed_call.symm

/-- The same for the children of a block. -/
def decideWellFormedAll : (ss : List Statement) → Decidable (WellFormedAll ss)
  | [] => .isTrue trivial
  | s :: ss =>
    @decidable_of_iff _ _ (by rw [WellFormedAll])
      (@instDecidableAnd _ _ (@instDecidableAnd _ _ _ (decideWellFormed s))
        (decideWellFormedAll ss))
end

instance : DecidablePred WellFormed := decideWellFormed

/-! ### Depth -/

mutual
/-- The number of constructs on the longest way from the root. -/
def depth : Statement → Nat
  | .block children => depthAll children + 1
  | .ifThen _ body => body.depth + 1
  | .ifElse _ body alternative => max body.depth alternative.depth + 1
  | .whileDo _ body => body.depth + 1
  | .call _ => 1

/-- The largest depth of several statements. -/
def depthAll : List Statement → Nat
  | [] => 0
  | s :: ss => max s.depth (depthAll ss)
end

theorem depth_le_depthAll {s : Statement} {ss : List Statement} (h : s ∈ ss) :
    s.depth ≤ depthAll ss := by
  induction ss with
  | nil => simp at h
  | cons t ts ih =>
    simp only [depthAll]
    rcases List.mem_cons.1 h with rfl | h
    · omega
    · have := ih h
      omega

end Statement

end BL
