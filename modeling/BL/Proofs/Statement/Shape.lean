import BL.Statement.Basic
import Mathlib.Logic.Relation
import Mathlib.Tactic.Tauto

namespace BL.Statement

/-!
# The shape of statements

A statement is well formed from the root down.  Seen from inside, this says of each statement in the
tree what its condition, its instruction and its children may be:

* `Statement.children`, `Statement.Reaches` — the statements directly inside, and all of them;
* `Statement.HasShape` — what a statement may be made of, one case for each construct;
* `Statement.wellFormed_iff_children` — well-formed is what has this shape and well-formed children;
* `Statement.wellFormed_iff_reaches` — so well-formed is what reaches only statements of this shape.
-/

/-- The statements directly inside. -/
def children : Statement → List Statement
  | block ss => ss
  | ifThen _ body => [body]
  | ifElse _ body alternative => [body, alternative]
  | whileDo _ body => [body]
  | call _ => []

/-- The second statement is somewhere inside the first one, or is that one. -/
def Reaches : Statement → Statement → Prop := Relation.ReflTransGen fun s t => t ∈ s.children

/-- A block has neither condition nor instruction, and no child that is a block.  A conditional or a
    loop has a condition, no instruction, and a block for each of its branches.  A call has no
    condition, an identifier as its instruction, and no children. -/
def HasShape (s : Statement) : Prop :=
  match s.kind with
  | .block => s.condition? = none ∧ s.instruction? = none ∧ ∀ t ∈ s.children, t.kind ≠ .block
  | .ifThen | .whileDo =>
    s.condition?.isSome = true ∧ s.instruction? = none ∧
      ∃ t, s.children = [t] ∧ t.kind = .block
  | .ifElse =>
    s.condition?.isSome = true ∧ s.instruction? = none ∧
      ∃ t u, s.children = [t, u] ∧ t.kind = .block ∧ u.kind = .block
  | .call =>
    s.condition? = none ∧ (∃ n, s.instruction? = some n ∧ Word.isIdentifier n = true) ∧
      s.children = []

/-- Induction from the leaves up: the property may be assumed of all children. -/
theorem inductionOnChildren {motive : Statement → Prop}
    (h : ∀ s, (∀ t ∈ s.children, motive t) → motive s) (s : Statement) : motive s := by
  induction s with
  | block ss ih => exact h _ ih
  | ifThen c body ih | whileDo c body ih => exact h _ (List.forall_mem_singleton.2 ih)
  | ifElse c body alternative ih ih' =>
    exact h _ (List.forall_mem_cons.2 ⟨ih, List.forall_mem_singleton.2 ih'⟩)
  | call n => exact h _ (List.forall_mem_nil _)

/-! ### One construct after the other -/

theorem hasShape_block {ss : List Statement} :
    (block ss).HasShape ↔ ∀ s ∈ ss, s.kind ≠ .block := by
  simp [HasShape, condition?, instruction?, children]

theorem hasShape_ifThen {c : Condition} {s : Statement} :
    (ifThen c s).HasShape ↔ s.kind = .block := by
  simp [HasShape, condition?, instruction?, children]

theorem hasShape_ifElse {c : Condition} {s t : Statement} :
    (ifElse c s t).HasShape ↔ s.kind = .block ∧ t.kind = .block := by
  constructor
  · rintro ⟨-, -, s', t', h, hs, ht⟩
    cases h
    exact ⟨hs, ht⟩
  · rintro ⟨hs, ht⟩
    exact ⟨rfl, rfl, s, t, rfl, hs, ht⟩

theorem hasShape_whileDo {c : Condition} {s : Statement} :
    (whileDo c s).HasShape ↔ s.kind = .block := by
  simp [HasShape, condition?, instruction?, children]

theorem hasShape_call {n : String} : (call n).HasShape ↔ Word.isIdentifier n = true := by
  simp [HasShape, condition?, instruction?, children]

variable {s t : Statement}

/-- Well-formedness goes one level down at a time. -/
theorem wellFormed_iff_children :
    s.WellFormed ↔ s.HasShape ∧ ∀ t ∈ s.children, t.WellFormed := by
  cases s with
  | block ss =>
    rw [wellFormed_block, hasShape_block, children]
    exact ⟨fun h => ⟨fun t ht => (h t ht).1, fun t ht => (h t ht).2⟩,
      fun h t ht => ⟨h.1 t ht, h.2 t ht⟩⟩
  | ifThen c body => simp [hasShape_ifThen, children]
  | ifElse c body alternative =>
    simp only [wellFormed_ifElse, hasShape_ifElse, children, List.forall_mem_cons,
      List.not_mem_nil, false_implies, implies_true, and_true]
    tauto
  | whileDo c body => simp [hasShape_whileDo, children]
  | call n => simp [hasShape_call, children]

/-! ### The whole tree -/

theorem WellFormed.of_reaches (hs : s.WellFormed) (h : s.Reaches t) : t.WellFormed := by
  induction h with
  | refl => exact hs
  | tail _ hc ih => exact (wellFormed_iff_children.1 ih).2 _ hc

/-- **Shape.** A statement is well formed exactly if all statements in its tree have the shape of
    their construct. -/
theorem wellFormed_iff_reaches : s.WellFormed ↔ ∀ t, s.Reaches t → t.HasShape := by
  constructor
  · intro hs t h
    exact (wellFormed_iff_children.1 (hs.of_reaches h)).1
  · intro h
    induction s using inductionOnChildren with
    | h s ih =>
      -- What a child reaches is reached from the statement around it.
      have hchild : ∀ t ∈ s.children, t.WellFormed :=
        fun t ht => ih t ht fun u hu => h u (.head ht hu)
      exact wellFormed_iff_children.2 ⟨h s .refl, hchild⟩

end BL.Statement
