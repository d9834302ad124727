import BL.Statement.Basic

namespace BL.Statement

/-!
# Building and taking apart statements

Statements are put together and taken apart by a handful of operations, and by these alone. Each
first checks its conditions of use, in a fixed order, and then gives the new tree.

* `blockLength`, `insertChild`, `removeChild` — blocks;
* `assembleIf`, `assembleIfElse`, `assembleWhile`, `assembleCall` — a construct from its parts;
* `disassembleIf`, `disassembleIfElse`, `disassembleWhile`, `disassembleCall` — its parts again;
* `disassembleIf_assembleIf` and its companions — taking apart undoes putting together;
* `insertChild_wellFormed` and its companions — well-formed parts give well-formed statements, and
  the other way round.
-/

/-! ### Blocks -/

/-- The children of a block. -/
def blockChildren : Statement → Except Violation (List Statement)
  | block children => .ok children
  | _ => .error (.wrongKind .block)

/-- The number of children of a block. -/
def blockLength (s : Statement) : Except Violation Nat :=
  s.blockChildren.map List.length

/-- The children of a block in which there is a place with the given number for another child. -/
def childrenAround (s : Statement) (place : Int) : Except Violation (List Statement) :=
  match s.blockChildren with
  | .error v => .error v
  | .ok children =>
    if 0 ≤ place ∧ place ≤ children.length then .ok children else .error .noSuchPlace

/-- The block with the statement put in front of the child with the given number, or behind the last
    child. -/
def insertChild (s : Statement) (place : Int) (child : Statement) : Except Violation Statement :=
  match s.childrenAround place with
  | .error v => .error v
  | .ok children =>
    if child.kind = .block then .error .blockInBlock
    else .ok (block (children.insertIdx place.toNat child))

/-- The child with the given number, and the block without it. -/
def removeChild (s : Statement) (place : Int) : Except Violation (Statement × Statement) :=
  match s.blockChildren with
  | .error v => .error v
  | .ok children =>
    if 0 ≤ place then
      match children[place.toNat]? with
      | some child => .ok (child, block (children.eraseIdx place.toNat))
      | none => .error .noSuchChild
    else .error .noSuchChild

/-! ### Conditionals, loops and calls -/

/-- A condition where there may be none. -/
def requireCondition : Option Condition → Except Violation Condition
  | some c => .ok c
  | none => .error .noCondition

/-- Checks that a statement is a block. -/
def requireBlock (v : Violation) (s : Statement) : Except Violation Unit :=
  if s.kind = .block then .ok () else .error v

/-- The conditional with one branch. -/
def assembleIf (c : Option Condition) (body : Statement) : Except Violation Statement := do
  requireBlock .bodyNotBlock body
  let c ← requireCondition c
  return ifThen c body

/-- The conditional with two branches. -/
def assembleIfElse (c : Option Condition) (body alternative : Statement) :
    Except Violation Statement := do
  requireBlock .firstBranchNotBlock body
  requireBlock .secondBranchNotBlock alternative
  let c ← requireCondition c
  return ifElse c body alternative

/-- The loop. -/
def assembleWhile (c : Option Condition) (body : Statement) : Except Violation Statement := do
  requireBlock .bodyNotBlock body
  let c ← requireCondition c
  return whileDo c body

/-- The call of an instruction; the name may be missing, and is then no identifier. -/
def assembleCall (name : Option String) : Except Violation Statement :=
  match name.filter Word.isIdentifier with
  | some n => .ok (call n)
  | none => .error .badCallName

/-- The condition and the branch of a conditional with one branch. -/
def disassembleIf : Statement → Except Violation (Condition × Statement)
  | ifThen c body => .ok (c, body)
  | _ => .error (.wrongKind .ifThen)

/-- The condition and the branches of a conditional with two. -/
def disassembleIfElse : Statement → Except Violation (Condition × Statement × Statement)
  | ifElse c body alternative => .ok (c, body, alternative)
  | _ => .error (.wrongKind .ifElse)

/-- The condition and the body of a loop. -/
def disassembleWhile : Statement → Except Violation (Condition × Statement)
  | whileDo c body => .ok (c, body)
  | _ => .error (.wrongKind .whileDo)

/-- The instruction that a call names. -/
def disassembleCall : Statement → Except Violation String
  | call name => .ok name
  | _ => .error (.wrongKind .call)

/-! ### Success -/

@[simp] theorem blockLength_block (ss : List Statement) :
    (block ss).blockLength = .ok ss.length := rfl

theorem insertChild_block {ss : List Statement} {n : Nat} (hn : n ≤ ss.length) {s : Statement}
    (hs : s.kind ≠ .block) : (block ss).insertChild n s = .ok (block (ss.insertIdx n s)) := by
  simp [insertChild, childrenAround, blockChildren, hn, hs]

theorem removeChild_block {ss : List Statement} {n : Nat} (hn : n < ss.length) :
    (block ss).removeChild n = .ok (ss[n], block (ss.eraseIdx n)) := by
  simp [removeChild, blockChildren, hn]

theorem assembleIf_some {c : Condition} {s : Statement} (h : s.kind = .block) :
    assembleIf (some c) s = .ok (ifThen c s) := by
  simp [assembleIf, requireBlock, requireCondition, h, bind, Except.bind, pure, Except.pure]

theorem assembleIfElse_some {c : Condition} {s t : Statement} (hs : s.kind = .block)
    (ht : t.kind = .block) : assembleIfElse (some c) s t = .ok (ifElse c s t) := by
  simp [assembleIfElse, requireBlock, requireCondition, hs, ht, bind, Except.bind, pure,
    Except.pure]

theorem assembleWhile_some {c : Condition} {s : Statement} (h : s.kind = .block) :
    assembleWhile (some c) s = .ok (whileDo c s) := by
  simp [assembleWhile, requireBlock, requireCondition, h, bind, Except.bind, pure, Except.pure]

theorem assembleCall_some {n : String} (h : Word.isIdentifier n = true) :
    assembleCall (some n) = .ok (call n) := by
  simp [assembleCall, Option.filter, h]

/-! ### Inversion -/

theorem kind_of_requireBlock {v : Violation} {s : Statement} {u : Unit}
    (h : requireBlock v s = .ok u) : s.kind = .block := by
  unfold requireBlock at h
  split at h
  · assumption
  · simp at h

theorem eq_some_of_requireCondition {c : Option Condition} {d : Condition}
    (h : requireCondition c = .ok d) : c = some d := by
  cases c with
  | none => simp [requireCondition] at h
  | some e => simpa [requireCondition] using h

theorem childrenAround_eq_ok {s : Statement} {place : Int} {ss : List Statement}
    (h : s.childrenAround place = .ok ss) : s = block ss ∧ 0 ≤ place ∧ place ≤ ss.length := by
  cases s <;> simp [childrenAround, blockChildren] at h
  case block children =>
    split at h
    · cases h
      exact ⟨rfl, by omega, by omega⟩
    · simp at h

theorem insertChild_eq_ok {s t u : Statement} {place : Int} (h : s.insertChild place t = .ok u) :
    ∃ ss, s = block ss ∧ 0 ≤ place ∧ place ≤ ss.length ∧ t.kind ≠ .block ∧
      u = block (ss.insertIdx place.toNat t) := by
  unfold insertChild at h
  split at h
  · simp at h
  · rename_i ss hss
    obtain ⟨rfl, h0, hle⟩ := childrenAround_eq_ok hss
    split at h
    · simp at h
    · exact ⟨ss, rfl, h0, hle, by assumption, (Except.ok.inj h).symm⟩

theorem removeChild_eq_ok {s t u : Statement} {place : Int} (h : s.removeChild place = .ok (t, u)) :
    ∃ ss, s = block ss ∧ 0 ≤ place ∧ ss[place.toNat]? = some t ∧
      u = block (ss.eraseIdx place.toNat) := by
  cases s <;> simp [removeChild, blockChildren] at h
  case block ss =>
    split at h
    · split at h
      · rename_i ht
        simp only [Except.ok.injEq, Prod.mk.injEq] at h
        exact ⟨ss, rfl, by assumption, by rw [ht, h.1], h.2.symm⟩
      · simp at h
    · simp at h

theorem assembleIf_eq_ok {c : Option Condition} {s u : Statement} (h : assembleIf c s = .ok u) :
    s.kind = .block ∧ ∃ d, c = some d ∧ u = ifThen d s := by
  obtain ⟨_, hs, h⟩ := exists_of_bind_eq_ok h
  obtain ⟨d, hd, h⟩ := exists_of_bind_eq_ok h
  exact ⟨kind_of_requireBlock hs, d, eq_some_of_requireCondition hd, (Except.ok.inj h).symm⟩

theorem assembleIfElse_eq_ok {c : Option Condition} {s t u : Statement}
    (h : assembleIfElse c s t = .ok u) :
    s.kind = .block ∧ t.kind = .block ∧ ∃ d, c = some d ∧ u = ifElse d s t := by
  obtain ⟨_, hs, h⟩ := exists_of_bind_eq_ok h
  obtain ⟨_, ht, h⟩ := exists_of_bind_eq_ok h
  obtain ⟨d, hd, h⟩ := exists_of_bind_eq_ok h
  exact ⟨kind_of_requireBlock hs, kind_of_requireBlock ht, d, eq_some_of_requireCondition hd,
    (Except.ok.inj h).symm⟩

theorem assembleWhile_eq_ok {c : Option Condition} {s u : Statement}
    (h : assembleWhile c s = .ok u) : s.kind = .block ∧ ∃ d, c = some d ∧ u = whileDo d s := by
  obtain ⟨_, hs, h⟩ := exists_of_bind_eq_ok h
  obtain ⟨d, hd, h⟩ := exists_of_bind_eq_ok h
  exact ⟨kind_of_requireBlock hs, d, eq_some_of_requireCondition hd, (Except.ok.inj h).symm⟩

theorem assembleCall_eq_ok {n : Option String} {u : Statement} (h : assembleCall n = .ok u) :
    ∃ m, n = some m ∧ Word.isIdentifier m = true ∧ u = call m := by
  cases n with
  | none => simp [assembleCall] at h
  | some m =>
    by_cases hm : Word.isIdentifier m = true
    · exact ⟨m, rfl, hm, by simpa [assembleCall_some hm] using h.symm⟩
    · simp [assembleCall, Option.filter, hm] at h

/-! ### Taking apart undoes putting together -/

theorem disassembleIf_assembleIf {c : Condition} {s u : Statement}
    (h : assembleIf (some c) s = .ok u) : u.disassembleIf = .ok (c, s) := by
  obtain ⟨-, d, hd, rfl⟩ := assembleIf_eq_ok h
  cases hd; rfl

theorem disassembleIfElse_assembleIfElse {c : Condition} {s t u : Statement}
    (h : assembleIfElse (some c) s t = .ok u) : u.disassembleIfElse = .ok (c, s, t) := by
  obtain ⟨-, -, d, hd, rfl⟩ := assembleIfElse_eq_ok h
  cases hd; rfl

theorem disassembleWhile_assembleWhile {c : Condition} {s u : Statement}
    (h : assembleWhile (some c) s = .ok u) : u.disassembleWhile = .ok (c, s) := by
  obtain ⟨-, d, hd, rfl⟩ := assembleWhile_eq_ok h
  cases hd; rfl

theorem disassembleCall_assembleCall {n : String} {u : Statement}
    (h : assembleCall (some n) = .ok u) : u.disassembleCall = .ok n := by
  obtain ⟨m, hm, -, rfl⟩ := assembleCall_eq_ok h
  cases hm; rfl

/-! ### Well-formed results -/

theorem insertChild_wellFormed {s t u : Statement} {place : Int} (hs : s.WellFormed)
    (ht : t.WellFormed) (h : s.insertChild place t = .ok u) : u.WellFormed := by
  obtain ⟨ss, rfl, -, hle, hk, rfl⟩ := insertChild_eq_ok h
  rw [wellFormed_block] at hs ⊢
  intro x hx
  rcases (List.mem_insertIdx (by omega)).1 hx with rfl | hx
  · exact ⟨hk, ht⟩
  · exact hs x hx

theorem removeChild_wellFormed {s t u : Statement} {place : Int} (hs : s.WellFormed)
    (h : s.removeChild place = .ok (t, u)) : t.kind ≠ .block ∧ t.WellFormed ∧ u.WellFormed := by
  obtain ⟨ss, rfl, -, ht, rfl⟩ := removeChild_eq_ok h
  rw [wellFormed_block] at hs
  have hm := hs t (List.mem_of_getElem? ht)
  exact ⟨hm.1, hm.2, wellFormed_block.2 fun x hx => hs x (List.mem_of_mem_eraseIdx hx)⟩

theorem assembleIf_wellFormed {c : Option Condition} {s u : Statement} (hs : s.WellFormed)
    (h : assembleIf c s = .ok u) : u.WellFormed := by
  obtain ⟨hk, d, -, rfl⟩ := assembleIf_eq_ok h
  exact wellFormed_ifThen.2 ⟨hk, hs⟩

theorem assembleIfElse_wellFormed {c : Option Condition} {s t u : Statement} (hs : s.WellFormed)
    (ht : t.WellFormed) (h : assembleIfElse c s t = .ok u) : u.WellFormed := by
  obtain ⟨hk, hk', d, -, rfl⟩ := assembleIfElse_eq_ok h
  exact wellFormed_ifElse.2 ⟨⟨hk, hs⟩, hk', ht⟩

theorem assembleWhile_wellFormed {c : Option Condition} {s u : Statement} (hs : s.WellFormed)
    (h : assembleWhile c s = .ok u) : u.WellFormed := by
  obtain ⟨hk, d, -, rfl⟩ := assembleWhile_eq_ok h
  exact wellFormed_whileDo.2 ⟨hk, hs⟩

theorem assembleCall_wellFormed {n : Option String} {u : Statement} (h : assembleCall n = .ok u) :
    u.WellFormed := by
  obtain ⟨m, -, hm, rfl⟩ := assembleCall_eq_ok h
  exact wellFormed_call.2 hm

theorem disassembleIf_wellFormed {s t : Statement} {c : Condition} (hs : s.WellFormed)
    (h : s.disassembleIf = .ok (c, t)) : t.WellFormed := by
  cases s with
  | ifThen d body =>
    cases h
    exact (wellFormed_ifThen.1 hs).2
  | _ => cases h

theorem disassembleIfElse_wellFormed {s t u : Statement} {c : Condition} (hs : s.WellFormed)
    (h : s.disassembleIfElse = .ok (c, t, u)) :
    (t.kind = .block ∧ t.WellFormed) ∧ u.kind = .block ∧ u.WellFormed := by
  cases s with
  | ifElse d body alternative =>
    cases h
    exact wellFormed_ifElse.1 hs
  | _ => cases h

theorem disassembleWhile_wellFormed {s t : Statement} {c : Condition} (hs : s.WellFormed)
    (h : s.disassembleWhile = .ok (c, t)) : t.WellFormed := by
  cases s with
  | whileDo d body =>
    cases h
    exact (wellFormed_whileDo.1 hs).2
  | _ => cases h

end BL.Statement
