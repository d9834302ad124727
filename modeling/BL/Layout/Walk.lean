import BL.Fault
import BL.Statement.Kernel

namespace BL.Statement

/-!
# Walking over a statement

Written forms of a statement are made from its root down, a part for each construct. There are two
ways to get them: by recursion on the tree, and with the operations that take statements apart and
put them together again, for a statement that can be had in no other way.

* `Algebra` — what each construct becomes;
* `fold` — by recursion on the tree;
* `walk` — by taking the statement apart; it also gives the statement that is put together again;
* `walk_eq` — on well-formed statements both agree, and the statement is as it was before.
-/

/-- What becomes of each construct, given what has become of its parts. -/
structure Algebra (α : Type) where
  block : List α → α
  ifThen : Condition → α → α
  ifElse : Condition → α → α → α
  whileDo : Condition → α → α
  call : String → α

variable {α : Type}

/-! ### By recursion on the tree -/

mutual
/-- What becomes of a statement. -/
def fold (alg : Algebra α) : Statement → α
  | .block children => alg.block (foldAll alg children)
  | .ifThen c body => alg.ifThen c (fold alg body)
  | .ifElse c body alternative => alg.ifElse c (fold alg body) (fold alg alternative)
  | .whileDo c body => alg.whileDo c (fold alg body)
  | .call name => alg.call name

/-- What becomes of several statements. -/
def foldAll (alg : Algebra α) : List Statement → List α
  | [] => []
  | s :: ss => fold alg s :: foldAll alg ss
end

theorem foldAll_eq_map (alg : Algebra α) (ss : List Statement) :
    foldAll alg ss = ss.map (fold alg) := by
  induction ss with
  | nil => rfl
  | cons s ss ih => simp [foldAll, ih]

@[simp] theorem fold_block (alg : Algebra α) (ss : List Statement) :
    fold alg (block ss) = alg.block (ss.map (fold alg)) := by
  rw [fold, foldAll_eq_map]

/-! ### By taking apart and putting together -/

/-- Takes the children from the given number on out of a block, one after the other, and puts each
    back before the next is taken. -/
def walkChildren (visit : Statement → Except Fault (α × Statement)) :
    Nat → Nat → Statement → Except Fault (List α × Statement)
  | 0, _, s => .ok ([], s)
  | n + 1, i, s => do
    let (child, s) ← Fault.ofViolation (s.removeChild i)
    let (a, child) ← visit child
    let s ← Fault.ofViolation (s.insertChild i child)
    let (parts, s) ← walkChildren visit n (i + 1) s
    return (a :: parts, s)

/-- Takes a statement apart, as deep as the number says, and puts it together again. -/
def walkWithin (alg : Algebra α) : Nat → Statement → Except Fault (α × Statement)
  | 0, _ => .error .exhausted
  | n + 1, s =>
    match s.kind with
    | .block => do
      let count ← Fault.ofViolation s.blockLength
      let (parts, s) ← walkChildren (walkWithin alg n) count 0 s
      return (alg.block parts, s)
    | .ifThen => do
      let (c, body) ← Fault.ofViolation s.disassembleIf
      let (a, body) ← walkWithin alg n body
      let s ← Fault.ofViolation (assembleIf (some c) body)
      return (alg.ifThen c a, s)
    | .ifElse => do
      let (c, body, alternative) ← Fault.ofViolation s.disassembleIfElse
      let (a, body) ← walkWithin alg n body
      let (b, alternative) ← walkWithin alg n alternative
      let s ← Fault.ofViolation (assembleIfElse (some c) body alternative)
      return (alg.ifElse c a b, s)
    | .whileDo => do
      let (c, body) ← Fault.ofViolation s.disassembleWhile
      let (a, body) ← walkWithin alg n body
      let s ← Fault.ofViolation (assembleWhile (some c) body)
      return (alg.whileDo c a, s)
    | .call => do
      let name ← Fault.ofViolation s.disassembleCall
      let s ← Fault.ofViolation (assembleCall (some name))
      return (alg.call name, s)

/-- Takes a statement apart and puts it together again; gives what becomes of it and the
    statement. -/
def walk (alg : Algebra α) (s : Statement) : Except Fault (α × Statement) :=
  walkWithin alg s.depth s

/-! ### Agreement -/

theorem insertIdx_length_append {β : Type} (ls rs : List β) (x : β) :
    (ls ++ rs).insertIdx ls.length x = ls ++ x :: rs := by
  induction ls with
  | nil => simp
  | cons l ls ih => simp [ih]

theorem walkChildren_block (alg : Algebra α) (visit : Statement → Except Fault (α × Statement))
    (done : List Statement) {ss : List Statement} (hk : ∀ s ∈ ss, s.kind ≠ .block)
    (hv : ∀ s ∈ ss, visit s = .ok (fold alg s, s)) :
    walkChildren visit ss.length done.length (block (done ++ ss)) =
      .ok (ss.map (fold alg), block (done ++ ss)) := by
  induction ss generalizing done with
  | nil => simp [walkChildren]
  | cons s ss ih =>
    have hi := ih (done ++ [s]) (fun t ht => hk t (.tail _ ht))
      (fun t ht => hv t (.tail _ ht))
    simp only [List.length_append, List.length_cons, List.length_nil, List.append_assoc,
      List.cons_append, List.nil_append, Nat.zero_add] at hi
    have hr : (block (done ++ s :: ss)).removeChild (done.length : Nat) =
        .ok (s, block (done ++ ss)) := by
      rw [removeChild_block (by simp)]
      simp [List.eraseIdx_append_of_length_le]
    have hp : (block (done ++ ss)).insertChild (done.length : Nat) s =
        .ok (block (done ++ s :: ss)) := by
      rw [insertChild_block (by simp) (hk s List.mem_cons_self)]
      rw [insertIdx_length_append]
    simp [walkChildren, hr, hp, hv s List.mem_cons_self, hi, bind, Except.bind, pure, Except.pure]

theorem walkWithin_eq (alg : Algebra α) {s : Statement} (hs : s.WellFormed) {n : Nat}
    (hn : s.depth ≤ n) : walkWithin alg n s = .ok (fold alg s, s) := by
  induction s generalizing n with
  | block ss ih =>
    obtain ⟨m, rfl⟩ : ∃ m, n = m + 1 := ⟨n - 1, by simp [depth] at hn; omega⟩
    rw [wellFormed_block] at hs
    have hd : ∀ s ∈ ss, s.depth ≤ m := fun s h => by
      have := depth_le_depthAll h
      simp only [depth] at hn
      omega
    have hw := walkChildren_block alg (walkWithin alg m) []
      (fun s h => (hs s h).1) (fun s h => ih s h (hs s h).2 (hd s h))
    simp only [List.length_nil, List.nil_append] at hw
    simp [walkWithin, hw, bind, Except.bind, pure, Except.pure]
  | ifThen c s ih =>
    obtain ⟨m, rfl⟩ : ∃ m, n = m + 1 := ⟨n - 1, by simp [depth] at hn; omega⟩
    rw [wellFormed_ifThen] at hs
    simp only [depth] at hn
    simp [walkWithin, disassembleIf, ih hs.2 (by omega : s.depth ≤ m), assembleIf_some hs.1, fold,
      bind, Except.bind, pure, Except.pure]
  | ifElse c s t ih ih' =>
    obtain ⟨m, rfl⟩ : ∃ m, n = m + 1 := ⟨n - 1, by simp [depth] at hn; omega⟩
    rw [wellFormed_ifElse] at hs
    simp only [depth] at hn
    simp [walkWithin, disassembleIfElse, ih hs.1.2 (by omega : s.depth ≤ m),
      ih' hs.2.2 (by omega : t.depth ≤ m), assembleIfElse_some hs.1.1 hs.2.1, fold,
      bind, Except.bind, pure, Except.pure]
  | whileDo c s ih =>
    obtain ⟨m, rfl⟩ : ∃ m, n = m + 1 := ⟨n - 1, by simp [depth] at hn; omega⟩
    rw [wellFormed_whileDo] at hs
    simp only [depth] at hn
    simp [walkWithin, disassembleWhile, ih hs.2 (by omega : s.depth ≤ m), assembleWhile_some hs.1,
      fold, bind, Except.bind, pure, Except.pure]
  | call name =>
    obtain ⟨m, rfl⟩ : ∃ m, n = m + 1 := ⟨n - 1, by simp [depth] at hn; omega⟩
    rw [wellFormed_call] at hs
    simp [walkWithin, disassembleCall, assembleCall_some hs, fold, bind, Except.bind, pure,
      Except.pure]

/-- A walk gives what the recursion gives, and leaves the statement as it was. -/
theorem walk_eq (alg : Algebra α) {s : Statement} (hs : s.WellFormed) :
    s.walk alg = .ok (fold alg s, s) :=
  walkWithin_eq alg hs (Nat.le_refl _)

end BL.Statement
