import BL.Proofs.Workspace.Nodes
import BL.Proofs.Workspace.Outcomes

namespace BL

/-!
# Moving statements loses nothing

Trees are moved by writing: one statement is written in another's place, and an empty block in its
own.  Nothing gets lost and nothing is there twice only if the writings fit together, which they do
for each of the operations.  This file keeps books: what comes in and what goes out, in nodes.  The
books do not tell where a tree goes, and so this is said beside them.

* `Ledger`, `Ledger.Balanced` — what an operation says that it does to the nodes, and that it does
  this and nothing else;
* `Ledger.balanced_setAll` — the books of several writings balance if those of the trees do;
* `Move`, `Move.ledger` — the operations that move trees, and their books;
* `Move.Delivers`, `Move.Conserves` — which trees go where, and all that is promised of a move;
* `Move.conserves_insertChild`, `Move.conserves_assembleIf`, … — one operation after the other;
* `Workspace.moves_conserve_nodes` — the books of every move balance, and its trees arrive.
-/

/-! ### The books of a move -/

/-- What an operation that moves trees does to the nodes of a workspace. -/
structure Ledger where
  /-- The places of the statements that the operation names. -/
  named : List Place
  /-- The slot that the result goes to. -/
  result : Option String := none
  /-- The places where a tree is overwritten. -/
  overwritten : List Place := []
  /-- The places where an empty block is left. -/
  emptied : List Place := []
  /-- The node that is put together. -/
  made : Option Node := none
  /-- The place of the statement that is taken apart. -/
  undone : Option Place := none

namespace Ledger

/-- The nodes that come in. -/
def gain (b : Ledger) : Multiset Node := b.made.elim 0 fun m => {m}

/-- The nodes that go out. -/
def loss (b : Ledger) (w : Workspace) : Multiset Node :=
  (b.overwritten.map w.nodesAt).sum + b.undone.elim 0 w.rootAt

/-- The books of a construct with one block that is put together. -/
def assembling (target body : Place) (made : Option Node) : Ledger where
  named := [target, body]
  overwritten := [target]
  emptied := [body]
  made := made

/-- The books of a construct with one block that is taken apart. -/
def takingApart (target body : Place) : Ledger where
  named := [target, body]
  overwritten := [body]
  emptied := [target]
  undone := some target

/-- The second workspace has all the nodes of the first one, and no others, but for those that the
    ledger lists; empty blocks are left where it says so; and the statements that it does not name
    are as they were. -/
structure Balanced (b : Ledger) (w w' : Workspace) : Prop where
  nodes : w'.nodes + b.loss w = w.nodes + b.gain
  emptied : ∀ p ∈ b.emptied, w'.statement? p = some .empty
  unchanged : ∀ p, p ∉ b.named → (∀ n, b.result = some n → p ≠ .slot n) →
    w'.statement? p = w.statement? p

open Workspace

variable {b : Ledger} {w : Workspace} {target p q : Place} {s t u : Statement}

/-- **Balance.** The books of several writings balance if those of the trees that are overwritten
    and written do. -/
theorem balanced_setAll (es : List (Place × Statement)) (hes : w.AllWritable es)
    (hnodes : (es.map fun e => e.2.nodes).sum + b.loss w
      = (es.map fun e => w.nodesAt e.1).sum + b.gain)
    (hemptied : ∀ p ∈ b.emptied, (p, Statement.empty) ∈ es)
    (hnamed : ∀ p ∈ es.map Prod.fst, p ∈ b.named ∨ ∃ n, b.result = some n ∧ p = .slot n) :
    b.Balanced w (w.setAll es) where
  nodes := by
    refine add_right_cancel (b := (es.map fun e => w.nodesAt e.1).sum) ?_
    calc (w.setAll es).nodes + b.loss w + (es.map fun e => w.nodesAt e.1).sum
        = (w.setAll es).nodes + (es.map fun e => w.nodesAt e.1).sum + b.loss w :=
          add_right_comm _ _ _
      _ = w.nodes + ((es.map fun e => e.2.nodes).sum + b.loss w) := by
          rw [nodes_setAll hes, add_assoc]
      _ = w.nodes + b.gain + (es.map fun e => w.nodesAt e.1).sum := by
          rw [hnodes, add_comm _ b.gain, add_assoc]
  emptied p hp := statement?_setAll_of_mem hes (hemptied p hp)
  unchanged p hp hresult := by
    refine statement?_setAll_of_notMem hes fun hmem => ?_
    rcases hnamed p hmem with h | ⟨n, hn, h⟩
    · exact hp h
    · exact hresult n hn h

/-- After two writings there is at each of the two places what was written there. -/
theorem statement?_of_two (hs : w.statement? q = some s) (ht : w.statement? target = some t)
    (hne : q ≠ target) (v u : Statement) :
    ((w.setStatement v q).setStatement u target).statement? q = some v ∧
      ((w.setStatement v q).setStatement u target).statement? target = some u := by
  have ht' := (statement?_setStatement_of_ne (s := v) hs hne.symm).trans ht
  exact ⟨(statement?_setStatement_of_ne ht' hne).trans (statement?_setStatement_self hs),
    statement?_setStatement_self ht'⟩

/-- **Moving in.** A tree is moved away from its place, and what is made of it is written to the
    target. -/
theorem balanced_moveIn (hs : w.statement? q = some s) (ht : w.statement? target = some t)
    (hne : q ≠ target) (hnamed : b.named = [target, q]) (hemptied : b.emptied = [q])
    (hnodes : u.nodes + b.loss w = s.nodes + t.nodes + b.gain) :
    b.Balanced w ((w.setStatement .empty q).setStatement u target) := by
  refine balanced_setAll [(q, .empty), (target, u)] ⟨by simpa using hne, ?_⟩ ?_ ?_ ?_
  · simp [Writable, hs, ht]
  · simpa [nodesAt_eq hs, nodesAt_eq ht] using hnodes
  · simp [hemptied]
  · simp [hnamed]

theorem balanced_assembling {m : Node} (hs : w.statement? q = some s)
    (ht : w.statement? target = some t) (hne : q ≠ target) (hu : u.nodes = {m} + s.nodes) :
    (assembling target q (some m)).Balanced w
      ((w.setStatement .empty q).setStatement u target) := by
  refine balanced_moveIn hs ht hne rfl rfl ?_
  have hloss : (assembling target q (some m)).loss w = t.nodes := by
    simp [assembling, loss, nodesAt_eq ht]
  have hgain : (assembling target q (some m)).gain = {m} := rfl
  rw [hu, hloss, hgain]
  ac_rfl

/-- A block replaces the tree at another place, and the target is left an empty block. -/
theorem balanced_takingApart (hs : w.statement? q = some s) (ht : w.statement? target = some t)
    (hne : q ≠ target) (hu : t.nodes = t.root + u.nodes) :
    (takingApart target q).Balanced w ((w.setStatement u q).setStatement .empty target) := by
  have hloss : (takingApart target q).loss w = s.nodes + t.root := by
    simp [takingApart, loss, nodesAt_eq hs, rootAt_eq ht]
  have hgain : (takingApart target q).gain = 0 := rfl
  refine balanced_setAll [(q, u), (target, .empty)] ⟨by simpa using hne, ?_⟩ ?_ ?_ ?_
  · simp [Writable, hs, ht]
  · simp only [List.map_cons, List.map_nil, List.sum_cons, List.sum_nil, Statement.nodes_empty,
      nodesAt_eq hs, nodesAt_eq ht, hloss, hgain, hu, add_zero]
    ac_rfl
  · simp [takingApart]
  · simp [takingApart]

end Ledger

/-! ### Moves -/

/-- An operation that moves trees from one statement to another. -/
inductive Move where
  | insertChild (target : Place) (index : Int) (child : Place)
  | removeChild (target : Place) (index : Int) (slot : String)
  | assembleIf (target : Place) (c : Option Condition) (body : Place)
  | assembleIfElse (target : Place) (c : Option Condition) (body alternative : Place)
  | assembleWhile (target : Place) (c : Option Condition) (body : Place)
  | disassembleIf (target body : Place)
  | disassembleIfElse (target body alternative : Place)
  | disassembleWhile (target body : Place)
  | transfer (target source : Place)
  deriving DecidableEq, Repr

namespace Move

/-- The move as an operation of the workspace. -/
def operation : Move → Operation
  | insertChild target index child => .insertChild (.place target) index (.place child)
  | removeChild target index slot => .removeChild (.place target) index slot
  | assembleIf target c body => .assembleIf (.place target) c (.place body)
  | assembleIfElse target c body alternative =>
    .assembleIfElse (.place target) c (.place body) (.place alternative)
  | assembleWhile target c body => .assembleWhile (.place target) c (.place body)
  | disassembleIf target body => .disassembleIf (.place target) (.place body)
  | disassembleIfElse target body alternative =>
    .disassembleIfElse (.place target) (.place body) (.place alternative)
  | disassembleWhile target body => .disassembleWhile (.place target) (.place body)
  | transfer target source => .transfer (.place target) (.place source)

/-- The books of the move. -/
def ledger : Move → Ledger
  | insertChild target _ child => { named := [target, child], emptied := [child] }
  | removeChild target _ slot => { named := [target], result := some slot }
  | assembleIf target c body => .assembling target body (c.map .ifThen)
  | assembleIfElse target c body alternative =>
    { named := [target, body, alternative], overwritten := [target],
      emptied := [body, alternative], made := c.map .ifElse }
  | assembleWhile target c body => .assembling target body (c.map .whileDo)
  | disassembleIf target body => .takingApart target body
  | disassembleIfElse target body alternative =>
    { named := [target, body, alternative], overwritten := [body, alternative],
      emptied := [target], undone := some target }
  | disassembleWhile target body => .takingApart target body
  | transfer target source =>
    { named := [target, source], overwritten := [target], emptied := [source] }

/-- What the move takes from its places arrives where it is to go: in the construct that is put
    together, at the places for the parts of the one that is taken apart, in the block, or in the
    slot for the child that is taken out of the block. -/
def Delivers (w w' : Workspace) : Move → Prop
  | insertChild target index child => ∃ ss s,
    w.statement? target = some (.block ss) ∧ w.statement? child = some s ∧
      w'.statement? target = some (.block (ss.insertIdx index.toNat s))
  | removeChild target index slot => ∃ ss s,
    w.statement? target = some (.block ss) ∧ ss[index.toNat]? = some s ∧
      w'.statement? target = some (.block (ss.eraseIdx index.toNat)) ∧
      w'.statement? (.slot slot) = some s
  | assembleIf target c body => ∃ d s, c = some d ∧
    w.statement? body = some s ∧ w'.statement? target = some (.ifThen d s)
  | assembleIfElse target c body alternative => ∃ d s t, c = some d ∧
    w.statement? body = some s ∧ w.statement? alternative = some t ∧
      w'.statement? target = some (.ifElse d s t)
  | assembleWhile target c body => ∃ d s, c = some d ∧
    w.statement? body = some s ∧ w'.statement? target = some (.whileDo d s)
  | disassembleIf target body => ∃ d s,
    w.statement? target = some (.ifThen d s) ∧ w'.statement? body = some s
  | disassembleIfElse target body alternative => ∃ d s t,
    w.statement? target = some (.ifElse d s t) ∧
      w'.statement? body = some s ∧ w'.statement? alternative = some t
  | disassembleWhile target body => ∃ d s,
    w.statement? target = some (.whileDo d s) ∧ w'.statement? body = some s
  | transfer target source => ∃ s,
    w.statement? source = some s ∧ w'.statement? target = some s

/-- The books of the move balance, and it delivers what it moves. -/
structure Conserves (m : Move) (w w' : Workspace) : Prop where
  balanced : m.ledger.Balanced w w'
  delivers : m.Delivers w w'

end Move

/-! ### One move after the other -/

namespace Move

open BL.Action Ledger Statement Workspace

variable {w w' : Workspace} {target p q : Place} {c : Option Condition} {s t : Statement}

theorem conserves_insertChild {index : Int} {a : Unit}
    (h : Action.insertChild target index (.place q) w = .ok a w') :
    (insertChild target index q).Conserves w w' := by
  rcases insertChild_cases h with hw | ⟨ss, _, s, ht, hi, hq, hs, hne, hres⟩
  · exact absurd hw not_refused_ok
  cases hq
  cases hres
  refine ⟨balanced_moveIn hs ht hne rfl rfl ?_, ss, s, ht, hs, (statement?_of_two hs ht hne _ _).2⟩
  rw [nodes_insertIdx hi]
  simp [ledger, loss, gain]

theorem conserves_removeChild {index : Int} {slot : String} {a : Unit}
    (hslot : w.content? slot = none)
    (h : Action.removeChild target index slot w = .ok a w') :
    (removeChild target index slot).Conserves w w' := by
  rcases removeChild_cases h with hw | ⟨ss, s, ht, hs, hres⟩
  · exact absurd hw not_refused_ok
  cases hres
  have hne : target ≠ .slot slot := by
    rintro rfl
    rw [statement?, hslot] at ht
    cases ht
  have hnone : w.nodesAt (.slot slot) = 0 := by
    rw [nodesAt, statement?, hslot]
    rfl
  have hes : w.AllWritable [(target, .block (ss.eraseIdx index.toNat)), (.slot slot, s)] :=
    ⟨by simpa using hne, by simp [Writable, ht, hslot]⟩
  refine ⟨balanced_setAll _ hes ?_ ?_ ?_, ss, s, ht, hs, statement?_setAll_of_mem hes (by simp),
    statement?_setAll_of_mem hes (by simp)⟩
  · simp only [List.map_cons, List.sum_cons, nodesAt_eq ht, hnone]
    rw [nodes_eraseIdx hs]
    simp [ledger, loss, gain, add_comm]
  · simp [ledger]
  · simp [ledger]

theorem conserves_assembleIf {a : Unit} (ht : w.statement? target = some t)
    (h : Action.assembleIf target c (.place q) w = .ok a w') :
    (assembleIf target c q).Conserves w w' := by
  rcases assembleIf_cases h with hw | ⟨d, _, s, rfl, hq, hs, hne, hres⟩
  · exact absurd hw not_refused_ok
  cases hq
  cases hres
  exact ⟨balanced_assembling hs ht hne (nodes_ifThen d s), d, s, rfl, hs,
    (statement?_of_two hs ht hne _ _).2⟩

theorem conserves_assembleWhile {a : Unit} (ht : w.statement? target = some t)
    (h : Action.assembleWhile target c (.place q) w = .ok a w') :
    (assembleWhile target c q).Conserves w w' := by
  rcases assembleWhile_cases h with hw | ⟨d, _, s, rfl, hq, hs, hne, hres⟩
  · exact absurd hw not_refused_ok
  cases hq
  cases hres
  exact ⟨balanced_assembling hs ht hne (nodes_whileDo d s), d, s, rfl, hs,
    (statement?_of_two hs ht hne _ _).2⟩

theorem conserves_assembleIfElse {a : Unit} (ht : w.statement? target = some t)
    (h : Action.assembleIfElse target c (.place p) (.place q) w = .ok a w') :
    (assembleIfElse target c p q).Conserves w w' := by
  rcases assembleIfElse_cases h with hw | ⟨e, _, _, _, hres⟩ |
    ⟨d, _, _, s, s', rfl, hp, hq, hs, hs', hne, hne', hdiff, hres⟩
  · exact absurd hw not_refused_ok
  · cases hres
  cases hp
  cases hq
  cases hres
  have hloss : (assembleIfElse target (some d) p q).ledger.loss w = t.nodes := by
    simp [ledger, loss, nodesAt_eq ht]
  have hgain : (assembleIfElse target (some d) p q).ledger.gain = {.ifElse d} := rfl
  have hes : w.AllWritable [(p, .empty), (q, .empty), (target, .ifElse d s s')] :=
    ⟨by simp [hne, hne', hdiff.symm], by simp [Writable, hs, hs', ht]⟩
  refine ⟨balanced_setAll _ hes ?_ ?_ ?_, d, s, s', rfl, hs, hs',
    statement?_setAll_of_mem hes (by simp)⟩
  · simp only [List.map_cons, List.map_nil, List.sum_cons, List.sum_nil, nodes_empty, nodes_ifElse,
      nodesAt_eq hs, nodesAt_eq hs', nodesAt_eq ht, hloss, hgain, add_zero, zero_add]
    ac_rfl
  · simp [ledger]
  · simp [ledger]

theorem conserves_disassembleIf {d : Condition} (hq : w.statement? q = some s)
    (h : Action.disassembleIf target (.place q) w = .ok d w') :
    (disassembleIf target q).Conserves w w' := by
  rcases disassembleIf_cases h with hw | ⟨d, u, ht, hne, ⟨e, hres⟩ | ⟨w₁, hhand, hres⟩⟩
  · exact absurd hw not_refused_ok
  · cases hres
  cases hres
  rw [hhand.eq_setStatement hq]
  have hne : q ≠ target := fun e => hne (e ▸ rfl)
  exact ⟨balanced_takingApart hq ht hne (nodes_ifThen d u), d, u, ht,
    (statement?_of_two hq ht hne _ _).1⟩

theorem conserves_disassembleWhile {d : Condition} (hq : w.statement? q = some s)
    (h : Action.disassembleWhile target (.place q) w = .ok d w') :
    (disassembleWhile target q).Conserves w w' := by
  rcases disassembleWhile_cases h with hw | ⟨d, u, ht, hne, ⟨e, hres⟩ | ⟨w₁, hhand, hres⟩⟩
  · exact absurd hw not_refused_ok
  · cases hres
  cases hres
  rw [hhand.eq_setStatement hq]
  have hne : q ≠ target := fun e => hne (e ▸ rfl)
  exact ⟨balanced_takingApart hq ht hne (nodes_whileDo d u), d, u, ht,
    (statement?_of_two hq ht hne _ _).1⟩

theorem conserves_disassembleIfElse {d : Condition} (hp : w.statement? p = some s)
    (hq : w.statement? q = some t)
    (h : Action.disassembleIfElse target (.place p) (.place q) w = .ok d w') :
    (disassembleIfElse target p q).Conserves w w' := by
  rcases disassembleIfElse_cases h with
    hw | ⟨d, u, u', ht, hne, hne', hsame,
      ⟨e, hres⟩ | ⟨w₁, hfirst, ⟨e, hres⟩ | ⟨w₂, hsecond, hres⟩⟩⟩
  · exact absurd hw not_refused_ok
  · cases hres
  · cases hres
  cases hres
  have hdiff : q ≠ p := by
    rintro rfl
    rw [sameAs_place_iff.2 rfl] at hsame
    cases hsame
  have hne : p ≠ target := fun e => hne (e ▸ rfl)
  have hne' : q ≠ target := fun e => hne' (e ▸ rfl)
  -- The second branch goes where it would have gone before the first one was handed out.
  have hq' : (w.setStatement u p).statement? q = some t :=
    (statement?_setStatement_of_ne hp hdiff).trans hq
  rw [hfirst.eq_setStatement hp] at hsecond
  rw [hsecond.eq_setStatement hq']
  have hloss : (disassembleIfElse target p q).ledger.loss w = s.nodes + t.nodes + {.ifElse d} := by
    simp [ledger, loss, nodesAt_eq hp, nodesAt_eq hq, rootAt_eq ht, root]
  have hgain : (disassembleIfElse target p q).ledger.gain = 0 := rfl
  have hes : w.AllWritable [(p, u), (q, u'), (target, .empty)] :=
    ⟨by simp [hne, hne', hdiff.symm], by simp [Writable, hp, hq, ht]⟩
  refine ⟨balanced_setAll _ hes ?_ ?_ ?_, d, u, u', ht, statement?_setAll_of_mem hes (by simp),
    statement?_setAll_of_mem hes (by simp)⟩
  · simp only [List.map_cons, List.map_nil, List.sum_cons, List.sum_nil, nodes_empty, nodes_ifElse,
      nodesAt_eq hp, nodesAt_eq hq, nodesAt_eq ht, hloss, hgain, add_zero]
    ac_rfl
  · simp [ledger]
  · simp [ledger]

theorem conserves_transfer {a : Unit} (ht : w.statement? target = some t)
    (h : Action.transfer target (.place q) w = .ok a w') :
    (transfer target q).Conserves w w' := by
  rcases transfer_cases h with hw | ⟨_, s, hq, hs, hne, hres⟩
  · exact absurd hw not_refused_ok
  cases hq
  cases hres
  refine ⟨balanced_moveIn hs ht hne rfl rfl ?_, s, hs, (statement?_of_two hs ht hne _ _).2⟩
  simp [ledger, loss, gain, nodesAt_eq ht]

end Move

/-! ### All moves -/

namespace Workspace

/-- **Conservation.** When a move succeeds that names statements only, and for the result a slot
    that is free, then its books balance: no node of a tree gets lost or comes twice, but for the
    trees that are overwritten, the node that is put together and the one that is taken apart; what
    was moved away, or taken apart, is left an empty block; all other statements stay as they were.
    And the trees that are moved arrive where they are to go. -/
theorem moves_conserve_nodes {w w' : Workspace} {m : Move} {a : Answer}
    (hnamed : ∀ p ∈ m.ledger.named, ∃ s, w.statement? p = some s)
    (hfree : ∀ n, m.ledger.result = some n → w.content? n = none)
    (h : w.step m.operation = (.ok a, w')) : m.Conserves w w' := by
  cases m with
  | insertChild target index child =>
    obtain ⟨t, ht⟩ := hnamed target List.mem_cons_self
    obtain ⟨_, hres⟩ := exists_of_step rfl ht h
    exact Move.conserves_insertChild hres
  | removeChild target index slot =>
    obtain ⟨t, ht⟩ := hnamed target List.mem_cons_self
    obtain ⟨_, hres⟩ := exists_of_step rfl ht h
    exact Move.conserves_removeChild (hfree slot rfl) hres
  | assembleIf target c body =>
    obtain ⟨t, ht⟩ := hnamed target List.mem_cons_self
    obtain ⟨_, hres⟩ := exists_of_step rfl ht h
    exact Move.conserves_assembleIf ht hres
  | assembleIfElse target c body alternative =>
    obtain ⟨t, ht⟩ := hnamed target List.mem_cons_self
    obtain ⟨_, hres⟩ := exists_of_step rfl ht h
    exact Move.conserves_assembleIfElse ht hres
  | assembleWhile target c body =>
    obtain ⟨t, ht⟩ := hnamed target List.mem_cons_self
    obtain ⟨_, hres⟩ := exists_of_step rfl ht h
    exact Move.conserves_assembleWhile ht hres
  | disassembleIf target body =>
    obtain ⟨t, ht⟩ := hnamed target List.mem_cons_self
    obtain ⟨s, hs⟩ := hnamed body (.tail _ List.mem_cons_self)
    obtain ⟨_, hres⟩ := exists_of_step rfl ht h
    exact Move.conserves_disassembleIf hs hres
  | disassembleIfElse target body alternative =>
    obtain ⟨t, ht⟩ := hnamed target List.mem_cons_self
    obtain ⟨s, hs⟩ := hnamed body (.tail _ List.mem_cons_self)
    obtain ⟨s', hs'⟩ := hnamed alternative (.tail _ (.tail _ List.mem_cons_self))
    obtain ⟨_, hres⟩ := exists_of_step rfl ht h
    exact Move.conserves_disassembleIfElse hs hs' hres
  | disassembleWhile target body =>
    obtain ⟨t, ht⟩ := hnamed target List.mem_cons_self
    obtain ⟨s, hs⟩ := hnamed body (.tail _ List.mem_cons_self)
    obtain ⟨_, hres⟩ := exists_of_step rfl ht h
    exact Move.conserves_disassembleWhile hs hres
  | transfer target source =>
    obtain ⟨t, ht⟩ := hnamed target List.mem_cons_self
    -- Programs are moved by the same operation, but there is a statement at the target.
    obtain ⟨_, hres⟩ := Action.exists_of_result (step_eq_ok_iff.1 h)
    rw [Action.transferTarget_eq ht] at hres
    exact Move.conserves_transfer ht hres

/-- The call goes into a conditional, which takes the place of the empty block, or out of its
    block. -/
theorem moves_conserve_nodes_sample :
    (∃ w', twoBlocks.step
          (Move.assembleIf (.slot "hollow") (some .random) (.slot "full")).operation =
        (.ok .nothing, w') ∧
      (Move.assembleIf (.slot "hollow") (some .random) (.slot "full")).Conserves twoBlocks w') ∧
      ∃ w', twoBlocks.step (Move.removeChild (.slot "full") 0 "out").operation =
          (.ok .nothing, w') ∧
        (Move.removeChild (.slot "full") 0 "out").Conserves twoBlocks w' := by
  have hfull : ∃ s, twoBlocks.statement? (.slot "full") = some s := ⟨.block [.call "move"], rfl⟩
  have hhollow : ∃ s, twoBlocks.statement? (.slot "hollow") = some s := ⟨.empty, rfl⟩
  constructor
  · refine ⟨_, rfl, moves_conserve_nodes ?_ nofun rfl⟩
    exact List.forall_mem_cons.2 ⟨hhollow, List.forall_mem_singleton.2 hfull⟩
  · refine ⟨_, rfl, moves_conserve_nodes (List.forall_mem_singleton.2 hfull) ?_ rfl⟩
    intro n hn
    cases hn
    rfl

end Workspace

end BL
