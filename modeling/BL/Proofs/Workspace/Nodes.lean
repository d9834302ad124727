import BL.Proofs.Workspace.Exchange
import Mathlib.Algebra.BigOperators.Group.List.Basic
import Mathlib.Algebra.Order.Group.Multiset
import Mathlib.Data.List.Perm.Basic

namespace BL

/-!
# The nodes of statements

Blocks come and go, but conditionals, loops and calls are there to stay.  They are counted here, in
a statement and in a whole workspace, each as often as it occurs:

* `Node`, `Statement.nodes`, `Statement.root` — the constructs that are no blocks, all of them in a
  tree, and the one at its root;
* `Table.total` — what the values of a table weigh together;
* `Workspace.nodes`, `Workspace.nodesAt`, `Workspace.rootAt` — the nodes of a workspace, and at a
  place in it;
* `Workspace.nodes_setStatement` — what writing a statement does to them;
* `Workspace.setAll`, `Workspace.nodes_setAll` — the same for several statements at different
  places, by induction on their number.
-/

/-! ### Nodes -/

/-- What stands at the root of a statement that is no block. -/
inductive Node where
  | ifThen (c : Condition)
  | ifElse (c : Condition)
  | whileDo (c : Condition)
  | call (name : String)
  deriving DecidableEq, Repr

namespace Statement

/-- The node at the root; a block has none. -/
def root : Statement → Multiset Node
  | block _ => 0
  | ifThen c _ => {.ifThen c}
  | ifElse c _ _ => {.ifElse c}
  | whileDo c _ => {.whileDo c}
  | call name => {.call name}

mutual
/-- All nodes of the tree, each as often as it occurs. -/
def nodes : Statement → Multiset Node
  | .block children => nodesAll children
  | .ifThen c body => {.ifThen c} + body.nodes
  | .ifElse c body alternative => {.ifElse c} + (body.nodes + alternative.nodes)
  | .whileDo c body => {.whileDo c} + body.nodes
  | .call name => {.call name}

/-- All nodes of several trees. -/
def nodesAll : List Statement → Multiset Node
  | [] => 0
  | s :: ss => s.nodes + nodesAll ss
end

theorem nodesAll_eq_sum (ss : List Statement) : nodesAll ss = (ss.map nodes).sum := by
  induction ss with
  | nil => rfl
  | cons s ss ih => rw [nodesAll, ih, List.map_cons, List.sum_cons]

@[simp] theorem nodes_empty : empty.nodes = 0 := rfl

@[simp] theorem nodes_block (ss : List Statement) : (block ss).nodes = (ss.map nodes).sum := by
  rw [nodes, nodesAll_eq_sum]

@[simp] theorem nodes_ifThen (c : Condition) (s : Statement) :
    (ifThen c s).nodes = {.ifThen c} + s.nodes := by rw [nodes]

@[simp] theorem nodes_ifElse (c : Condition) (s t : Statement) :
    (ifElse c s t).nodes = {.ifElse c} + (s.nodes + t.nodes) := by rw [nodes]

@[simp] theorem nodes_whileDo (c : Condition) (s : Statement) :
    (whileDo c s).nodes = {.whileDo c} + s.nodes := by rw [nodes]

@[simp] theorem nodes_call (n : String) : (call n).nodes = {.call n} := by rw [nodes]

/-- A child more adds its nodes, wherever it stands. -/
theorem nodes_insertIdx {ss : List Statement} {i : Nat} (hi : i ≤ ss.length) (s : Statement) :
    (block (ss.insertIdx i s)).nodes = s.nodes + (block ss).nodes := by
  have hperm := ((List.perm_insertIdx s ss hi).map nodes).sum_eq
  rwa [List.map_cons, List.sum_cons, ← nodes_block, ← nodes_block] at hperm

/-- A child less takes its nodes away. -/
theorem nodes_eraseIdx {ss : List Statement} {i : Nat} {s : Statement} (hs : ss[i]? = some s) :
    (block ss).nodes = s.nodes + (block (ss.eraseIdx i)).nodes := by
  obtain ⟨hi, rfl⟩ := List.getElem?_eq_some_iff.1 hs
  have hperm := ((List.getElem_cons_eraseIdx_perm hi).map nodes).sum_eq
  rw [List.map_cons, List.sum_cons, ← nodes_block, ← nodes_block] at hperm
  exact hperm.symm

end Statement

/-! ### Tables -/

namespace Table

variable {α M : Type} [AddCommMonoid M] {f : α → M} {t : Table α} {name : String} {u v : α}

/-- The sum of what the values weigh. -/
def total (f : α → M) (t : Table α) : M := (t.entries.map fun e => f e.2).sum

theorem sum_insertEntry_of_some {es : List (String × α)} (h : es.lookup name = some v) :
    ((insertEntry name u es).map fun e => f e.2).sum + f v
      = (es.map fun e => f e.2).sum + f u := by
  induction es with
  | nil => cases h
  | cons e es ih =>
    obtain ⟨k, x⟩ := e
    by_cases hk : k = name
    · subst hk
      obtain rfl : x = v := by simpa using h
      simp only [insertEntry, if_pos, List.map_cons, List.sum_cons]
      ac_rfl
    · rw [lookup_cons_of_ne (Ne.symm hk)] at h
      simp only [insertEntry, if_neg hk, List.map_cons, List.sum_cons]
      rw [add_assoc, ih h, add_assoc]

theorem sum_insertEntry_of_none {es : List (String × α)} (h : es.lookup name = none) :
    ((insertEntry name u es).map fun e => f e.2).sum = (es.map fun e => f e.2).sum + f u := by
  induction es with
  | nil => simp [insertEntry]
  | cons e es ih =>
    obtain ⟨k, x⟩ := e
    by_cases hk : k = name
    · subst hk
      simp at h
    · rw [lookup_cons_of_ne (Ne.symm hk)] at h
      simp only [insertEntry, if_neg hk, List.map_cons, List.sum_cons]
      rw [ih h, add_assoc]

/-- A new value takes the weight of the former one away and adds its own. -/
theorem total_insert_of_some (h : t.find? name = some v) :
    (t.insert name u).total f + f v = t.total f + f u :=
  sum_insertEntry_of_some h

/-- A value under a new name adds its weight. -/
theorem total_insert_of_none (h : t.find? name = none) :
    (t.insert name u).total f = t.total f + f u :=
  sum_insertEntry_of_none h

end Table

/-! ### Workspaces -/

/-- All nodes of all statements of the content. -/
def Content.nodes : Content → Multiset Node
  | statement s => s.nodes
  | program p => p.body.nodes + p.context.total Statement.nodes
  | context c => c.total Statement.nodes
  | queue _ | printer _ => 0

/-- If a part of a whole changes its weight, then so does the whole. -/
theorem add_eq_add_of_part {M : Type} [AddCancelCommMonoid M] {whole whole' part part' x y z : M}
    (h : whole' + (z + part) = whole + (z + part')) (hpart : part' + y = part + x) :
    whole' + y = whole + x := by
  refine add_right_cancel (b := z + part) ?_
  calc whole' + y + (z + part) = whole' + (z + part) + y := by ac_rfl
    _ = whole + (z + part') + y := by rw [h]
    _ = whole + z + (part' + y) := by ac_rfl
    _ = whole + z + (part + x) := by rw [hpart]
    _ = whole + x + (z + part) := by ac_rfl

namespace Workspace

variable {w w' : Workspace} {p q : Place} {s t : Statement} {n : String} {c d : Content}

/-- All nodes of all statements in the workspace. -/
def nodes (w : Workspace) : Multiset Node := w.slots.total Content.nodes

/-- The nodes of the statement at a place. -/
def nodesAt (w : Workspace) (p : Place) : Multiset Node :=
  ((w.statement? p).map Statement.nodes).getD 0

/-- The node at the root of the statement at a place. -/
def rootAt (w : Workspace) (p : Place) : Multiset Node :=
  ((w.statement? p).map Statement.root).getD 0

theorem nodesAt_eq (h : w.statement? p = some s) : w.nodesAt p = s.nodes := by
  rw [nodesAt, h]
  rfl

theorem rootAt_eq (h : w.statement? p = some s) : w.rootAt p = s.root := by
  rw [rootAt, h]
  rfl

theorem nodes_setContent (h : w.content? n = some c) :
    (w.setContent n d).nodes + c.nodes = w.nodes + d.nodes :=
  Table.total_insert_of_some h

theorem nodes_setContent_of_none (h : w.content? n = none) :
    (w.setContent n d).nodes = w.nodes + d.nodes :=
  Table.total_insert_of_none h

/-- **Writing** a statement takes away the nodes of the former one. -/
theorem nodes_setStatement (h : w.statement? p = some t) (s : Statement) :
    (w.setStatement s p).nodes + t.nodes = w.nodes + s.nodes := by
  cases p with
  | slot n =>
    simp only [statement?] at h
    split at h
    · rename_i u hu
      cases h
      exact nodes_setContent hu
    · cases h
  | body n =>
    simp only [statement?] at h
    split at h
    · rename_i r hr
      cases h
      have hslot := nodes_setContent (d := .program { r with body := s }) hr
      simp only [setStatement, hr]
      rw [Content.nodes, Content.nodes, add_comm r.body.nodes, add_comm s.nodes] at hslot
      exact add_eq_add_of_part hslot (add_comm _ _)
    · cases h
  | entry n m =>
    simp only [statement?] at h
    split at h
    · rename_i r hr
      have hslot := nodes_setContent
        (d := .program { r with context := r.context.insert m s }) hr
      simp only [setStatement, hr]
      exact add_eq_add_of_part hslot (Table.total_insert_of_some h)
    · rename_i r hr
      have hslot := nodes_setContent (d := .context (r.insert m s)) hr
      simp only [setStatement, hr]
      refine add_eq_add_of_part (z := 0) ?_ (Table.total_insert_of_some h)
      rw [zero_add, zero_add]
      exact hslot
    · cases h

/-! ### Several statements at once -/

/-- A statement may be written at the place: there is one already, or it is a slot that is still
    free. -/
def Writable (w : Workspace) (p : Place) : Prop :=
  (∃ s, w.statement? p = some s) ∨ ∃ n, p = .slot n ∧ w.content? n = none

/-- Where a slot is free, there is no statement, neither in it nor inside of it. -/
theorem statement?_setStatement_of_writable (h : w.Writable p) (s : Statement) (q : Place) :
    (w.setStatement s p).statement? q = if q = p then some s else w.statement? q := by
  rcases h with ⟨t, ht⟩ | ⟨n, rfl, hn⟩
  · exact statement?_setStatement ht q
  · cases q with
    | slot m =>
      by_cases hm : m = n
      · simp [setStatement, statement?, hm]
      · simp [setStatement, statement?, hm]
    | body m =>
      by_cases hm : m = n
      · subst hm
        simp [setStatement, statement?, hn]
      · simp [setStatement, statement?, hm]
    | entry m k =>
      by_cases hm : m = n
      · subst hm
        simp [setStatement, statement?, hn]
      · simp [setStatement, statement?, hm]

theorem nodes_setStatement_of_writable (h : w.Writable p) (s : Statement) :
    (w.setStatement s p).nodes + w.nodesAt p = w.nodes + s.nodes := by
  rcases h with ⟨t, ht⟩ | ⟨n, rfl, hn⟩
  · rw [nodesAt_eq ht]
    exact nodes_setStatement ht s
  · have hnone : w.nodesAt (.slot n) = 0 := by
      rw [nodesAt, statement?, hn]
      rfl
    rw [hnone, add_zero]
    exact nodes_setContent_of_none hn

/-- Writing at one place leaves the others writable. -/
theorem Writable.setStatement (hp : w.Writable p) (hq : w.Writable q) (hne : q ≠ p) :
    (w.setStatement s p).Writable q := by
  rcases hq with ⟨t, ht⟩ | ⟨n, rfl, hn⟩
  · refine .inl ⟨t, ?_⟩
    rw [statement?_setStatement_of_writable hp, if_neg hne, ht]
  · refine .inr ⟨n, rfl, ?_⟩
    rcases hp with ⟨t, ht⟩ | ⟨m, rfl, hm⟩
    · -- What is written is part of what another slot holds.
      have hrel := sameOutline_setStatement ht s n
      rw [hn] at hrel
      cases hrel' : (w.setStatement s p).content? n with
      | none => rfl
      | some c =>
        rw [hrel'] at hrel
        cases hrel
    · have hnm : n ≠ m := fun e => hne (e ▸ rfl)
      simp [Workspace.setStatement, hnm, hn]

/-- Several statements are written, one after the other. -/
def setAll (w : Workspace) (es : List (Place × Statement)) : Workspace :=
  es.foldl (fun w e => w.setStatement e.2 e.1) w

/-- Statements may be written at all of the places, and no place comes twice. -/
structure AllWritable (w : Workspace) (es : List (Place × Statement)) : Prop where
  distinct : (es.map Prod.fst).Nodup
  writable : ∀ e ∈ es, w.Writable e.1

variable {e : Place × Statement} {es : List (Place × Statement)}

theorem AllWritable.head (h : w.AllWritable (e :: es)) : w.Writable e.1 :=
  h.writable e List.mem_cons_self

theorem AllWritable.ne (h : w.AllWritable (e :: es)) {x : Place × Statement} (hx : x ∈ es) :
    x.1 ≠ e.1 := fun heq =>
  (List.nodup_cons.1 h.distinct).1 (heq ▸ List.mem_map_of_mem hx)

/-- When the first one is written, the others may still be. -/
theorem AllWritable.tail (h : w.AllWritable (e :: es)) :
    (w.setStatement e.2 e.1).AllWritable es where
  distinct := (List.nodup_cons.1 h.distinct).2
  writable x hx := h.head.setStatement (h.writable x (.tail _ hx)) (h.ne hx)

/-- **Nodes.** What is overwritten is lost, and what is written is there. -/
theorem nodes_setAll (h : w.AllWritable es) :
    (w.setAll es).nodes + (es.map fun e => w.nodesAt e.1).sum
      = w.nodes + (es.map fun e => e.2.nodes).sum := by
  induction es generalizing w with
  | nil => rfl
  | cons e es ih =>
    -- The statements at the other places are still those that were there at the beginning.
    have hsame : (es.map fun x => (w.setStatement e.2 e.1).nodesAt x.1)
        = es.map fun x => w.nodesAt x.1 := by
      refine List.map_congr_left fun x hx => ?_
      rw [nodesAt, statement?_setStatement_of_writable h.head, if_neg (h.ne hx), nodesAt]
    have hrest := ih h.tail
    rw [hsame] at hrest
    rw [List.map_cons, List.sum_cons, List.map_cons, List.sum_cons]
    calc (w.setAll (e :: es)).nodes + (w.nodesAt e.1 + (es.map fun x => w.nodesAt x.1).sum)
        = ((w.setStatement e.2 e.1).setAll es).nodes + (es.map fun x => w.nodesAt x.1).sum
            + w.nodesAt e.1 := by
          rw [add_comm (w.nodesAt e.1), ← add_assoc]
          rfl
      _ = (w.setStatement e.2 e.1).nodes + w.nodesAt e.1 + (es.map fun x => x.2.nodes).sum := by
          rw [hrest, add_right_comm]
      _ = w.nodes + (e.2.nodes + (es.map fun x => x.2.nodes).sum) := by
          rw [nodes_setStatement_of_writable h.head, add_assoc]

/-- Elsewhere the statements stay. -/
theorem statement?_setAll_of_notMem (h : w.AllWritable es) (hq : q ∉ es.map Prod.fst) :
    (w.setAll es).statement? q = w.statement? q := by
  induction es generalizing w with
  | nil => rfl
  | cons e es ih =>
    rw [List.map_cons, List.mem_cons, not_or] at hq
    exact (ih h.tail hq.2).trans
      ((statement?_setStatement_of_writable h.head _ _).trans (if_neg hq.1))

/-- At the places themselves there is what was written. -/
theorem statement?_setAll_of_mem (h : w.AllWritable es) (hq : (q, s) ∈ es) :
    (w.setAll es).statement? q = some s := by
  induction es generalizing w with
  | nil => cases hq
  | cons e es ih =>
    rcases List.mem_cons.1 hq with rfl | hq
    · have hnew := (List.nodup_cons.1 h.distinct).1
      exact (statement?_setAll_of_notMem h.tail hnew).trans
        ((statement?_setStatement_of_writable h.head _ _).trans (if_pos rfl))
    · exact ih h.tail hq

end Workspace

end BL
