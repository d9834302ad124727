import BL.Proofs.Layout.Words
import BL.Proofs.Statement.Shape
import Mathlib.Data.List.Chain

namespace BL

open Layout

/-!
# Indentation is nesting

Every line that is printed belongs to a construct: to a call, or to a conditional or a loop, which
have a line for each of their keyword pairs.  How far a line stands in is told by the conditionals
and loops around its construct, and the number of lines by the constructs alone:

* `Statement.Row`, `Statement.rows` — the lines of a statement, each with its construct and with
  what this construct stands in;
* `Statement.forall_mem_rowsIn` — what is known of all rows, from the root down;
* `Statement.Row.BelongsTo` — a row belongs to a construct of the statement, and knows all that is
  around it;
* `Statement.lines_eq_map_rowsIn` — the printed lines are the rows, each as far in as it is nested;
* `Statement.constructs`, `Statement.length_rowsIn` — the constructs of a statement, and the number
  of their lines;
* `Statement.indentation_is_nesting` — where the lines of a printed statement stand, and how many
  there are.
-/

/-- What stands inside a construct of this kind stands further in. -/
def Kind.indents : Kind → Bool
  | .ifThen | .ifElse | .whileDo => true
  | .block | .call => false

namespace Layout

/-! ### Leading spaces -/

/-- The number of spaces with which a line begins. -/
def leadingSpaces (l : String) : Nat := (l.toList.takeWhile (· = ' ')).length

/-- The spaces of a line end where its first word begins. -/
theorem leadingSpaces_line (k : Int) {l : String} {ws : List String} (h : IsWords l ws) :
    leadingSpaces (line k l) = k.toNat := by
  obtain ⟨w, vs, rfl, rfl⟩ := h.joined
  have hshape := h.shaped w List.mem_cons_self
  cases hchars : w.toList with
  | nil => rw [hchars] at hshape; cases hshape
  | cons c cs =>
    have hc : c ≠ ' ' := by
      rintro rfl
      have hword := Word.isWordChar_of_mem hshape (hchars ▸ List.mem_cons_self)
      cases hword
    have hspaces : ∀ d ∈ List.replicate k.toNat ' ', decide (d = ' ') = true := by simp
    rw [leadingSpaces, line, String.toList_append, String.toList_ofList,
      List.takeWhile_append_of_pos hspaces, String.toList_append, hchars, List.cons_append,
      List.takeWhile_cons_of_neg (by simpa using hc)]
    simp

/-- Spaces in front of a line that stands in already. -/
theorem line_line (k j : Nat) (l : String) : line k (line j l) = line (k + j : Nat) l := by
  have hspaces : List.replicate (k + j) ' ' = List.replicate k ' ' ++ List.replicate j ' ' :=
    List.replicate_append_replicate.symm
  simp only [line, Int.toNat_natCast, hspaces, String.ofList_append, String.append_assoc]

end Layout

namespace Statement

/-! ### Rows -/

/-- A line of a statement, before it is indented. -/
structure Row where
  /-- The construct that the line belongs to. -/
  owner : Statement
  /-- The constructs around this one, the innermost first. -/
  enclosing : List Statement
  text : String

/-- The number of conditionals and loops among constructs. -/
def nesting (outer : List Statement) : Nat := outer.countP (·.kind.indents)

/-- The number of conditionals and loops around the construct of the line. -/
def Row.depth (r : Row) : Nat := nesting r.enclosing

/-- The lines of the construct at the root, without those of what stands inside. -/
def ownLines : Statement → List String
  | block _ => []
  | ifThen c _ => [ifLine c, "END IF"]
  | ifElse c _ _ => [ifLine c, "ELSE", "END IF"]
  | whileDo c _ => [whileLine c, "END WHILE"]
  | call name => [name]

mutual
/-- The lines of a statement inside others, in their order. -/
def rowsIn : List Statement → Statement → List Row
  | outer, .block children => rowsInAll (.block children :: outer) children
  | outer, .ifThen c body =>
    let s := ifThen c body
    ⟨s, outer, ifLine c⟩ :: (rowsIn (s :: outer) body ++ [⟨s, outer, "END IF"⟩])
  | outer, .ifElse c body alternative =>
    let s := ifElse c body alternative
    ⟨s, outer, ifLine c⟩ :: (rowsIn (s :: outer) body ++ ⟨s, outer, "ELSE"⟩ ::
      (rowsIn (s :: outer) alternative ++ [⟨s, outer, "END IF"⟩]))
  | outer, .whileDo c body =>
    let s := whileDo c body
    ⟨s, outer, whileLine c⟩ :: (rowsIn (s :: outer) body ++ [⟨s, outer, "END WHILE"⟩])
  | outer, .call name => [⟨.call name, outer, name⟩]

/-- The lines of several statements inside others. -/
def rowsInAll : List Statement → List Statement → List Row
  | _, [] => []
  | outer, s :: ss => rowsIn outer s ++ rowsInAll outer ss
end

/-- The lines of a statement. -/
def rows (s : Statement) : List Row := rowsIn [] s

theorem rowsInAll_eq_flatMap (outer ss : List Statement) :
    rowsInAll outer ss = ss.flatMap (rowsIn outer) := by
  induction ss with
  | nil => simp [rowsInAll]
  | cons s ss ih => simp [rowsInAll, ih]

@[simp] theorem rowsIn_block (outer ss : List Statement) :
    rowsIn outer (block ss) = ss.flatMap (rowsIn (block ss :: outer)) := by
  rw [rowsIn, rowsInAll_eq_flatMap]

/-- **From the root down.** What is handed down to the children of a construct is known at every
    construct, and so of every row. -/
theorem forall_mem_rowsIn {motive : List Statement → Statement → Prop} {P : Row → Prop}
    (hdown : ∀ outer s, motive outer s → ∀ t ∈ s.children, motive (s :: outer) t)
    (hown : ∀ outer s, motive outer s → ∀ text ∈ s.ownLines, P ⟨s, outer, text⟩)
    {outer : List Statement} {s : Statement} (h : motive outer s) : ∀ r ∈ rowsIn outer s, P r := by
  induction s generalizing outer with
  | block ss ih =>
    intro r hr
    rw [rowsIn_block, List.mem_flatMap] at hr
    obtain ⟨s, hs, hr⟩ := hr
    exact ih s hs (hdown _ _ h s hs) r hr
  | ifThen c s ih =>
    have hs := ih (hdown _ _ h s (by simp [children]))
    have ht := hown _ _ h
    simp only [ownLines, List.forall_mem_cons] at ht
    simp only [rowsIn, List.forall_mem_cons, List.forall_mem_append]
    exact ⟨ht.1, hs, ht.2.1, List.forall_mem_nil _⟩
  | ifElse c s t ih ih' =>
    have hs := ih (hdown _ _ h s (by simp [children]))
    have hs' := ih' (hdown _ _ h t (by simp [children]))
    have ht := hown _ _ h
    simp only [ownLines, List.forall_mem_cons] at ht
    simp only [rowsIn, List.forall_mem_cons, List.forall_mem_append]
    exact ⟨ht.1, hs, ht.2.1, hs', ht.2.2.1, List.forall_mem_nil _⟩
  | whileDo c s ih =>
    have hs := ih (hdown _ _ h s (by simp [children]))
    have ht := hown _ _ h
    simp only [ownLines, List.forall_mem_cons] at ht
    simp only [rowsIn, List.forall_mem_cons, List.forall_mem_append]
    exact ⟨ht.1, hs, ht.2.1, List.forall_mem_nil _⟩
  | call n =>
    have ht := hown _ _ h
    simp only [ownLines, List.forall_mem_singleton] at ht
    rw [rowsIn, List.forall_mem_singleton]
    exact ht

/-- The row belongs to a construct of the statement: it is one of its lines, and what the row names
    as enclosing it is the way from there up to the root, one construct inside the next. -/
structure Row.BelongsTo (r : Row) (s : Statement) : Prop where
  own : r.text ∈ r.owner.ownLines
  inside : List.IsChain (fun t u => t ∈ u.children) (r.owner :: r.enclosing)
  root : (r.owner :: r.enclosing).getLast? = some s

theorem belongsTo_of_mem_rows {s : Statement} {r : Row} (h : r ∈ s.rows) : r.BelongsTo s := by
  refine forall_mem_rowsIn (P := (·.BelongsTo s))
    (motive := fun outer t => List.IsChain (fun t u => t ∈ u.children) (t :: outer) ∧
      (t :: outer).getLast? = some s) ?_ ?_ ⟨.singleton s, rfl⟩ r h
  · rintro outer t ⟨hchain, hlast⟩ u hu
    exact ⟨hchain.cons_cons hu, by rwa [List.getLast?_cons_cons]⟩
  · rintro outer t ⟨hchain, hlast⟩ text htext
    exact ⟨htext, hchain, hlast⟩

/-- The lines of a well-formed construct are words. -/
theorem isWords_of_mem_ownLines {s : Statement} (hs : s.WellFormed) :
    ∀ text ∈ s.ownLines, ∃ ws, IsWords text ws := by
  cases s with
  | block ss => exact List.forall_mem_nil _
  | ifThen c s =>
    simp only [ownLines, List.forall_mem_cons]
    exact ⟨⟨_, isWords_ifLine c⟩, ⟨_, isWords_endIf⟩, List.forall_mem_nil _⟩
  | ifElse c s t =>
    simp only [ownLines, List.forall_mem_cons]
    exact ⟨⟨_, isWords_ifLine c⟩, ⟨_, isWords_else⟩, ⟨_, isWords_endIf⟩, List.forall_mem_nil _⟩
  | whileDo c s =>
    simp only [ownLines, List.forall_mem_cons]
    exact ⟨⟨_, isWords_whileLine c⟩, ⟨_, isWords_endWhile⟩, List.forall_mem_nil _⟩
  | call n =>
    rw [ownLines, List.forall_mem_singleton]
    exact ⟨_, isWords_name (wellFormed_call.1 hs)⟩

/-- The rows of a well-formed statement are words. -/
theorem isWords_of_mem_rows {s : Statement} (hs : s.WellFormed) {r : Row} (h : r ∈ s.rows) :
    ∃ ws, IsWords r.text ws :=
  forall_mem_rowsIn (P := fun r => ∃ ws, IsWords r.text ws) (motive := fun _ t => t.WellFormed)
    (fun _ _ hs => (wellFormed_iff_children.1 hs).2)
    (fun _ _ hs text => isWords_of_mem_ownLines hs text) hs r h

/-! ### Lines -/

/-- Around the parts of a conditional or a loop there is one of them more. -/
theorem nesting_cons {s : Statement} (h : s.kind.indents = true) (outer : List Statement) :
    nesting (s :: outer) = nesting outer + 1 :=
  List.countP_cons_of_pos h

/-- What stands inside a conditional or a loop stands one indentation further in. -/
theorem further_in (indent k : Int) {s : Statement} (h : s.kind.indents = true)
    (outer : List Statement) :
    k + indent * nesting outer + indent = k + indent * nesting (s :: outer) := by
  rw [nesting_cons h, Int.natCast_add, Int.mul_add, Int.add_assoc, Int.natCast_one, Int.mul_one]

/-- **Lines and rows.** The printed lines are the rows in the same order, each as far in as there
    are conditionals and loops around its construct. -/
theorem lines_eq_map_rowsIn (indent k : Int) (outer : List Statement) (s : Statement) :
    s.lines indent (k + indent * nesting outer) =
      (rowsIn outer s).map fun r => line (k + indent * r.depth) r.text := by
  induction s generalizing outer with
  | block ss ih =>
    rw [lines_block, rowsIn_block, List.map_flatMap]
    exact List.flatMap_congr fun s hs => ih s hs (block ss :: outer)
  | ifThen c s ih =>
    simp [lines, rowsIn, further_in (s := ifThen c s) indent k rfl, ih, Row.depth]
  | ifElse c s t ih ih' =>
    simp [lines, rowsIn, further_in (s := ifElse c s t) indent k rfl, ih, ih', Row.depth]
  | whileDo c s ih =>
    simp [lines, rowsIn, further_in (s := whileDo c s) indent k rfl, ih, Row.depth]
  | call n => simp [lines, rowsIn, Row.depth]

/-- The lines of a whole statement. -/
theorem lines_eq_map_rows (indent k : Int) (s : Statement) :
    s.lines indent k = s.rows.map fun r => line (k + indent * r.depth) r.text := by
  have h := lines_eq_map_rowsIn indent k [] s
  simpa [nesting, rows] using h

/-! ### The number of lines -/

mutual
/-- All constructs of a statement. -/
def constructs : Statement → List Statement
  | .block children => .block children :: constructsAll children
  | .ifThen c body => .ifThen c body :: constructs body
  | .ifElse c body alternative =>
    .ifElse c body alternative :: (constructs body ++ constructs alternative)
  | .whileDo c body => .whileDo c body :: constructs body
  | .call name => [.call name]

/-- All constructs of several statements. -/
def constructsAll : List Statement → List Statement
  | [] => []
  | s :: ss => constructs s ++ constructsAll ss
end

theorem constructsAll_eq_flatMap (ss : List Statement) :
    constructsAll ss = ss.flatMap constructs := by
  induction ss with
  | nil => simp [constructsAll]
  | cons s ss ih => simp [constructsAll, ih]

/-- The number of constructs of a kind. -/
def count (k : Kind) (s : Statement) : Nat := s.constructs.countP (·.kind = k)

/-- Every construct has its own lines, and nothing else has lines. -/
theorem length_rowsIn (outer : List Statement) (s : Statement) :
    (rowsIn outer s).length = (s.constructs.flatMap ownLines).length := by
  induction s generalizing outer with
  | block ss ih =>
    have hlength : ∀ ts ⊆ ss, (ts.flatMap (rowsIn (block ss :: outer))).length =
        ((ts.flatMap constructs).flatMap ownLines).length := by
      intro ts hts
      induction ts with
      | nil => rfl
      | cons t ts ih' =>
        obtain ⟨ht, hts⟩ := List.cons_subset.1 hts
        rw [List.flatMap_cons, List.flatMap_cons, List.flatMap_append, List.length_append,
          List.length_append, ih t ht, ih' hts]
    rw [rowsIn_block, hlength ss (List.Subset.refl ss), constructs, constructsAll_eq_flatMap]
    simp only [List.flatMap_cons, ownLines, List.nil_append]
  | ifThen c s ih =>
    simp only [rowsIn, constructs, ownLines, List.length_cons, List.length_append, ih,
      List.flatMap_cons, List.length_nil]
    omega
  | ifElse c s t ih ih' =>
    simp only [rowsIn, constructs, ownLines, List.length_cons, List.length_append, ih, ih',
      List.flatMap_cons, List.flatMap_append, List.length_nil]
    omega
  | whileDo c s ih =>
    simp only [rowsIn, constructs, ownLines, List.length_cons, List.length_append, ih,
      List.flatMap_cons, List.length_nil]
    omega
  | call n => rfl

/-- Constructs of a kind have equally many lines. -/
theorem length_flatMap_ownLines (ss : List Statement) :
    (ss.flatMap ownLines).length =
      ss.countP (·.kind = .call) + 2 * ss.countP (·.kind = .ifThen) +
        3 * ss.countP (·.kind = .ifElse) + 2 * ss.countP (·.kind = .whileDo) := by
  induction ss with
  | nil => rfl
  | cons s ss ih =>
    rw [List.flatMap_cons, List.length_append, ih]
    cases s <;> simp [ownLines] <;> omega

theorem length_rows (s : Statement) :
    s.rows.length = s.count .call + 2 * s.count .ifThen + 3 * s.count .ifElse +
      2 * s.count .whileDo := by
  rw [rows, length_rowsIn, length_flatMap_ownLines]
  rfl

/-! ### Printed statements -/

/-- **Indentation is nesting.** A well-formed statement is printed as its rows, in their order, each
    after `k` spaces and `indent` more for every conditional or loop around the construct that it
    belongs to, and after no other space.  So printing further in sets the same number of spaces in
    front of every line.  A call takes one line, a conditional with one branch or a loop two, and a
    conditional with two branches three; nothing else takes a line. -/
theorem indentation_is_nesting (s : Statement) (hs : s.WellFormed) (indent k : Nat) :
    ∃ p q, (Printer.ofIndent indent).statement 0 s = .ok (p, s) ∧
      (Printer.ofIndent indent).statement k s = .ok (q, s) ∧
      q.lines = p.lines.map (line k) ∧
      q.lines = s.rows.map (fun r => line (k + indent * r.depth : Nat) r.text) ∧
      q.lines.map leadingSpaces = s.rows.map (fun r => k + indent * r.depth) ∧
      (∀ r ∈ s.rows, r.BelongsTo s) ∧
      q.lines.length = s.count .call + 2 * s.count .ifThen + 3 * s.count .ifElse +
        2 * s.count .whileDo := by
  have hlines : ∀ j : Nat, s.lines indent j =
      s.rows.map fun r => line (j + indent * r.depth : Nat) r.text := by
    intro j
    rw [lines_eq_map_rows]
    push_cast
    rfl
  refine ⟨_, _, Printer.statement_eq _ _ hs, Printer.statement_eq _ _ hs, ?_, hlines k, ?_,
    fun r => belongsTo_of_mem_rows, ?_⟩
  · show s.lines indent k = (s.lines indent (0 : Nat)).map (line k)
    rw [hlines, hlines, List.map_map]
    refine List.map_congr_left fun r _ => ?_
    rw [Function.comp_apply, line_line, Nat.zero_add]
  · show (s.lines indent k).map leadingSpaces = _
    rw [hlines, List.map_map]
    refine List.map_congr_left fun r hr => ?_
    obtain ⟨ws, hws⟩ := isWords_of_mem_rows hs hr
    rw [Function.comp_apply, leadingSpaces_line _ hws, Int.toNat_natCast]
  · show (s.lines indent k).length = _
    rw [hlines, List.length_map, length_rows]

/-- A conditional with an empty branch, in a loop behind a call. -/
def nestedSample : Statement :=
  .block [.call "move", .whileDo .always
    (.block [.ifElse .random (.block [.call "skip"]) (.block [])])]

/-- The lines of this statement, three spaces further in for each construct around them. -/
theorem indentation_is_nesting_sample :
    ∃ q, (Printer.ofIndent 3).statement 1 nestedSample = .ok (q, nestedSample) ∧
      q.lines.map leadingSpaces = [1, 1, 4, 7, 4, 4, 1] ∧ q.lines.length = 7 := by
  obtain ⟨p, q, -, hq, -, -, hspaces, -, hlength⟩ :=
    indentation_is_nesting nestedSample (by decide) 3 1
  exact ⟨q, hq, hspaces.trans (by decide), hlength.trans (by decide)⟩

end Statement

end BL
