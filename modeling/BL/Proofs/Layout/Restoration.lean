import BL.Layout.Dump
import BL.Proofs.RoundTrip

namespace BL

/-!
# Printing follows the tree

A printer takes a statement apart, construct by construct, and puts each construct together again
once its parts are printed.  In between the statement is in pieces.  Still it prints what a
recursion on the tree prescribes, line by line or in parentheses.

* `Printer.inPassing` — printing line by line, each line as soon as its construct is taken apart;
* `Printer.inPassing_eq` — it is the printing of all lines at the end, also where it fails;
* `Statement.parenthesized`, `Statement.tree_eq_parenthesized` — the text of a tree, by recursion on
  the tree.
-/

/-! ### Line by line -/

namespace Printer

/-- Prints the children of a block from the given number on, each while it is out of the block. -/
def childrenInPassing (visit : Printer → Statement → Except Fault (Printer × Statement)) :
    Nat → Nat → Printer → Statement → Except Fault (Printer × Statement)
  | 0, _, p, s => .ok (p, s)
  | n + 1, i, p, s => do
    let (child, s) ← Fault.ofViolation (s.removeChild i)
    let (p, child) ← visit p child
    let s ← Fault.ofViolation (s.insertChild i child)
    childrenInPassing visit n (i + 1) p s

/-- Prints a statement, `k` spaces in and as deep as the number says: each line as soon as its
    construct is taken apart, and before it is put together again. -/
def inPassing : Nat → Int → Printer → Statement → Except Fault (Printer × Statement)
  | 0, _, _, _ => .error .exhausted
  | n + 1, k, p, s =>
    match s.kind with
    | .block => do
      let count ← Fault.ofViolation s.blockLength
      childrenInPassing (inPassing n k) count 0 p s
    | .ifThen => do
      let (c, body) ← Fault.ofViolation s.disassembleIf
      let p := p.emit k (Layout.ifLine c)
      let (p, body) ← inPassing n (k + p.indent) p body
      -- The closing line, too, is printed while the construct is in pieces.
      let p := p.emit k "END IF"
      let s ← Fault.ofViolation (Statement.assembleIf (some c) body)
      return (p, s)
    | .ifElse => do
      let (c, body, alternative) ← Fault.ofViolation s.disassembleIfElse
      let p := p.emit k (Layout.ifLine c)
      let (p, body) ← inPassing n (k + p.indent) p body
      let p := p.emit k "ELSE"
      let (p, alternative) ← inPassing n (k + p.indent) p alternative
      let p := p.emit k "END IF"
      let s ← Fault.ofViolation (Statement.assembleIfElse (some c) body alternative)
      return (p, s)
    | .whileDo => do
      let (c, body) ← Fault.ofViolation s.disassembleWhile
      let p := p.emit k (Layout.whileLine c)
      let (p, body) ← inPassing n (k + p.indent) p body
      let p := p.emit k "END WHILE"
      let s ← Fault.ofViolation (Statement.assembleWhile (some c) body)
      return (p, s)
    | .call => do
      let name ← Fault.ofViolation s.disassembleCall
      let p := p.emit k name
      let s ← Fault.ofViolation (Statement.assembleCall (some name))
      return (p, s)

/-- The printer with the lines that a walk gives, `k` spaces in. -/
def write (p : Printer) (k : Int) (r : (Int → List String) × Statement) : Printer × Statement :=
  (p.emitAll (r.1 k), r.2)

variable {p : Printer} {k : Int}

theorem childrenInPassing_eq {print : Printer → Statement → Except Fault (Printer × Statement)}
    {visit : Statement → Except Fault ((Int → List String) × Statement)}
    (h : ∀ q s, q.indent = p.indent → print q s = q.write k <$> visit s) (n i : Nat)
    (s : Statement) :
    childrenInPassing print n i p s =
      (fun r => (p.emitAll (r.1.flatMap (· k)), r.2)) <$> Statement.walkChildren visit n i s := by
  induction n generalizing i p s with
  | zero => simp [childrenInPassing, Statement.walkChildren]
  | succ n ih =>
    -- A printer with more lines has the same indent.
    have hrest : ∀ part i s, childrenInPassing print n i (p.emitAll part) s =
        (fun r => ((p.emitAll part).emitAll (r.1.flatMap (· k)), r.2)) <$>
          Statement.walkChildren visit n i s :=
      fun part i s => ih (p := p.emitAll part) (fun q s hq => h q s hq) i s
    simp [childrenInPassing, Statement.walkChildren, h p _ rfl, write, hrest]

/-- **Printing line by line.** It adds the lines of the whole, and fails where taking apart or
    putting together fails. -/
theorem inPassing_eq (n : Nat) (k : Int) (p : Printer) (s : Statement) :
    inPassing n k p s = p.write k <$> s.walkWithin (Layout.lines p.indent) n := by
  induction n generalizing k p s with
  | zero => rfl
  | succ n ih =>
    cases s with
    | block ss =>
      have hvisit : ∀ q t, q.indent = p.indent →
          inPassing n k q t = q.write k <$> t.walkWithin (Layout.lines p.indent) n :=
        fun q t hq => hq ▸ ih k q t
      simp [inPassing, Statement.walkWithin, childrenInPassing_eq hvisit, write]
    | ifThen c body =>
      simp [inPassing, Statement.walkWithin, Statement.disassembleIf, ih, write, emit]
    | ifElse c body alternative =>
      simp [inPassing, Statement.walkWithin, Statement.disassembleIfElse, ih, write, emit]
    | whileDo c body =>
      simp [inPassing, Statement.walkWithin, Statement.disassembleWhile, ih, write, emit]
    | call name =>
      simp [inPassing, Statement.walkWithin, Statement.disassembleCall, write, emit]

/-- A printer that takes a statement apart line by line is the printer of statements. -/
theorem inPassing_depth (p : Printer) (offset : Int) (s : Statement) :
    inPassing s.depth offset p s = p.statement offset s := by
  rw [inPassing_eq, statement, Statement.walk, map_eq_pure_bind]
  rfl

end Printer

/-! ### The tree in parentheses -/

namespace Statement

mutual
/-- The tree in parentheses, by recursion on the tree. -/
def parenthesized : Statement → String
  | .block children => "(BLOCK" ++ parenthesizedAll children ++ ")"
  | .ifThen c body => "(IF " ++ c.spelling ++ " " ++ parenthesized body ++ ")"
  | .ifElse c body alternative =>
    "(IF_ELSE " ++ c.spelling ++ " " ++ parenthesized body ++ " " ++ parenthesized alternative ++
      ")"
  | .whileDo c body => "(WHILE " ++ c.spelling ++ " " ++ parenthesized body ++ ")"
  | .call name => "(CALL " ++ name ++ ")"

/-- The trees of several statements, each after a space. -/
def parenthesizedAll : List Statement → String
  | [] => ""
  | s :: ss => " " ++ parenthesized s ++ parenthesizedAll ss
end

theorem parenthesizedAll_eq (ss : List Statement) :
    parenthesizedAll ss = Layout.spaced (ss.map parenthesized) := by
  induction ss with
  | nil => rfl
  | cons s ss ih => simp [parenthesizedAll, ih, Layout.spaced]

/-- A construct that is no block, written in parentheses. -/
theorem node_cons (k : Kind) (part : String) (parts : List String) :
    Layout.node k (part :: parts) =
      "(" ++ k.label ++ " " ++ part ++ Layout.spaced parts ++ ")" := by
  simp [Layout.node, Layout.spaced, String.append_assoc]

/-- Both ways to write a tree in parentheses agree. -/
theorem tree_eq_parenthesized (s : Statement) : s.tree = s.parenthesized := by
  unfold tree
  induction s with
  | block ss ih =>
    have hparts : ss.map (fold Layout.tree) = ss.map parenthesized := List.map_congr_left ih
    rw [fold_block, parenthesized, parenthesizedAll_eq, hparts]
    rfl
  | ifThen c s ih =>
    rw [fold, ih]
    simp [parenthesized, Layout.tree, node_cons, Layout.spaced, Kind.label, String.append_assoc]
  | ifElse c s t ih ih' =>
    rw [fold, ih, ih']
    simp [parenthesized, Layout.tree, node_cons, Layout.spaced, Kind.label, String.append_assoc]
  | whileDo c s ih =>
    rw [fold, ih]
    simp [parenthesized, Layout.tree, node_cons, Layout.spaced, Kind.label, String.append_assoc]
  | call n => simp [fold, parenthesized, Layout.tree, node_cons, Layout.spaced, Kind.label]

end Statement

end BL
