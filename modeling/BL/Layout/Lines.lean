import BL.Layout.Walk
import BL.Program.Basic

namespace BL

/-!
# Statements and programs as lines

A call takes one line. A conditional or a loop takes a line for each of its keyword pairs, all with
the same number of leading spaces, and what it encloses stands some spaces further in. A block takes
the lines of its children; the empty block takes none.

* `Layout.line` — a text after some spaces;
* `Layout.lines` — what becomes of each construct;
* `Statement.lines`, `Program.lines` — all lines, by recursion on the tree;
* `Statement.fold_lines` — the constructs' layouts give the lines of the whole.
-/

namespace Layout

/-- The text after so many spaces; a negative number of spaces is none. -/
def line (offset : Int) (text : String) : String :=
  String.ofList (List.replicate offset.toNat ' ') ++ text

/-- The opening line of a conditional. -/
def ifLine (c : Condition) : String := "IF " ++ c.spelling ++ " THEN"

/-- The opening line of a loop. -/
def whileLine (c : Condition) : String := "WHILE " ++ c.spelling ++ " DO"

/-- The lines that become of each construct, by the number of leading spaces; what is enclosed
    stands `indent` spaces further in. -/
def lines (indent : Int) : Statement.Algebra (Int → List String) where
  block parts := fun k => parts.flatMap fun part => part k
  ifThen c body := fun k => line k (ifLine c) :: (body (k + indent) ++ [line k "END IF"])
  ifElse c body alternative := fun k =>
    line k (ifLine c) :: (body (k + indent) ++ line k "ELSE" ::
      (alternative (k + indent) ++ [line k "END IF"]))
  whileDo c body := fun k =>
    line k (whileLine c) :: (body (k + indent) ++ [line k "END WHILE"])
  call name := fun k => [line k name]

@[simp] theorem lines_block (indent : Int) (parts : List (Int → List String)) (k : Int) :
    (lines indent).block parts k = parts.flatMap fun part => part k := rfl

@[simp] theorem lines_ifThen (indent : Int) (c : Condition) (body : Int → List String) (k : Int) :
    (lines indent).ifThen c body k =
      line k (ifLine c) :: (body (k + indent) ++ [line k "END IF"]) := rfl

@[simp] theorem lines_ifElse (indent : Int) (c : Condition) (body alternative : Int → List String)
    (k : Int) : (lines indent).ifElse c body alternative k =
      line k (ifLine c) :: (body (k + indent) ++ line k "ELSE" ::
        (alternative (k + indent) ++ [line k "END IF"])) := rfl

@[simp] theorem lines_whileDo (indent : Int) (c : Condition) (body : Int → List String) (k : Int) :
    (lines indent).whileDo c body k =
      line k (whileLine c) :: (body (k + indent) ++ [line k "END WHILE"]) := rfl

@[simp] theorem lines_call (indent : Int) (name : String) (k : Int) :
    (lines indent).call name k = [line k name] := rfl

/-- The text of lines: each ends with a line feed. The text of no line is a single line feed. -/
def textOfLines (ls : List String) : String := String.intercalate "\n" ls ++ "\n"

end Layout

/-! ### Statements -/

namespace Statement

open Layout

mutual
/-- The lines of a statement, `k` spaces in. -/
def lines (indent : Int) : Int → Statement → List String
  | k, .block children => linesAll indent k children
  | k, .ifThen c body =>
    line k (ifLine c) :: (lines indent (k + indent) body ++ [line k "END IF"])
  | k, .ifElse c body alternative =>
    line k (ifLine c) :: (lines indent (k + indent) body ++ line k "ELSE" ::
      (lines indent (k + indent) alternative ++ [line k "END IF"]))
  | k, .whileDo c body =>
    line k (whileLine c) :: (lines indent (k + indent) body ++ [line k "END WHILE"])
  | k, .call name => [line k name]

/-- The lines of several statements, one after the other. -/
def linesAll (indent : Int) : Int → List Statement → List String
  | _, [] => []
  | k, s :: ss => lines indent k s ++ linesAll indent k ss
end

theorem linesAll_eq_flatMap (indent k : Int) (ss : List Statement) :
    linesAll indent k ss = ss.flatMap (lines indent k) := by
  induction ss with
  | nil => simp [linesAll]
  | cons s ss ih => simp [linesAll, ih]

@[simp] theorem lines_block (indent k : Int) (ss : List Statement) :
    lines indent k (block ss) = ss.flatMap (lines indent k) := by
  rw [lines, linesAll_eq_flatMap]

/-- Layouts of the constructs give the lines of the whole. -/
theorem fold_lines (indent : Int) (s : Statement) (k : Int) :
    fold (Layout.lines indent) s k = lines indent k s := by
  induction s generalizing k with
  | block ss ih =>
    simp only [fold_block, Layout.lines_block, lines_block, List.flatMap_map]
    induction ss with
    | nil => rfl
    | cons s ss ih' =>
      rw [List.flatMap_cons, List.flatMap_cons, ih s List.mem_cons_self,
        ih' fun t ht => ih t (.tail _ ht)]
  | ifThen c s ih => simp only [fold, Layout.lines_ifThen, lines, ih]
  | ifElse c s t ih ih' => simp only [fold, Layout.lines_ifElse, lines, ih, ih']
  | whileDo c s ih => simp only [fold, Layout.lines_whileDo, lines, ih]
  | call n => simp only [fold, Layout.lines_call, lines]

end Statement

/-! ### Programs -/

namespace Program

open Layout

/-- The opening line of a program. -/
def openingLine (name : String) : String := "PROGRAM " ++ name ++ " IS"

/-- The opening line of a definition. -/
def definitionLine (name : String) : String := "INSTRUCTION " ++ name ++ " IS"

/-- The closing line of a program or a definition. -/
def closingLine (name : String) : String := "END " ++ name

/-- The lines of a definition, with an empty line behind it. -/
def definitionLines (indent : Int) (e : String × Statement) : List String :=
  line indent (definitionLine e.1) :: (e.2.lines indent (2 * indent) ++
    [line indent (closingLine e.1), line 0 ""])

/-- The lines of a program. -/
def lines (indent : Int) (p : Program) : List String :=
  line 0 (openingLine p.name) :: line 0 "" :: (p.context.entries.flatMap (definitionLines indent) ++
    line 0 "BEGIN" :: (p.body.lines indent indent ++ [line 0 (closingLine p.name)]))

end Program

end BL
