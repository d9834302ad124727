namespace BL.Text

/-!
# Lines of a text

A text is cut into lines at the line feed and nowhere else. A text that is read from a file first
has its line ends made uniform.

* `splitLines` — the lines of a text, always at least one;
* `uniformNewlines` — a carriage return, alone or before a line feed, becomes a line feed;
* `readText`, `readText_eq_self` — reading a text, and a text that is read as it stands.
-/

/-! ### Cutting at line feeds -/

/-- Puts a character in front of the first line. -/
def consFirst (c : Char) : List (List Char) → List (List Char)
  | [] => [[c]]
  | l :: ls => (c :: l) :: ls

/-- The lines of a text: what stands before, between and after its line feeds. -/
def splitLines : List Char → List (List Char)
  | [] => [[]]
  | c :: cs => if c = '\n' then [] :: splitLines cs else consFirst c (splitLines cs)

@[simp] theorem splitLines_nil : splitLines [] = [[]] := rfl

@[simp] theorem splitLines_newline (cs : List Char) :
    splitLines ('\n' :: cs) = [] :: splitLines cs := by simp [splitLines]

theorem splitLines_cons {c : Char} (h : c ≠ '\n') (cs : List Char) :
    splitLines (c :: cs) = consFirst c (splitLines cs) := by simp [splitLines, h]

@[simp] theorem length_consFirst (c : Char) {ls : List (List Char)} (h : ls ≠ []) :
    (consFirst c ls).length = ls.length := by
  cases ls <;> simp_all [consFirst]

/-- A text has one line more than it has line feeds. -/
theorem length_splitLines (cs : List Char) :
    (splitLines cs).length = cs.count '\n' + 1 := by
  induction cs with
  | nil => rfl
  | cons c cs ih =>
    by_cases h : c = '\n'
    · simp [h, ih]
    · have hne : splitLines cs ≠ [] := by intro e; simp [e] at ih
      rw [splitLines_cons h, length_consFirst c hne, ih, List.count_cons_of_ne h]

/-! ### Uniform line ends -/

/-- Every carriage return becomes a line feed, together with a line feed that follows it. -/
def uniformNewlines : List Char → List Char
  | [] => []
  | '\r' :: '\n' :: cs => '\n' :: uniformNewlines cs
  | c :: cs => (if c = '\r' then '\n' else c) :: uniformNewlines cs

/-- The text as it is read from a file. -/
def readText (content : String) : String :=
  String.ofList (uniformNewlines content.toList)

/-- Without carriage returns there is nothing to do. -/
theorem uniformNewlines_eq_self {cs : List Char} (h : '\r' ∉ cs) : uniformNewlines cs = cs := by
  fun_induction uniformNewlines cs with
  | case1 => rfl
  | case2 cs ih => simp at h
  | case3 c cs _ ih =>
    rw [List.mem_cons, not_or] at h
    rw [if_neg (Ne.symm h.1), ih h.2]

/-- A text without carriage returns is read as it stands. -/
theorem readText_eq_self {text : String} (h : '\r' ∉ text.toList) : readText text = text := by
  rw [readText, uniformNewlines_eq_self h, String.ofList_toList]

end BL.Text
