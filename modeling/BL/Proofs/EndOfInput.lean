import BL.Proofs.Reports

namespace BL

open Text

/-!
# Reports at the end of the input

A text that stops short is rejected at the token that ends the input.  This token knows its line,
which is the last one of the text, but it always stands in the first column.  So the report on it
comes behind all other lines, and in front of what the last line holds:

* `Report.PointsBefore` — the place that a report names comes before a token;
* `Source.eq_endOfInput`, `Source.line_le_of_mem_tokens` — the token that ends the input, and the
  lines of all tokens;
* `Source.eq_endOfInput_of_line` — behind the line feed that ends a text there is no other token;
* `Source.end_report_place` — the place that a report at the end of the input names, and the tokens
  that it comes before;
* `Source.end_report_points_back` — a source where it comes before a token that was read.
-/

/-- The place that the report names comes before the token: it is on an earlier line, or further to
    the left on the same line. -/
def Report.PointsBefore (r : Report) (t : Token) : Prop :=
  r.line < t.line ∨ r.line = t.line ∧ r.column < t.column

namespace Source

variable {source : String} {t : Token} {r : Rejection}

/-! ### Lines of tokens -/

/-- Only the last token of a source ends the input. -/
theorem eq_endOfInput (h : t ∈ tokens source) (he : t.isEnd = true) :
    t = .endOfInput (1 + source.toList.count '\n') := by
  rw [tokens, length_splitLines, List.mem_append, List.mem_singleton] at h
  rcases h with h | rfl
  · -- The texts of the other tokens are words.
    refine absurd ?_ (endText_notMem_words source)
    rw [words, tokens, List.dropLast_concat, ← beq_iff_eq.1 he]
    exact List.mem_map_of_mem h
  · rw [Int.natCast_add, Int.add_comm]
    rfl

/-- A source has one line more than it has line feeds. -/
theorem length_lines (source : String) :
    (source.toList.splitOn '\n').length = source.toList.count '\n' + 1 := by
  rw [← splitLines_eq_splitOn, length_splitLines]

/-- No token stands below the last line, or in front of the first column. -/
theorem line_le_of_mem_tokens (h : t ∈ tokens source) :
    t.line ≤ 1 + source.toList.count '\n' ∧ 0 ≤ t.column := by
  obtain ⟨i, j, l, hline, hcolumn, hl, -⟩ := place_of_mem_tokens h
  have hi := (List.getElem?_eq_some_iff.1 hl).1
  rw [length_lines] at hi
  omega

/-- Behind the line feed that ends a text, only the input ends. -/
theorem eq_endOfInput_of_line {text : String} (h : t ∈ tokens (text ++ "\n"))
    (hline : t.line = 1 + (text ++ "\n").toList.count '\n') :
    t = .endOfInput (1 + (text ++ "\n").toList.count '\n') := by
  by_contra hne
  obtain ⟨i, j, l, hi, -, hl, hstands⟩ := place_of_mem_tokens h
  obtain ⟨-, c, cs, -, hc⟩ := hstands hne
  -- Another token would take a character of the last line, which is empty.
  have hlines : (text ++ "\n").toList.splitOn '\n' = text.toList.splitOn '\n' ++ [[]] := by
    rw [String.toList_append]
    show (text.toList ++ '\n' :: []).splitOn '\n' = _
    rw [List.splitOn_append_cons_self]
    rfl
  have hlength := length_lines (text ++ "\n")
  rw [hlines, List.length_append, List.length_singleton] at hlength
  obtain rfl : i = (text.toList.splitOn '\n').length := by omega
  rw [hlines, List.getElem?_concat_length] at hl
  obtain rfl := Option.some.inj hl
  simp at hc

/-! ### Reports -/

/-- **Reports at the end of the input.** A source that is rejected where the input ends is reported
    in the first column of its last line.  This is not above any token, and it comes before exactly
    those tokens that stand on the last line further to the right.  So it comes before no token of a
    source that ends with a line feed.  If the source is not empty, then the report shows its last
    line, and a caret below the first column. -/
theorem end_report_place
    (h : Program.ofSource source = .error (.rejected r) ∨
      Statement.ofSource source = .error (.rejected r))
    (he : r.token.isEnd = true) :
    r.report.line = 1 + source.toList.count '\n' ∧ r.report.column = 0 ∧
    (∀ t ∈ tokens source, t.line ≤ r.report.line ∧
      (r.report.PointsBefore t ↔ t.line = r.report.line ∧ 0 < t.column)) ∧
    (∀ text, source = text ++ "\n" → ∀ t ∈ tokens source, ¬ r.report.PointsBefore t) ∧
    (source ≠ "" → ∀ file, ∃ l, (source.toList.splitOn '\n').getLast? = some l ∧
      Report.Shows (r.report.render (some source) file) l 0) := by
  obtain ⟨_, hr, hmem⟩ := rejects_token h
  obtain rfl := Fault.rejected.inj hr
  have htoken := eq_endOfInput hmem he
  have hline : r.report.line = 1 + source.toList.count '\n' := by
    rw [Rejection.report, htoken]
    rfl
  have hcolumn : r.report.column = 0 := by
    rw [Rejection.report, htoken]
    rfl
  have hbefore : ∀ t ∈ tokens source, t.line ≤ r.report.line ∧
      (r.report.PointsBefore t ↔ t.line = r.report.line ∧ 0 < t.column) := by
    intro t ht
    obtain ⟨hle, -⟩ := line_le_of_mem_tokens ht
    rw [Report.PointsBefore, hcolumn, hline]
    omega
  refine ⟨hline, hcolumn, hbefore, ?_, fun hs file => ?_⟩
  · rintro text rfl t ht hpoints
    obtain ⟨htline, htcolumn⟩ := (hbefore t ht).2.1 hpoints
    rw [eq_endOfInput_of_line ht (htline.trans hline)] at htcolumn
    exact absurd htcolumn (Int.lt_irrefl 0)
  · obtain ⟨l, hl⟩ := Option.isSome_iff_exists.1
      (List.getLast?_isSome.2 (List.splitOn_ne_nil '\n' source.toList))
    refine ⟨l, hl, Report.shows_render hs (i := source.toList.count '\n') ?_ hcolumn ?_ file⟩
    · rw [hline, Int.add_comm]
    · rwa [List.getLast?_eq_getElem?, length_lines] at hl

/-- A program that stops short behind a line feed. -/
theorem end_report_place_sample :
    ∃ r, Program.ofSource "PROGRAM p IS BEGIN\n  move\n" = .error (.rejected r) ∧
      r.report.line = 3 ∧ r.report.column = 0 ∧
      ∀ t ∈ tokens "PROGRAM p IS BEGIN\n  move\n", ¬ r.report.PointsBefore t := by
  have h : Program.ofSource "PROGRAM p IS BEGIN\n  move\n"
      = .error (.rejected ⟨.missingKeyword "END", .endOfInput 3⟩) := by
    with_unfolding_all rfl
  obtain ⟨hline, hcolumn, -, hbefore, -⟩ := end_report_place (.inl h) rfl
  exact ⟨_, h, hline, hcolumn, hbefore "PROGRAM p IS BEGIN\n  move" rfl⟩

/-- **A report that comes before what was read.** The program stops short on its only line.  It is
    reported in front of its first word, although the last one is read before the keyword that is
    missing. -/
theorem end_report_points_back :
    ∃ r t, Program.ofSource "PROGRAM p IS BEGIN move" = .error (.rejected r) ∧
      r.token.isEnd = true ∧ (r.report.line, r.report.column) = (1, 0) ∧
      t ∈ tokens "PROGRAM p IS BEGIN move" ∧ t = ⟨.identifier, "move", 1, 19⟩ ∧
      t ≠ r.token ∧ r.report.PointsBefore t := by
  have h : Program.ofSource "PROGRAM p IS BEGIN move"
      = .error (.rejected ⟨.missingKeyword "END", .endOfInput 1⟩) := by
    with_unfolding_all rfl
  exact ⟨_, _, h, rfl, rfl, by decide +kernel, rfl, by decide, .inr ⟨rfl, by decide⟩⟩

end Source

end BL
