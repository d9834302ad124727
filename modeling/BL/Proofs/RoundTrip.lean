import BL.Proofs.Layout.Words
import BL.Proofs.Reading.Program

namespace BL

open Grammar TokenQueue

/-!
# Printing and reading

What is printed holds the words of the tree, and what holds the words of a tree is read as this
tree.  So printing changes the layout alone, and reading undoes it:

* `Program.pretty_eq`, `Statement.pretty_eq` — the printed text of a well-formed tree;
* `Program.wellFormed_of_ofSource`, `Statement.wellFormed_of_ofSource` — what is read is well formed
  and has the words of the source;
* `Program.ofSource_of_words`, `Statement.ofSource_of_words`, `Reader.statement_of_words` — a text
  with the words of a tree is read as this tree;
* `Source.formatting` — formatting a source keeps its words, and formatting it once more changes
  nothing;
* `Statement.reading_printed` — reading undoes printing, for every well-formed statement and every
  indentation.
-/

/-! ### Printed texts -/

/-- The printed text of a program with well-formed statements. -/
theorem Program.pretty_eq {p : Program} (hc : ∀ e ∈ p.context.entries, e.2.WellFormed)
    (hb : p.body.WellFormed) :
    p.pretty = .ok (Layout.textOfLines (p.lines Printer.defaultIndent), p) := by
  rw [Program.pretty, Printer.program_eq _ hc hb]
  rfl

/-- The printed text of a well-formed program. -/
theorem Program.WellFormed.pretty_eq {p : Program} (hp : p.WellFormed) :
    p.pretty = .ok (Layout.textOfLines (p.lines Printer.defaultIndent), p) :=
  Program.pretty_eq (fun e he => (hp.entries e he).2.2) hp.body.2

/-- The printed text of a well-formed statement. -/
theorem Statement.pretty_eq {s : Statement} (hs : s.WellFormed) (offset : Int) :
    s.pretty offset = .ok (if s.lines Printer.defaultIndent offset = [] then ""
      else Layout.textOfLines (s.lines Printer.defaultIndent offset), s) := by
  rw [Statement.pretty, Printer.statement_eq _ _ hs]
  rfl

/-- A text without lines may be empty: it has no words in either case. -/
theorem Layout.Spells.words_text {ls ws : List String} (h : Layout.Spells ls ws) :
    Source.words (if ls = [] then "" else Layout.textOfLines ls) = ws := by
  split
  · rename_i hnil
    rw [Layout.words_empty, ← h.words, hnil, List.flatMap_nil]
  · exact Layout.words_textOfLines h

/-! ### Sources with the words of a tree -/

/-- What is read as a program is well formed, and the words of the source are its words. -/
theorem Program.wellFormed_of_ofSource {source : String} {p : Program}
    (h : Program.ofSource source = .ok p) : p.WellFormed ∧ Source.words source = p.words := by
  obtain ⟨hp, -, hw⟩ := isProgram_iff.1 (Program.ofSource_eq_ok_iff.1 h)
  exact ⟨hp, hw⟩

/-- A source with the same words as that of a program is a source of this program. -/
theorem Program.ofSource_of_words {source text : String} {p : Program}
    (h : Program.ofSource source = .ok p) (hw : Source.words text = p.words) :
    Program.ofSource text = .ok p := by
  rw [Program.ofSource_eq_ok_iff, hw, ← (Program.wellFormed_of_ofSource h).2]
  exact Program.ofSource_eq_ok_iff.1 h

/-- What is read as statements is a well-formed block, and the words of the source are its words. -/
theorem Statement.wellFormed_of_ofSource {source : String} {s : Statement}
    (h : Statement.ofSource source = .ok s) :
    s.WellFormed ∧ s.kind = .block ∧ Source.words source = s.words := by
  obtain ⟨ss, rfl, hss⟩ := Statement.ofSource_eq_ok_iff.1 h
  obtain ⟨hs, hw⟩ := isBlock_iff.1 hss
  exact ⟨hs, Statement.kind_block ss, hw⟩

/-- A source with the words of a well-formed block is read as this block. -/
theorem Statement.ofSource_of_words {text : String} {s : Statement} (hs : s.WellFormed)
    (hk : s.kind = .block) (hw : Source.words text = s.words) :
    Statement.ofSource text = .ok s := by
  obtain ⟨ss, rfl⟩ := Statement.kind_eq_block_iff.1 hk
  exact Statement.ofSource_eq_ok_iff.2 ⟨ss, rfl, isBlock_iff.2 ⟨hs, hw⟩⟩

/-- A source with the words of a well-formed statement is read as this statement, up to the end of
    the input. -/
theorem Reader.statement_of_words {text : String} {s t : Statement} (hs : s.WellFormed)
    (hk : s.kind ≠ .block) (hw : Source.words text = s.words) :
    Reader.statement ⟨.ofSource text, t⟩ = .ok () ⟨(ofSource text).atLast, s⟩ := by
  refine Reader.statement_eq_ok_iff.2 ⟨s.words, ?_, isStatement_words hs hk⟩
  rw [← hw]
  exact gives_words_ofSource text

/-! ### Formatting -/

/-- **Formatting changes the layout alone.** The text printed of a program that was read from a
    source has the tokens of the source, apart from where they stand; it is read as the same
    program, so that formatting it once more changes nothing.  The same holds for statements,
    however far they stand in. -/
theorem Source.formatting (source : String) :
    (∀ p, Program.ofSource source = .ok p → ∃ text, p.pretty = .ok (text, p) ∧
      (tokens text).map Token.text = (tokens source).map Token.text ∧
      Program.ofSource text = .ok p ∧ (Program.ofSource text >>= Program.pretty) = .ok (text, p)) ∧
    ∀ s, Statement.ofSource source = .ok s → ∀ offset, ∃ text, s.pretty offset = .ok (text, s) ∧
      (tokens text).map Token.text = (tokens source).map Token.text ∧
      Statement.ofSource text = .ok s ∧
      (Statement.ofSource text >>= fun t => t.pretty offset) = .ok (text, s) := by
  constructor
  · intro p h
    obtain ⟨hp, hw⟩ := Program.wellFormed_of_ofSource h
    have hprint := Program.pretty_eq (fun e he => (hp.entries e he).2.2) hp.body.2
    have hwords := Layout.words_textOfLines (Program.spells_lines hp Printer.defaultIndent)
    -- The printed text has the words of the program, and so has the source.
    have hread := Program.ofSource_of_words h hwords
    refine ⟨_, hprint, ?_, hread, ?_⟩
    · rw [map_text_tokens, map_text_tokens, hwords, hw]
    · rw [hread]
      exact hprint
  · intro s h offset
    obtain ⟨hs, hk, hw⟩ := Statement.wellFormed_of_ofSource h
    have hprint := Statement.pretty_eq hs offset
    have hwords := (Statement.spells_lines hs Printer.defaultIndent offset).words_text
    have hread := Statement.ofSource_of_words hs hk hwords
    refine ⟨_, hprint, ?_, hread, ?_⟩
    · rw [map_text_tokens, map_text_tokens, hwords, hw]
    · rw [hread]
      exact hprint

/-- Statements with a comment, a blank line and an alternative that encloses nothing. -/
def Source.sample : String := "move # one step\n\nIF random THEN skip ELSE END IF"

/-- The tree of these statements. -/
def Statement.sample : Statement :=
  .block [.call "move", .ifElse .random (.block [.call "skip"]) (.block [])]

/-- A program with these statements as its only definition. -/
def Program.sample : Program := ⟨"P", ⟨[("go", .sample)], by decide⟩, .empty⟩

/-- Formatting at these statements and at this program. -/
theorem Source.formatting_sample :
    (∃ text, Statement.ofSource sample = .ok .sample ∧
      Statement.sample.pretty 3 = .ok (text, .sample) ∧ Statement.ofSource text = .ok .sample) ∧
    ∃ source text, Program.ofSource source = .ok .sample ∧
      Program.sample.pretty = .ok (text, .sample) ∧ Program.ofSource text = .ok .sample := by
  constructor
  · have hs : Statement.ofSource sample = .ok .sample :=
      Statement.ofSource_of_words (by decide) rfl (by decide +kernel)
    obtain ⟨text, hprint, -, hread, -⟩ := (Source.formatting sample).2 _ hs 3
    exact ⟨text, hs, hprint, hread⟩
  · have hwf : Program.sample.WellFormed :=
      ⟨by decide, List.forall_mem_singleton.2 ⟨by decide, rfl, by decide⟩, rfl, by decide⟩
    have hw : Source.words ("PROGRAM P IS INSTRUCTION go IS " ++ sample ++ " END go BEGIN END P")
        = Program.sample.words := by decide +kernel
    have hp := Program.ofSource_eq_ok_iff.2 (isProgram_iff.2 ⟨hwf, by decide, hw⟩)
    obtain ⟨text, hprint, -, hread, -⟩ := (Source.formatting _).1 _ hp
    exact ⟨_, text, hp, hprint, hread⟩

/-- **Reading undoes printing**, for every well-formed statement and however far the lines stand in.
    A block is read as a whole text, the block without lines also from the empty text; any other
    statement is read into any target, and only the end of the input is left. -/
theorem Statement.reading_printed (s : Statement) (hs : s.WellFormed) (indent offset : Int) :
    ∃ p, (Printer.ofIndent indent).statement offset s = .ok (p, s) ∧
      (s.kind = .block → Statement.ofSource p.text = .ok s ∧
        (p.lines = [] → Statement.ofSource "" = .ok s)) ∧
      (s.kind ≠ .block → ∀ t, ∃ r, Reader.statement ⟨.ofSource p.text, t⟩ = .ok () ⟨r, s⟩ ∧
        r.toList.map Token.text = [Token.endText]) := by
  have hspell := Statement.spells_lines hs indent offset
  refine ⟨_, Printer.statement_eq _ _ hs, fun hk => ⟨?_, fun hnil => ?_⟩, fun hk t => ?_⟩
  · exact Statement.ofSource_of_words hs hk (Layout.words_textOfLines hspell)
  · have hlines : s.lines indent offset = [] := hnil
    have hwords := hspell.words_text
    rw [if_pos hlines] at hwords
    exact Statement.ofSource_of_words hs hk hwords
  · refine ⟨_, Reader.statement_of_words hs hk (Layout.words_textOfLines hspell), ?_⟩
    rw [toList_atLast, List.map_singleton, TokenQueue.last_text]

/-- Printing and reading at a block, and at a statement that is none. -/
theorem Statement.reading_printed_sample :
    (∃ p, (Printer.ofIndent (-1)).statement 3 sample = .ok (p, sample) ∧
      Statement.ofSource p.text = .ok sample) ∧
    ∃ p, (Printer.ofIndent 2).statement 0 (.call "go") = .ok (p, .call "go") ∧
      ∃ r, Reader.statement ⟨.ofSource p.text, sample⟩ = .ok () ⟨r, .call "go"⟩ ∧
        r.toList.map Token.text = [Token.endText] := by
  constructor
  · obtain ⟨p, hp, hblock, -⟩ := Statement.reading_printed sample (by decide) (-1) 3
    exact ⟨p, hp, (hblock rfl).1⟩
  · obtain ⟨p, hp, -, hother⟩ := Statement.reading_printed (.call "go") (by decide) 2 0
    exact ⟨p, hp, hother (by decide) sample⟩

end BL
