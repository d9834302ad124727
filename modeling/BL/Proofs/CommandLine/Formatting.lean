import BL.Proofs.CommandLine.Calls
import BL.Proofs.CommandLine.Outcomes
import BL.Proofs.Layout.Indentation
import Mathlib

namespace BL

open Text

/-!
# Formatting a file again

A formatted text has no carriage return, so that a file that holds it is read as it stands.  It is
the source of what it was printed of, and printing that gives the same text: once a file is
formatted, the command prints just what the file holds, and writing it there again changes nothing.

* `Document.Formats.again` — a formatted text is formatted already;
* `CommandLine.writes_of_call`, `CommandLine.effects_of_call_none`,
  `CommandLine.effects_of_call_some` — what formatting calls do;
* `CommandLine.state_of_exited` — a run that ends with a code has written its text;
* `CommandLine.formatting_is_stable` — formatting calls, one after the other.
-/

/-! ### Carriage returns -/

namespace Layout

/-- Apart from line feeds, the text of lines has only the characters of the lines. -/
theorem mem_textOfLines {ls : List String} {c : Char} (h : c ∈ (textOfLines ls).toList) :
    c = '\n' ∨ ∃ l ∈ ls, c ∈ l.toList := by
  rw [textOfLines, String.toList_append, List.mem_append] at h
  rcases h with h | h
  case inr => exact .inl (by simpa using h)
  induction ls with
  | nil => simp at h
  | cons l ls ih =>
    cases ls with
    | nil => exact .inr ⟨l, List.mem_cons_self, by simpa using h⟩
    | cons m ms =>
      simp only [String.intercalate_cons_cons, String.toList_append, List.mem_append] at h
      rcases h with (h | h) | h
      · exact .inr ⟨l, List.mem_cons_self, h⟩
      · exact .inl (by simpa using h)
      · obtain hc | ⟨n, hn, hc⟩ := ih h
        · exact .inl hc
        · exact .inr ⟨n, .tail _ hn, hc⟩

/-- A line of words has no carriage return. -/
theorem return_notMem_line (k : Int) {l : String} {ws : List String} (h : IsWords l ws) :
    '\r' ∉ (line k l).toList :=
  notMem_line h (by decide) (by decide)

/-- An empty line has none either. -/
theorem return_notMem_line_empty (k : Int) : '\r' ∉ (line k "").toList := by
  simp [line]

theorem return_notMem_textOfLines {ls : List String} (h : ∀ l ∈ ls, '\r' ∉ l.toList) :
    '\r' ∉ (textOfLines ls).toList := by
  intro hm
  obtain hc | ⟨l, hl, hc⟩ := mem_textOfLines hm
  · exact absurd hc (by decide)
  · exact h l hl hc

end Layout

open Layout in
theorem Statement.return_notMem_lines {s : Statement} (hs : s.WellFormed) (indent k : Int) :
    ∀ l ∈ s.lines indent k, '\r' ∉ l.toList := by
  rw [lines_eq_map_rows, List.forall_mem_map]
  intro r hr
  obtain ⟨ws, hws⟩ := isWords_of_mem_rows hs hr
  exact return_notMem_line _ hws

open Layout in
theorem Program.return_notMem_lines {p : Program} (hp : p.WellFormed) (indent : Int) :
    ∀ l ∈ p.lines indent, '\r' ∉ l.toList := by
  have hname := hp.name
  have hdefinitions :
      ∀ l ∈ p.context.entries.flatMap (definitionLines indent), '\r' ∉ l.toList := by
    intro l hl
    obtain ⟨e, he, hl⟩ := List.mem_flatMap.1 hl
    obtain ⟨hn, -, hs⟩ := hp.entries e he
    simp only [definitionLines, List.mem_cons, List.mem_append, List.not_mem_nil, or_false] at hl
    rcases hl with rfl | hl | rfl | rfl
    · exact return_notMem_line _ (isWords_definitionLine hn)
    · exact Statement.return_notMem_lines hs _ _ l hl
    · exact return_notMem_line _ (isWords_closingLine hn)
    · exact return_notMem_line_empty _
  intro l hl
  simp only [lines, List.mem_cons, List.mem_append, List.not_mem_nil, or_false] at hl
  rcases hl with rfl | rfl | hl | rfl | hl | rfl
  · exact return_notMem_line _ (isWords_openingLine hname)
  · exact return_notMem_line_empty _
  · exact hdefinitions l hl
  · exact return_notMem_line _ isWords_begin
  · exact Statement.return_notMem_lines hp.body.2 _ _ l hl
  · exact return_notMem_line _ (isWords_closingLine hname)

/-! ### Formatted texts -/

/-- **Formatted texts** have no carriage return. -/
theorem Document.Formats.return_notMem {asStatements : Bool} {source text : String}
    (h : Formats asStatements source text) : '\r' ∉ text.toList := by
  cases asStatements with
  | true =>
    obtain ⟨s, hs, hprint⟩ := h
    have hwf := (Statement.wellFormed_of_ofSource hs).1
    rw [Statement.pretty_eq hwf, Except.ok.injEq, Prod.mk.injEq] at hprint
    rw [← hprint.1]
    split
    · simp
    · exact Layout.return_notMem_textOfLines (Statement.return_notMem_lines hwf _ _)
  | false =>
    obtain ⟨p, hp, hprint⟩ := h
    have hwf := (Program.wellFormed_of_ofSource hp).1
    rw [hwf.pretty_eq, Except.ok.injEq, Prod.mk.injEq] at hprint
    rw [← hprint.1]
    exact Layout.return_notMem_textOfLines (Program.return_notMem_lines hwf _)

/-- **Formatting again.** A file that holds a formatted text is formatted already. -/
theorem Document.Formats.again {asStatements : Bool} {source text : String}
    (h : Formats asStatements source text) : Formats asStatements (readText text) text := by
  rw [readText_eq_self h.return_notMem]
  cases asStatements with
  | true =>
    obtain ⟨s, hs, hprint⟩ := h
    obtain ⟨hwf, hk, -⟩ := Statement.wellFormed_of_ofSource hs
    refine ⟨s, Statement.ofSource_of_words hwf hk ?_, hprint⟩
    rw [Statement.pretty_eq hwf, Except.ok.injEq, Prod.mk.injEq] at hprint
    rw [← hprint.1]
    exact (Statement.spells_lines hwf _ _).words_text
  | false =>
    obtain ⟨p, hp, hprint⟩ := h
    have hwf := (Program.wellFormed_of_ofSource hp).1
    refine ⟨p, Program.ofSource_of_words hp ?_, hprint⟩
    rw [hwf.pretty_eq, Except.ok.injEq, Prod.mk.injEq] at hprint
    rw [← hprint.1]
    exact Layout.words_textOfLines (Program.spells_lines hwf _)

namespace CommandLine

/-! ### Formatting calls -/

variable {σ φ ε : Type} {edition : Edition} {asStatements : Bool} {input path source text : String}
  {arguments : List String} {find : String → Found ε}

/-- A path that is named as source files are is not empty, and not two hyphens. -/
theorem ne_of_hasSourceSuffix (h : hasSourceSuffix path = true) : path ≠ "" ∧ path ≠ "--" := by
  constructor <;> rintro rfl <;> revert h <;> decide

/-- **Writing.** A formatting call that is accepted writes the formatted text to its output path;
    and its names are values. -/
theorem writes_of_call (hc : Calls asStatements input (some path) arguments)
    (hinput : hasSourceSuffix input = true) (hpath : hasSourceSuffix path = true)
    (hhelp : Request.ofArguments edition arguments ≠ .error .help)
    (hstatus : (effects edition arguments find).status = .exited 0) :
    IsValue input ∧ IsValue path ∧ ∃ content text, find input = .text content ∧
      Document.Formats asStatements (readText content) text ∧
      (effects edition arguments find).written = some (path, text) := by
  obtain ⟨hempty, hpath⟩ := ne_of_hasSourceSuffix hpath
  cases hr : Request.ofArguments edition arguments with
  | error e =>
    cases e with
    | help => exact absurd hr hhelp
    | usage e => simp [effects, hr, Ending.effects, Effects.complain] at hstatus
  | ok r =>
    obtain ⟨hi, hp⟩ := hc.isValue (ne_of_hasSourceSuffix hinput).2 hpath hr
    obtain rfl := Except.ok.inj (hr.symm.trans (hc.ofArguments_eq hi (by simpa using hp)))
    refine ⟨hi, hp, ?_⟩
    have hends := ends_effects edition arguments find
    rw [hr, hstatus] at hends
    generalize (effects edition arguments find).written = written at hends
    -- The run succeeds and has an output path, so that it ends in writing.
    cases hends with
    | shown _ _ _ hw => exact absurd ⟨rfl, rfl, hempty⟩ (hw path)
    | written _ hcontent hd ht hw =>
      obtain rfl := Option.some.inj hw.output
      exact ⟨_, _, hcontent, Document.formats_iff.2 ⟨_, hd, ht⟩, rfl⟩

/-- **Printing.** A call without an output path prints the formatted text, and nothing else. -/
theorem effects_of_call_none (hc : Calls asStatements input none arguments) (hi : IsValue input)
    (hinput : hasSourceSuffix input = true) (hfound : find input = .text source)
    (hf : Document.Formats asStatements (readText source) text) :
    effects edition arguments find = .print text 0 := by
  obtain ⟨d, hd, ht⟩ := Document.formats_iff.1 hf
  have hr : Request.ofArguments edition arguments = .ok ⟨input, none, asStatements, false, false⟩ :=
    hc.ofArguments_eq hi (by simp)
  have hw : ∀ path, ¬ Request.WritesTo ⟨input, none, asStatements, false, false⟩ path :=
    fun _ h => absurd h.output (by simp)
  have hprint : documentEffects ⟨input, none, asStatements, false, false⟩ d =
      .ok (.print text 0 : Effects ε) := documentEffects_of_not_writesTo rfl hw ht
  obtain ⟨listing, hlisting, heffects⟩ := sourceEffects_of_document hd hprint
  simp [effects, hr, Request.effects, hinput, hfound, heffects, hlisting, Effects.after,
    Effects.print]

/-- **Writing again.** A call with an output path writes the formatted text there. -/
theorem effects_of_call_some (hc : Calls asStatements input (some path) arguments)
    (hi : IsValue input) (hp : IsValue path) (hempty : path ≠ "")
    (hinput : hasSourceSuffix input = true) (hfound : find input = .text source)
    (hf : Document.Formats asStatements (readText source) text) :
    (effects edition arguments find).status = .exited 0 ∧
      (effects edition arguments find).written = some (path, text) := by
  obtain ⟨d, hd, ht⟩ := Document.formats_iff.1 hf
  have hends := ends_effects edition arguments find
  rw [hc.ofArguments_eq hi (by simpa using hp)] at hends
  obtain ⟨hstatus, ⟨hw, -⟩ | ⟨other, printed, hw, hprinted, hwritten⟩⟩ :=
    hends.of_document hinput hfound hd
  · exact absurd ⟨rfl, rfl, hempty⟩ (hw path)
  · obtain rfl := Option.some.inj hw.output
    obtain rfl := Except.ok.inj (ht.symm.trans hprinted)
    exact ⟨hstatus, hwritten⟩

/-- A run that ends with a code has its effects, and what is to be written was written. -/
theorem state_of_exited {fs : FileSystem σ φ ε} {s : σ} {code : Nat}
    (h : (run edition fs arguments s).status = .exited code) :
    (effects edition arguments (fs.find s)).status = .exited code ∧
      ∀ path text, (effects edition arguments (fs.find s)).written = some (path, text) →
        (fs.write s path text).1 = .ok () ∧
          (run edition fs arguments s).state = (fs.write s path text).2 := by
  cases hw : (effects edition arguments (fs.find s)).written with
  | none =>
    rw [run_of_written_none hw] at h
    exact ⟨h, by simp⟩
  | some w =>
    obtain ⟨hstate, ⟨hok, hs⟩ | ⟨e, -, hs⟩⟩ := run_of_written hw
    · refine ⟨hs.symm.trans h, fun path text heq => ?_⟩
      obtain rfl := Option.some.inj heq
      exact ⟨hok, hstate⟩
    · simp [hs] at h

/-- **Formatting is stable.** A formatting call that is accepted writes a text that the command, if
    it is called for the output path, prints as it stands or writes there again: whatever the files
    are, as long as what was written is what is found at the path later.  This is so on every file
    system that reads back what was written, and its files do not change any more. -/
theorem formatting_is_stable {first second third : List String}
    (hfirst : Calls asStatements input (some path) first)
    (hsecond : Calls asStatements path none second)
    (hthird : Calls asStatements path (some path) third)
    (hinput : hasSourceSuffix input = true) (hpath : hasSourceSuffix path = true)
    (hhelp : Request.ofArguments edition first ≠ .error .help) :
    (∀ {ε : Type} (before after : String → Found ε),
      (effects edition first before).status = .exited 0 →
      ∃ content text, before input = .text content ∧
        Document.Formats asStatements (readText content) text ∧
        (effects edition first before).written = some (path, text) ∧
        (after path = .text text →
          effects edition second after = .print text 0 ∧
          (effects edition third after).status = .exited 0 ∧
          (effects edition third after).written = some (path, text))) ∧
    ∀ {σ φ ε : Type} (fs : FileSystem σ φ ε), fs.ReadsBack →
      ∀ s file, (run edition fs first s).status = .exited 0 → fs.target? s path = some file →
      ∃ text, fs.content? (run edition fs first s).state file = some text.toUTF8 ∧
        run edition fs second (run edition fs first s).state =
          ⟨.exited 0, text, "", (run edition fs first s).state⟩ ∧
        (run edition fs third (run edition fs first s).state).status = .exited 0 ∧
        ∀ other, fs.content? (run edition fs third (run edition fs first s).state).state other =
          fs.content? (run edition fs first s).state other := by
  have hempty := (ne_of_hasSourceSuffix hpath).1
  constructor
  · intro ε before after hstatus
    obtain ⟨hi, hp, content, text, hcontent, hf, hw⟩ :=
      writes_of_call hfirst hinput hpath hhelp hstatus
    exact ⟨content, text, hcontent, hf, hw, fun hafter =>
      ⟨effects_of_call_none hsecond hp hpath hafter hf.again,
        effects_of_call_some hthird hp hp hempty hpath hafter hf.again⟩⟩
  · intro σ φ ε fs hfs s file hrun hfile
    obtain ⟨hstatus, hwrites⟩ := state_of_exited hrun
    obtain ⟨hi, hp, content, text, -, hf, hw⟩ :=
      writes_of_call hfirst hinput hpath hhelp hstatus
    obtain ⟨hok, hstate⟩ := hwrites path text hw
    rw [hstate]
    -- The path leads to the same file as before, which holds the text.
    have htarget := (hfs.target hok).trans hfile
    have hholds := hfs.written hok hfile
    have hfound := hfs.found htarget hholds
    have hprinted : effects edition second (fs.find (fs.write s path text).2) = .print text 0 :=
      effects_of_call_none hsecond hp hpath hfound hf.again
    obtain ⟨hstatus, hagain⟩ := effects_of_call_some hthird hp hp hempty hpath hfound hf.again
    have hok := hfs.again hok
    refine ⟨text, hholds, ?_, ?_, fun other => ?_⟩
    · rw [run_of_written_none (by rw [hprinted]; rfl), hprinted]
      rfl
    · obtain ⟨-, ⟨-, hs⟩ | ⟨e, he, -⟩⟩ := run_of_written hagain
      · exact hs.trans hstatus
      · simp [hok] at he
    · rw [(run_of_written hagain).1]
      by_cases hother : file = other
      · rw [← hother, hholds]
        exact hfs.written hok htarget
      · exact hfs.others text (by simpa [htarget] using hother)

/-- A directory with one file, whose lines end in carriage returns. -/
def returnsOnly : Table String :=
  Table.empty.insert "f.bl" "WHILE true DO\rmove # on\rEND WHILE\r"

/-- Formatting this file in place, and formatting it again. -/
theorem formatting_is_stable_sample :
    (run .second .flat ["f.bl", "-o", "f.bl", "--statements"] returnsOnly).status = .exited 0 ∧
    ∃ formatted text,
      formatted =
        (run .second .flat ["f.bl", "-o", "f.bl", "--statements"] returnsOnly).state ∧
      FileSystem.flat.content? formatted "f.bl" = some text.toUTF8 ∧
      run .second .flat ["--statements", "f.bl"] formatted = ⟨.exited 0, text, "", formatted⟩ ∧
      ∀ name, FileSystem.flat.content?
          (run .second .flat ["f.bl", "--statements", "-o", "f.bl"] formatted).state name =
        FileSystem.flat.content? formatted name := by
  have hfound : FileSystem.flat.find returnsOnly "f.bl" =
      .text "WHILE true DO\rmove # on\rEND WHILE\r" := by
    simp [FileSystem.flat, returnsOnly]
  have hformats : Document.Formats true (readText "WHILE true DO\rmove # on\rEND WHILE\r")
      "WHILE true DO\n  move\nEND WHILE\n" :=
    ⟨.block [.whileDo .always (.block [.call "move"])], by with_unfolding_all rfl,
      by with_unfolding_all rfl⟩
  have hfirst : Calls true "f.bl" (some "f.bl") ["f.bl", "-o", "f.bl", "--statements"] :=
    ⟨0, 0, 1, by decide, rfl⟩
  have hsecond : Calls true "f.bl" none ["--statements", "f.bl"] := ⟨1, 0, 0, by decide, rfl⟩
  have hthird : Calls true "f.bl" (some "f.bl") ["f.bl", "--statements", "-o", "f.bl"] :=
    ⟨0, 1, 0, by decide, rfl⟩
  have hvalue : IsValue "f.bl" := ⟨by decide, by decide⟩
  obtain ⟨hstatus, hw⟩ :=
    effects_of_call_some hfirst hvalue hvalue (by decide) (by decide) hfound hformats
  have hrun : (run .second .flat ["f.bl", "-o", "f.bl", "--statements"] returnsOnly).status =
      .exited 0 := by
    obtain ⟨-, ⟨-, hs⟩ | ⟨e, he, -⟩⟩ := run_of_written hw
    · exact hs.trans hstatus
    · simp [FileSystem.flat, IsFileName] at he
  have hhelp : Request.ofArguments .second ["f.bl", "-o", "f.bl", "--statements"] ≠
      .error .help := by decide
  obtain ⟨-, hall⟩ := formatting_is_stable hfirst hsecond hthird (by decide) (by decide) hhelp
  obtain ⟨text, hholds, hprinted, -, hagain⟩ :=
    hall .flat FileSystem.flat_readsBack returnsOnly "f.bl" hrun (by decide)
  exact ⟨hrun, _, text, rfl, hholds, hprinted, hagain⟩

end CommandLine

end BL
