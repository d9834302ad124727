import BL.Proofs.Reading.ProgramFailure
import BL.Proofs.RoundTrip

namespace BL

open Grammar TokenQueue

/-!
# Which programs are read back

A program may hold definitions of primitive instructions, since only a source may not define them.
Its printed text is read back exactly if it holds none:

* `Program.ofSource_eq_ok_of_words` — a text with the words of a program is read as this program, if
  it defines no primitive instruction;
* `Program.ofSource_eq_error_of_words` — otherwise the text is rejected at the name of the first one
  that it defines;
* `Program.reads_back_iff` — both together, for every well-formed program and every indentation.
-/

namespace Program

variable {p q : Program} {text n : String} {s : Statement} {es fs : List (String × Statement)}

/-! ### Programs without primitive definitions -/

/-- A text with the words of a well-formed program is read as a program exactly if this one defines
    no primitive instruction, and then as this one. -/
theorem ofSource_eq_ok_of_words (hp : p.WellFormed) (hw : Source.words text = p.words)
    (hprim : ∀ n ∈ p.context.names, Word.isPrimitive n = false) : ofSource text = .ok p :=
  ofSource_eq_ok_iff.2 (isProgram_iff.2 ⟨hp, hprim, hw⟩)

/-! ### Programs with primitive definitions -/

/-- The words of a program up to the name of one of its definitions. -/
def wordsBefore (p : Program) (es : List (String × Statement)) : List String :=
  "PROGRAM" :: p.name :: "IS" :: (es.flatMap definitionWords ++ ["INSTRUCTION"])

/-- Behind the definitions that come before, a definition begins with its keyword and its name. -/
theorem exists_words_eq (h : p.context.entries = es ++ (n, s) :: fs) :
    ∃ vs, p.words = p.wordsBefore es ++ n :: vs := by
  rw [words, h, wordsBefore]
  exact ⟨"IS" :: (s.words ++ "END" :: n :: (fs.flatMap definitionWords ++
    "BEGIN" :: (p.body.words ++ ["END", p.name]))), by simp [definitionWords]⟩

/-- Behind definitions that a source may hold, the name of a primitive instruction is refused. -/
theorem refuses_primitive (hp : p.WellFormed) (h : p.context.entries = es ++ (n, s) :: fs)
    (hes : ∀ e ∈ es, Word.isPrimitive e.1 = false) (hn : Word.isPrimitive n = true) :
    RefusesProgram (p.wordsBefore es) n .definesPrimitive := by
  have hentries := hp.entries
  have hdistinct := p.context.distinct
  rw [h] at hentries hdistinct
  have hdefs : IsDefinitions (es.flatMap definitionWords) es :=
    isDefinitions_iff.2 ⟨fun e he =>
      ⟨(hentries e (List.mem_append_left _ he)).1, hes e he,
        (hentries e (List.mem_append_left _ he)).2⟩, rfl⟩
  have hnodup : (es.map Prod.fst).Nodup := by
    rw [List.map_append] at hdistinct
    exact (List.nodup_append.1 hdistinct).1
  have hid : Word.isIdentifier n = true :=
    (hentries (n, s) (List.mem_append_right _ List.mem_cons_self)).1
  have hname : RefusesDefinition ["INSTRUCTION"] n .definesPrimitive :=
    .opening (.word (.primitive hid hn))
  exact .definition (.mk hp.name hdefs hnodup) hname

/-- A text with the words of a program is rejected at the name of the first primitive instruction
    that the program defines. -/
theorem ofSource_eq_error_of_words (hp : p.WellFormed) (hw : Source.words text = p.words)
    (h : p.context.entries = es ++ (n, s) :: fs)
    (hes : ∀ e ∈ es, Word.isPrimitive e.1 = false) (hn : Word.isPrimitive n = true) :
    ∃ us t vs, ofSource text = .error (.rejected ⟨.definesPrimitive, t⟩) ∧ t.text = n ∧
      Source.tokens text = us ++ t :: vs ∧ us.map Token.text = p.wordsBefore es := by
  obtain ⟨vs, hwords⟩ := exists_words_eq h
  have hg := gives_words_ofSource text
  rw [hw, hwords] at hg
  -- The reader gets as far as the name.
  obtain ⟨m, hm, hg⟩ := gives_append_iff.1 hg
  have hfront : m.front.text = n := hg.front_text
  have hrefused := refuses_primitive hp h hes hn
  rw [← hfront] at hrefused
  obtain ⟨us, hus, hl⟩ := hm
  obtain ⟨t, ts, hts⟩ := List.exists_cons_of_ne_nil (l := m.toList) (by simp [toList])
  obtain rfl : m.front = t := front_eq_of_toList hts
  refine ⟨us, m.front, ts, ofSource_eq_error_iff.2 (.inl ⟨_, m, _, ⟨us, hus, hl⟩, hrefused, rfl⟩),
    hfront, ?_, hus⟩
  rw [← toList_ofSource, hl, hts]

/-! ### Printed programs -/

/-- The first primitive instruction that a program defines, and the definitions before it. -/
theorem exists_first_primitive (h : ∃ n ∈ p.context.names, Word.isPrimitive n = true) :
    ∃ es n s fs, p.context.entries = es ++ (n, s) :: fs ∧ Word.isPrimitive n = true ∧
      (∀ e ∈ es, Word.isPrimitive e.1 = false) ∧
      p.context.names.find? Word.isPrimitive = some n := by
  obtain ⟨n, hn, hprim⟩ := h
  obtain ⟨m, hm⟩ := Option.isSome_iff_exists.1 (List.find?_isSome.2 ⟨n, hn, hprim⟩)
  obtain ⟨hmprim, as, bs, has, hnone⟩ := List.find?_eq_some_iff_append.1 hm
  obtain ⟨es, fs, hentries, rfl, hfs⟩ := List.map_eq_append_iff.1 has
  obtain ⟨⟨_, s⟩, fs, rfl, rfl, rfl⟩ := List.map_eq_cons_iff.1 hfs
  refine ⟨es, _, s, fs, hentries, hmprim, fun e he => ?_, hm⟩
  simpa using hnone e.1 (List.mem_map_of_mem he)

/-- **Which programs survive printing and reading.** The printed text of a well-formed program is
    read as a program exactly if no primitive instruction is defined, and then it is read as the
    same program.  Otherwise it is rejected for defining a primitive instruction, at the name of the
    first one in the order of the definitions. -/
theorem reads_back_iff (p : Program) (hp : p.WellFormed) (indent : Int) :
    ∃ printed, (Printer.ofIndent indent).program p = .ok (printed, p) ∧
      ((∃ q, ofSource printed.text = .ok q) ↔
        ∀ n ∈ p.context.names, Word.isPrimitive n = false) ∧
      (∀ q, ofSource printed.text = .ok q → q = p) ∧
      ((¬ ∀ n ∈ p.context.names, Word.isPrimitive n = false) →
        ∃ es n s fs us t vs, p.context.entries = es ++ (n, s) :: fs ∧
          p.context.names.find? Word.isPrimitive = some n ∧
          ofSource printed.text = .error (.rejected ⟨.definesPrimitive, t⟩) ∧ t.text = n ∧
          Source.tokens printed.text = us ++ t :: vs ∧ us.map Token.text = p.wordsBefore es) := by
  have hprint := Printer.program_eq (Printer.ofIndent indent) (fun e he => (hp.entries e he).2.2)
    hp.body.2
  refine ⟨_, hprint, ?_⟩
  generalize htext : Printer.text _ = text
  have hw : Source.words text = p.words := by
    rw [← htext]
    exact Layout.words_textOfLines (spells_lines hp indent)
  -- Either the text is read as the program, or it is rejected at a name.
  by_cases hprim : ∀ n ∈ p.context.names, Word.isPrimitive n = false
  · have hread := ofSource_eq_ok_of_words hp hw hprim
    refine ⟨⟨fun _ => hprim, fun _ => ⟨p, hread⟩⟩, fun q hq => ?_, fun h => absurd hprim h⟩
    rw [hread] at hq
    exact (Except.ok.inj hq).symm
  · obtain ⟨es, n, s, fs, hentries, hn, hes, hfirst⟩ :=
      exists_first_primitive (p := p) (by simpa using hprim)
    obtain ⟨us, t, vs, herror, ht, htokens, hus⟩ :=
      ofSource_eq_error_of_words hp hw hentries hes hn
    have hnot : ∀ q, ofSource text ≠ .ok q := by
      intro q hq
      rw [herror] at hq
      cases hq
    exact ⟨⟨fun ⟨q, hq⟩ => absurd hq (hnot q), fun h => absurd h hprim⟩,
      fun q hq => absurd hq (hnot q),
      fun _ => ⟨es, n, s, fs, us, t, vs, hentries, hfirst, herror, ht, htokens, hus⟩⟩

/-- A program that defines one instruction, and one that defines a primitive instruction. -/
theorem reads_back_iff_samples :
    (∃ printed, (Printer.ofIndent 4).program sample = .ok (printed, sample) ∧
      ofSource printed.text = .ok sample) ∧
    ∃ (p : Program) (printed : Printer) (t : Token), p.context.names = ["go", "skip", "move"] ∧
      (Printer.ofIndent (-1)).program p = .ok (printed, p) ∧
      ofSource printed.text = .error (.rejected ⟨.definesPrimitive, t⟩) ∧ t.text = "skip" := by
  constructor
  · have hwf : sample.WellFormed :=
      ⟨by decide, List.forall_mem_singleton.2 ⟨by decide, rfl, by decide⟩, rfl, by decide⟩
    obtain ⟨printed, hprint, hiff, hsame, -⟩ := reads_back_iff sample hwf 4
    obtain ⟨q, hq⟩ := hiff.2 (by decide)
    obtain rfl := hsame q hq
    exact ⟨printed, hprint, hq⟩
  · have hwf : Program.WellFormed ⟨"P",
        ⟨[("go", .empty), ("skip", .empty), ("move", .empty)], by decide⟩, .empty⟩ :=
      ⟨by decide, by simp [IsBlock]; decide, rfl, by decide⟩
    obtain ⟨printed, hprint, -, -, herror⟩ := reads_back_iff _ hwf (-1)
    obtain ⟨es, n, s, fs, us, t, vs, -, hfirst, herror, ht, -, -⟩ := herror (by decide)
    obtain rfl : "skip" = n := Option.some.inj hfirst
    exact ⟨_, printed, t, rfl, hprint, herror, ht⟩

end Program

end BL
