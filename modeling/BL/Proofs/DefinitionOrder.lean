import BL.Proofs.RoundTrip
import Mathlib.Data.List.FinRange

namespace BL

open Grammar Layout

/-!
# The order of the definitions

A definition is read without regard to those before it, except that its name must be new, and a
table holds its entries whatever their order.  So the definitions of a source may change places: it
is read as a program that agrees with the former one.  The table keeps the new order, and printing
follows the table.

* `Sections` — a list with sections that may change places;
* `Table.reorder`, `Program.reorder` — the same entries, or definitions, in another order;
* `Table.find?_reorder`, `Program.agrees_reorder` — what is found does not depend on the order;
* `Program.words_reorder`, `Program.lines_reorder` — the words and the printed lines of the
  definitions change places with them;
* `Program.ofSource_reorder` — sources whose definitions change places.
-/

/-! ### Lists in another order -/

/-- The elements of a list, each from the place that `σ` gives. -/
def reordered {α : Type} (es : List α) (σ : Equiv.Perm (Fin es.length)) : List α :=
  List.ofFn fun i => es.get (σ i)

/-- They are the same elements. -/
theorem reordered_perm {α : Type} (es : List α) (σ : Equiv.Perm (Fin es.length)) :
    (reordered es σ).Perm es := by
  have h := Equiv.Perm.ofFn_comp_perm σ es.get
  rwa [List.ofFn_get] at h

/-- A list in parts: sections one after the other, with something before and something behind. -/
structure Sections (n : Nat) (α : Type) where
  front : List α
  parts : Fin n → List α
  back : List α

namespace Sections

variable {n : Nat} {α β : Type}

/-- The whole list. -/
def toList (s : Sections n α) : List α := s.front ++ ((List.ofFn s.parts).flatten ++ s.back)

/-- The sections change places: each comes from the place that `σ` gives. -/
def reorder (s : Sections n α) (σ : Equiv.Perm (Fin n)) : Sections n α :=
  { s with parts := fun i => s.parts (σ i) }

/-- A section for each element of a list. -/
def ofElements (front : List α) (es : List β) (part : β → List α) (back : List α) :
    Sections es.length α where
  front := front
  parts i := part (es.get i)
  back := back

theorem flatMap_ofFn (g : Fin n → β) (part : β → List α) :
    (List.ofFn g).flatMap part = (List.ofFn fun i => part (g i)).flatten := by
  rw [List.flatMap_def, List.map_ofFn]
  rfl

theorem toList_ofElements (front : List α) (es : List β) (part : β → List α) (back : List α) :
    (ofElements front es part back).toList = front ++ (es.flatMap part ++ back) := by
  have h := flatMap_ofFn es.get part
  rw [List.ofFn_get] at h
  rw [h]
  rfl

/-- Sections change places with the elements that they are for. -/
theorem toList_reorder_ofElements (front : List α) (es : List β) (part : β → List α)
    (back : List α) (σ : Equiv.Perm (Fin es.length)) :
    ((ofElements front es part back).reorder σ).toList =
      front ++ ((reordered es σ).flatMap part ++ back) := by
  rw [reordered, flatMap_ofFn]
  rfl

end Sections

/-! ### Tables -/

namespace Table

variable {α : Type}

/-- The entries change places. -/
def reorder (t : Table α) (σ : Equiv.Perm (Fin t.entries.length)) : Table α where
  entries := reordered t.entries σ
  distinct := ((reordered_perm t.entries σ).map Prod.fst).nodup_iff.2 t.distinct

variable (t : Table α) (σ : Equiv.Perm (Fin t.entries.length))

theorem entries_reorder : (t.reorder σ).entries = reordered t.entries σ := rfl

@[simp] theorem mem_entries_reorder {e : String × α} :
    e ∈ (t.reorder σ).entries ↔ e ∈ t.entries :=
  (reordered_perm t.entries σ).mem_iff

/-- The names change places with the entries. -/
theorem names_reorder : (t.reorder σ).names = List.ofFn fun i => (t.entries.get (σ i)).1 := by
  rw [names, entries_reorder, reordered, List.map_ofFn]
  rfl

/-- What is found under a name does not depend on the order. -/
@[simp] theorem find?_reorder (name : String) : (t.reorder σ).find? name = t.find? name := by
  refine Option.ext fun v => ?_
  rw [find?_eq_some_iff, find?_eq_some_iff, mem_entries_reorder]

end Table

/-! ### Programs -/

namespace Program

/-- The definitions change places. -/
def reorder (p : Program) (σ : Equiv.Perm (Fin p.context.entries.length)) : Program :=
  { p with context := p.context.reorder σ }

/-- The words of a program, with a section for each definition. -/
def wordSections (p : Program) : Sections p.context.entries.length String :=
  .ofElements ["PROGRAM", p.name, "IS"] p.context.entries definitionWords
    ("BEGIN" :: (p.body.words ++ ["END", p.name]))

/-- The lines of a program, with a section for each definition. -/
def lineSections (indent : Int) (p : Program) : Sections p.context.entries.length String :=
  .ofElements [line 0 (openingLine p.name), line 0 ""] p.context.entries (definitionLines indent)
    (line 0 "BEGIN" :: (p.body.lines indent indent ++ [line 0 (closingLine p.name)]))

variable (p : Program) (σ : Equiv.Perm (Fin p.context.entries.length))

/-- Equality of programs disregards the order of the definitions. -/
theorem agrees_reorder : (p.reorder σ).agrees p = true := by
  have hc : (p.context.reorder σ).agrees p.context = true :=
    Table.agrees_iff.2 fun name => Table.find?_reorder _ σ name
  simp [agrees, reorder, hc]

variable {p} in
/-- Well-formedness does not depend on the order. -/
theorem WellFormed.reorder (hp : p.WellFormed) : (p.reorder σ).WellFormed where
  name := hp.name
  entries e he := hp.entries e ((p.context.mem_entries_reorder σ).1 he)
  body := hp.body

/-! ### Words and lines -/

theorem toList_wordSections : p.wordSections.toList = p.words :=
  Sections.toList_ofElements ..

theorem toList_lineSections (indent : Int) : (p.lineSections indent).toList = p.lines indent :=
  Sections.toList_ofElements ..

/-- The words of the definitions change places with them. -/
theorem words_reorder : (p.reorder σ).words = (p.wordSections.reorder σ).toList := by
  rw [wordSections, Sections.toList_reorder_ofElements]
  rfl

/-- The lines of the definitions change places with them. -/
theorem lines_reorder (indent : Int) :
    (p.reorder σ).lines indent = ((p.lineSections indent).reorder σ).toList := by
  rw [lineSections, Sections.toList_reorder_ofElements]
  rfl

/-! ### Sources -/

variable {p}

/-- In a source of the program, each section of the words is a definition. -/
theorem isDefinitions_parts {ws : List String} (h : IsProgram ws p)
    (i : Fin p.context.entries.length) :
    IsDefinitions (p.wordSections.parts i) [p.context.entries.get i] := by
  obtain ⟨hp, hprim, -⟩ := isProgram_iff.1 h
  have hmem : p.context.entries.get i ∈ p.context.entries := List.get_mem ..
  have hentry := hp.entries _ hmem
  have hnew := hprim _ (List.mem_map_of_mem hmem)
  refine isDefinitions_iff.2 ⟨List.forall_mem_singleton.2 ⟨hentry.1, hnew, hentry.2⟩, ?_⟩
  rw [List.flatMap_singleton]
  rfl

/-- The words whose sections change places are those of the program whose definitions do. -/
theorem isProgram_reorder {ws : List String} (h : IsProgram ws p) :
    IsProgram (p.wordSections.reorder σ).toList (p.reorder σ) := by
  obtain ⟨hp, hprim, -⟩ := isProgram_iff.1 h
  refine isProgram_iff.2 ⟨hp.reorder σ, fun n hn => ?_, (p.words_reorder σ).symm⟩
  obtain ⟨e, he, rfl⟩ := List.mem_map.1 hn
  exact hprim _ (List.mem_map_of_mem ((p.context.mem_entries_reorder σ).1 he))

/-- A well-formed program whose definitions change places is printed in lines whose sections
    do. -/
theorem WellFormed.pretty_reorder (hp : p.WellFormed) :
    (p.reorder σ).pretty = .ok (textOfLines
      ((p.lineSections Printer.defaultIndent).reorder σ).toList, p.reorder σ) := by
  rw [(hp.reorder σ).pretty_eq, lines_reorder]

/-- **The order of the definitions does not matter.** The words of a source that is read as a
    program fall into sections, one for each definition, and so do the printed lines.  When the
    definitions change places, the source is read as a program that agrees with the former one; its
    table lists the names in the new order, and the printed sections change places in the same
    way. -/
theorem ofSource_reorder {source : String} (h : Program.ofSource source = .ok p) :
    Source.words source = p.wordSections.toList ∧
    (∀ i, IsDefinitions (p.wordSections.parts i) [p.context.entries.get i]) ∧
    p.pretty = .ok (textOfLines (p.lineSections Printer.defaultIndent).toList, p) ∧
    ∀ σ : Equiv.Perm (Fin p.context.entries.length),
      (∀ text, Source.words text = (p.wordSections.reorder σ).toList →
        Program.ofSource text = .ok (p.reorder σ)) ∧
      (p.reorder σ).agrees p = true ∧
      (p.reorder σ).context.names = List.ofFn (fun i => (p.context.entries.get (σ i)).1) ∧
      ∃ text, (p.reorder σ).pretty = .ok (text, p.reorder σ) ∧
        text = textOfLines ((p.lineSections Printer.defaultIndent).reorder σ).toList ∧
        Source.words text = (p.wordSections.reorder σ).toList := by
  have hread := Program.ofSource_eq_ok_iff.1 h
  obtain ⟨hp, hw⟩ := wellFormed_of_ofSource h
  refine ⟨hw.trans p.toList_wordSections.symm, isDefinitions_parts hread, ?_, fun σ => ?_⟩
  · rw [toList_lineSections]
    exact hp.pretty_eq
  · refine ⟨fun text htext => ?_, p.agrees_reorder σ, p.context.names_reorder σ, _,
      hp.pretty_reorder σ, rfl, ?_⟩
    · rw [Program.ofSource_eq_ok_iff, htext]
      exact isProgram_reorder σ hread
    · -- Such a text exists: the one that is printed.
      rw [← lines_reorder, ← words_reorder]
      exact words_textOfLines (spells_lines (hp.reorder σ) Printer.defaultIndent)

/-- A program whose second definition calls the first one. -/
def callsBack : Program where
  name := "P"
  context := ⟨[("a", .block [.call "move"]), ("b", .block [.call "a"])], by decide⟩
  body := .block [.call "b"]

/-- Its definitions in the other order, so that one is called before it is defined. -/
theorem ofSource_reorder_callsBack :
    Program.ofSource ("PROGRAM P IS INSTRUCTION a IS move END a INSTRUCTION b IS a END b " ++
      "BEGIN b END P") = .ok callsBack ∧
    ∃ q, Program.ofSource ("PROGRAM P IS INSTRUCTION b IS a END b INSTRUCTION a IS move END a " ++
      "BEGIN b END P") = .ok q ∧ q.agrees callsBack = true ∧ q.context.names = ["b", "a"] := by
  have hread : Program.ofSource ("PROGRAM P IS INSTRUCTION a IS move END a " ++
      "INSTRUCTION b IS a END b BEGIN b END P") = .ok callsBack := by
    have hentries : ∀ e ∈ callsBack.context.entries,
        Word.isIdentifier e.1 = true ∧ IsBlock e.2 :=
      List.forall_mem_cons.2 ⟨⟨by decide, rfl, by decide⟩,
        List.forall_mem_singleton.2 ⟨by decide, rfl, by decide⟩⟩
    exact Program.ofSource_eq_ok_iff.2 (isProgram_iff.2
      ⟨⟨by decide, hentries, rfl, by decide⟩, by decide, by decide +kernel⟩)
  obtain ⟨-, -, -, hreorder⟩ := ofSource_reorder hread
  obtain ⟨hswapped, hagrees, hnames, -⟩ := hreorder (show Equiv.Perm (Fin 2) from Equiv.swap 0 1)
  exact ⟨hread, _, hswapped _ (by decide +kernel), hagrees, hnames.trans (by decide)⟩

end Program

end BL
