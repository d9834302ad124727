import BL.Grammar
import BL.Layout.Dump
import BL.Layout.Printer
import BL.Proofs.Source.Words

namespace BL

open Text Layout

/-!
# The words of printed lines

A printed line is some spaces and then words, each after a single space.  Scanning it gives these
words back, however far the line stands in; so the printed lines of a statement or a program hold
the words of its tree and nothing else:

* `Layout.IsWords` — words with single spaces between them;
* `Layout.Spells` — lines without line feeds that hold the words, in order;
* `Layout.spells_line` — a line of words spells these words;
* `Statement.spells_lines`, `Program.spells_lines` — the lines of a tree spell its words;
* `Layout.words_textOfLines` — the text of lines has the words that the lines spell.
-/

/-! ### Spelling of the words -/

namespace Word

theorem hasShape_of_isIdentifier {s : String} (h : isIdentifier s = true) :
    hasShape s.toList = true := by
  simp only [isIdentifier, Bool.and_eq_true] at h
  exact h.1.1

theorem hasShape_of_isKeyword {s : String} (h : isKeyword s = true) :
    hasShape s.toList = true := by
  have hall : ∀ k ∈ keywords, hasShape k.toList = true := by decide
  exact hall s (by simpa [isKeyword] using h)

theorem hasShape_spelling (c : Condition) : hasShape c.spelling.toList = true := by
  cases c <;> decide

/-- Every character of a word may continue a word. -/
theorem isWordChar_of_mem {w : List Char} (hw : hasShape w = true) {c : Char} (hc : c ∈ w) :
    isWordChar c = true := by
  cases w with
  | nil => simp at hc
  | cons d w =>
    simp only [hasShape, Bool.and_eq_true, List.all_eq_true] at hw
    rcases List.mem_cons.1 hc with rfl | hc
    · exact isWordChar_of_isLetter hw.1
    · exact hw.2 c hc

end Word

namespace Layout

/-! ### Words after single spaces -/

/-- The characters of words, each after a space. -/
theorem toList_spaced (ws : List String) :
    (spaced ws).toList = ws.flatMap fun w => ' ' :: w.toList := by
  simp [spaced, String.toList_join, List.flatMap_map]

/-- Words that stand after single spaces are found again, one by one. -/
theorem pieces_spaced {w : String} {ws : List String}
    (h : ∀ v ∈ w :: ws, Word.hasShape v.toList = true) :
    Source.pieces (w.toList ++ (spaced ws).toList) = w :: ws := by
  rw [toList_spaced]
  induction ws generalizing w with
  | nil =>
    rw [List.flatMap_nil, Source.pieces_word (h w List.mem_cons_self) (by simp)]
    simp
  | cons v vs ih =>
    -- The space behind the word is no character of a word, so that the word ends there.
    rw [List.flatMap_cons, List.cons_append,
      Source.pieces_word (h w List.mem_cons_self) (by simp [Word.isWordChar]),
      Source.pieces_blank isBlank_space, ih fun u hu => h u (.tail _ hu), String.ofList_toList]

/-- The text is these words, with single spaces between them. -/
structure IsWords (l : String) (ws : List String) : Prop where
  joined : ∃ w vs, ws = w :: vs ∧ l = w ++ spaced vs
  shaped : ∀ w ∈ ws, Word.hasShape w.toList = true

theorem isWords_cons {l w : String} {ws : List String} (hl : l = w ++ spaced ws)
    (h : ∀ v ∈ w :: ws, Word.hasShape v.toList = true) : IsWords l (w :: ws) where
  joined := ⟨w, ws, rfl, hl⟩
  shaped := h

/-- A name or a condition between two keywords. -/
theorem isWords_between {l v w u : String} (hl : l = v ++ spaced [w, u])
    (hv : Word.isKeyword v = true) (hw : Word.hasShape w.toList = true)
    (hu : Word.isKeyword u = true) : IsWords l [v, w, u] := by
  refine isWords_cons hl ?_
  simp [Word.hasShape_of_isKeyword hv, hw, Word.hasShape_of_isKeyword hu]

/-- An identifier alone. -/
theorem isWords_name {n : String} (hn : Word.isIdentifier n = true) : IsWords n [n] :=
  isWords_cons (by simp [spaced]) (by simp [Word.hasShape_of_isIdentifier hn])

theorem isWords_endIf : IsWords "END IF" ["END", "IF"] := isWords_cons rfl (by decide)

theorem isWords_else : IsWords "ELSE" ["ELSE"] := isWords_cons rfl (by decide)

theorem isWords_endWhile : IsWords "END WHILE" ["END", "WHILE"] := isWords_cons rfl (by decide)

theorem isWords_begin : IsWords "BEGIN" ["BEGIN"] := isWords_cons rfl (by decide)

/-- The opening line of a conditional. -/
theorem isWords_ifLine (c : Condition) : IsWords (ifLine c) ["IF", c.spelling, "THEN"] :=
  isWords_between (by simp [← String.toList_inj, ifLine, toList_spaced]) (by decide)
    (Word.hasShape_spelling c) (by decide)

/-- The opening line of a loop. -/
theorem isWords_whileLine (c : Condition) : IsWords (whileLine c) ["WHILE", c.spelling, "DO"] :=
  isWords_between (by simp [← String.toList_inj, whileLine, toList_spaced]) (by decide)
    (Word.hasShape_spelling c) (by decide)

/-- The opening line of a program. -/
theorem isWords_openingLine {n : String} (hn : Word.isIdentifier n = true) :
    IsWords (Program.openingLine n) ["PROGRAM", n, "IS"] :=
  isWords_between (by simp [← String.toList_inj, Program.openingLine, toList_spaced])
    (by decide) (Word.hasShape_of_isIdentifier hn) (by decide)

/-- The opening line of a definition. -/
theorem isWords_definitionLine {n : String} (hn : Word.isIdentifier n = true) :
    IsWords (Program.definitionLine n) ["INSTRUCTION", n, "IS"] :=
  isWords_between (by simp [← String.toList_inj, Program.definitionLine, toList_spaced])
    (by decide) (Word.hasShape_of_isIdentifier hn) (by decide)

/-- The line that closes a program or a definition. -/
theorem isWords_closingLine {n : String} (hn : Word.isIdentifier n = true) :
    IsWords (Program.closingLine n) ["END", n] := by
  refine isWords_cons (by simp [← String.toList_inj, Program.closingLine, toList_spaced]) ?_
  rw [List.forall_mem_cons, List.forall_mem_singleton]
  exact ⟨by decide, Word.hasShape_of_isIdentifier hn⟩

/-- Every character of a line is a space or belongs to one of its words. -/
theorem mem_toList_line {k : Int} {l : String} {ws : List String} (h : IsWords l ws) {c : Char}
    (hc : c ∈ (line k l).toList) : c = ' ' ∨ ∃ v ∈ ws, c ∈ v.toList := by
  obtain ⟨w, vs, rfl, rfl⟩ := h.joined
  simp only [line, String.toList_append, String.toList_ofList, toList_spaced, List.mem_append,
    List.mem_replicate, List.mem_flatMap, List.mem_cons] at hc
  rcases hc with ⟨-, rfl⟩ | hc | ⟨v, hv, rfl | hc⟩
  · exact .inl rfl
  · exact .inr ⟨w, List.mem_cons_self, hc⟩
  · exact .inl rfl
  · exact .inr ⟨v, .tail _ hv, hc⟩

/-- Apart from spaces, a line of words has only characters of words. -/
theorem notMem_line {k : Int} {l : String} {ws : List String} (h : IsWords l ws) {c : Char}
    (hc : c ≠ ' ') (hw : Word.isWordChar c = false) : c ∉ (line k l).toList := by
  intro hm
  rcases mem_toList_line h hm with rfl | ⟨v, hv, hm⟩
  · exact hc rfl
  · rw [Word.isWordChar_of_mem (h.shaped v hv) hm] at hw
    exact absurd hw (by decide)

theorem pieces_replicate_space (n : Nat) (cs : List Char) :
    Source.pieces (List.replicate n ' ' ++ cs) = Source.pieces cs := by
  induction n with
  | zero => rfl
  | succ n ih => rw [List.replicate_succ, List.cons_append, Source.pieces_blank isBlank_space, ih]

/-! ### Lines that spell words -/

/-- The lines hold these words, in order, and none of them is broken by a line feed. -/
structure Spells (ls ws : List String) : Prop where
  unbroken : ∀ l ∈ ls, '\n' ∉ l.toList
  words : ls.flatMap (fun l => Source.lineWords l.toList) = ws

theorem Spells.nil : Spells [] [] := ⟨by simp, rfl⟩

theorem Spells.append {ls ms ws vs : List String} (h : Spells ls ws) (h' : Spells ms vs) :
    Spells (ls ++ ms) (ws ++ vs) where
  unbroken l hl := (List.mem_append.1 hl).elim (h.unbroken l) (h'.unbroken l)
  words := by rw [List.flatMap_append, h.words, h'.words]

/-- Lines that each spell some words spell all of them together. -/
theorem Spells.flatMap {α : Type} {xs : List α} {f g : α → List String}
    (h : ∀ x ∈ xs, Spells (f x) (g x)) : Spells (xs.flatMap f) (xs.flatMap g) := by
  induction xs with
  | nil => exact .nil
  | cons x xs ih =>
    rw [List.flatMap_cons, List.flatMap_cons]
    exact (h x List.mem_cons_self).append (ih fun y hy => h y (.tail _ hy))

/-- A line without words. -/
theorem spells_line_empty (k : Int) : Spells [line k ""] [] where
  unbroken l hl := by
    obtain rfl := List.mem_singleton.1 hl
    simp [line]
  words := by
    have hc : Source.dropComment (line k "").toList = (line k "").toList := by
      simp [Source.dropComment, line]
    rw [List.flatMap_singleton, Source.lineWords, hc]
    simpa [line] using pieces_replicate_space k.toNat []

/-- **A line of words.** However far it stands in, it spells exactly its words. -/
theorem spells_line (k : Int) {l : String} {ws : List String} (h : IsWords l ws) :
    Spells [line k l] ws where
  unbroken m hm := by
    obtain rfl := List.mem_singleton.1 hm
    exact notMem_line h (by decide) (by decide)
  words := by
    -- There is no comment to cut off.
    have hc : Source.dropComment (line k l).toList = (line k l).toList := by
      refine List.takeWhile_eq_self_iff.2 fun c hm => ?_
      have hne : c ≠ '#' := by
        rintro rfl
        exact notMem_line h (by decide) (by decide) hm
      simpa using hne
    obtain ⟨w, vs, rfl, hl⟩ := h.joined
    rw [List.flatMap_singleton, Source.lineWords, hc, line, String.toList_append,
      String.toList_ofList, pieces_replicate_space, hl, String.toList_append,
      pieces_spaced h.shaped]

/-! ### The text of lines -/

/-- A text of at least one line splits into its lines and an empty one behind the last line feed. -/
theorem splitLines_textOfLines {ls : List String} (hne : ls ≠ [])
    (h : ∀ l ∈ ls, '\n' ∉ l.toList) :
    splitLines (textOfLines ls).toList = ls.map String.toList ++ [[]] := by
  -- The line feed at the end makes an empty line behind it.
  have hjoin : textOfLines ls = "\n".intercalate (ls ++ [""]) := by
    rw [textOfLines, String.intercalate_append_of_ne_nil hne (by simp)]
    simp
  rw [hjoin, splitLines_eq_splitOn, String.toList_intercalate]
  rw [show "\n".toList = ['\n'] from rfl, List.splitOn_intercalate]
  · simp
  · intro l hl
    simp only [List.map_append, List.mem_append, List.mem_map] at hl
    rcases hl with ⟨l, hl, rfl⟩ | ⟨l, hl, rfl⟩
    · exact h l hl
    · obtain rfl := List.mem_singleton.1 hl
      simp
  · simp

theorem lineWords_nil : Source.lineWords [] = [] := by
  simp [Source.lineWords, Source.dropComment]

/-- The text of lines has the words that the lines spell. -/
theorem words_textOfLines {ls ws : List String} (h : Spells ls ws) :
    Source.words (textOfLines ls) = ws := by
  rw [Source.words_eq_flatMap, ← h.words]
  by_cases hne : ls = []
  · -- The text of no lines is a line feed, and there is nothing on either side of it.
    subst hne
    simp [textOfLines, lineWords_nil]
  · rw [splitLines_textOfLines hne h.unbroken]
    simp [List.flatMap_map, lineWords_nil]

/-- The empty text has no words. -/
theorem words_empty : Source.words "" = [] := by
  simp [Source.words_eq_flatMap, lineWords_nil]

end Layout

/-! ### The lines of a tree -/

namespace Statement

/-- **The lines of a statement spell its words**, whatever their indentation. -/
theorem spells_lines {s : Statement} (hs : s.WellFormed) (indent k : Int) :
    Spells (s.lines indent k) s.words := by
  -- What is enclosed stands further in, so that the induction is over all indentations.
  induction s generalizing k with
  | block ss ih =>
    rw [wellFormed_block] at hs
    rw [lines_block, words_block]
    exact .flatMap fun s h => ih s h (hs s h).2 k
  | ifThen c s ih =>
    rw [wellFormed_ifThen] at hs
    have ho := spells_line k (isWords_ifLine c)
    have hc := spells_line k isWords_endIf
    rw [lines, words]
    exact ho.append ((ih hs.2 (k + indent)).append hc)
  | ifElse c s t ih ih' =>
    rw [wellFormed_ifElse] at hs
    have ho := spells_line k (isWords_ifLine c)
    have he := spells_line k isWords_else
    have hc := spells_line k isWords_endIf
    rw [lines, words]
    exact ho.append ((ih hs.1.2 (k + indent)).append
      (he.append ((ih' hs.2.2 (k + indent)).append hc)))
  | whileDo c s ih =>
    rw [wellFormed_whileDo] at hs
    have ho := spells_line k (isWords_whileLine c)
    have hc := spells_line k isWords_endWhile
    rw [lines, words]
    exact ho.append ((ih hs.2 (k + indent)).append hc)
  | call n =>
    rw [wellFormed_call] at hs
    rw [lines, words]
    exact spells_line k (isWords_name hs)

end Statement

namespace Program

/-- The lines of a definition spell its words; the empty line behind it spells none. -/
theorem spells_definitionLines {e : String × Statement} (hn : Word.isIdentifier e.1 = true)
    (hs : e.2.WellFormed) (indent : Int) :
    Spells (definitionLines indent e) (definitionWords e) := by
  have hopen := spells_line indent (isWords_definitionLine hn)
  have hclose := (spells_line indent (isWords_closingLine hn)).append (spells_line_empty 0)
  exact hopen.append ((Statement.spells_lines hs indent (2 * indent)).append hclose)

/-- **The lines of a program spell its words**, whatever their indentation. -/
theorem spells_lines {p : Program} (hp : p.WellFormed) (indent : Int) :
    Spells (p.lines indent) p.words := by
  have hopen := (spells_line 0 (isWords_openingLine hp.name)).append (spells_line_empty 0)
  have hdefs : Spells (p.context.entries.flatMap (definitionLines indent))
      (p.context.entries.flatMap definitionWords) :=
    .flatMap fun e he => spells_definitionLines (hp.entries e he).1 (hp.entries e he).2.2 indent
  have hbegin := spells_line 0 isWords_begin
  have hbody := Statement.spells_lines hp.body.2 indent indent
  have hclose := spells_line 0 (isWords_closingLine hp.name)
  exact hopen.append (hdefs.append (hbegin.append (hbody.append hclose)))

end Program

end BL
