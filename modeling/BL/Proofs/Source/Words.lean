import BL.Token.Queue
import Mathlib.Data.List.TakeWhile

namespace BL

open Text

/-!
# The words of a source text

A reader looks at the texts of tokens alone.  This file follows these texts through the scan of a
source:

* `Source.words` — the texts of the tokens of a source, without the end of the input;
* `Source.words_eq_flatMap` — they are found line by line, wherever a line stands;
* `Source.pieces_cut`, `Source.pieces_word` — a piece is cut off where no character continues it,
  and a word where letters, digits and hyphens end;
* `Source.endText_notMem_words` — none of them is the text that ends the input, so that a queue
  made from a source ends at its last token and nowhere before.
-/

namespace Text

/-! ### Lines -/

/-- Lines are what core's `List.splitOn` finds between line feeds. -/
theorem splitLines_eq_splitOn (cs : List Char) : splitLines cs = cs.splitOn '\n' := by
  induction cs with
  | nil => rfl
  | cons c cs ih =>
    rw [List.splitOn_cons_eq_if_modifyHead, ← ih]
    by_cases h : c = '\n'
    · simp [h]
    · obtain ⟨l, ls, hl⟩ := List.exists_cons_of_ne_nil (ih ▸ List.splitOn_ne_nil '\n' cs)
      rw [splitLines_cons h, if_neg (by simpa using h), hl]
      rfl

end Text

namespace Source

/-! ### The words of a line -/

/-- The texts of the tokens in the characters, a piece of a line without comment. -/
def pieces (cs : List Char) : List String := (tokensFrom 1 0 cs).map Token.text

/-- The texts of the tokens of a line. -/
def lineWords (cs : List Char) : List String := pieces (dropComment cs)

/-- The texts of the tokens of a source, the end of the input left out. -/
def words (source : String) : List String := (tokens source).dropLast.map Token.text

/-- What the tokens are does not depend on where they stand. -/
theorem map_text_tokensFrom (line column : Nat) (cs : List Char) :
    (tokensFrom line column cs).map Token.text = pieces cs := by
  suffices h : ∀ line' column', (tokensFrom line column cs).map Token.text
      = (tokensFrom line' column' cs).map Token.text from h 1 0
  fun_induction tokensFrom line column cs with
  | case1 => simp
  | case2 column c cs hc ih =>
    intro line' column'
    rw [tokensFrom_blank hc]
    exact ih line' (column' + 1)
  | case3 column c cs hc ih =>
    intro line' column'
    rw [tokensFrom_piece (by simpa using hc), List.map_cons, List.map_cons, ih]
    rfl

/-- The same for a line with its comment. -/
theorem map_text_lineTokens (number : Nat) (cs : List Char) :
    (lineTokens number cs).map Token.text = lineWords cs :=
  map_text_tokensFrom number 0 (dropComment cs)

theorem map_text_linesTokens (number : Nat) (ls : List (List Char)) :
    (linesTokens number ls).map Token.text = ls.flatMap lineWords := by
  induction ls generalizing number with
  | nil => rfl
  | cons l ls ih => simp [linesTokens, map_text_lineTokens, ih]

/-- The words of a source are those of its lines, one line after the other. -/
theorem words_eq_flatMap (source : String) :
    words source = (splitLines source.toList).flatMap lineWords := by
  simp [words, tokens, map_text_linesTokens]

/-- The texts of all tokens are the words and the text that ends the input. -/
theorem map_text_tokens (source : String) :
    (tokens source).map Token.text = words source ++ [Token.endText] := by
  simp [words, tokens]

/-! ### Blanks and words in a line -/

@[simp] theorem pieces_nil : pieces [] = [] := by simp [pieces]

/-- A blank in front changes nothing. -/
theorem pieces_blank {c : Char} (h : isBlank c = true) (cs : List Char) :
    pieces (c :: cs) = pieces cs := by
  rw [pieces, tokensFrom_blank h, map_text_tokensFrom]

/-- No letter is blank. -/
theorem isBlank_of_isLetter {c : Char} (h : Word.isLetter c = true) : isBlank c = false := by
  have hn : (65 ≤ c.toNat ∧ c.toNat ≤ 90) ∨ (97 ≤ c.toNat ∧ c.toNat ≤ 122) := by
    have hc : (decide ('A'.val ≤ c.val ∧ c.val ≤ 'Z'.val) ||
        (decide ('a'.val ≤ c.val) && decide (c.val ≤ 'z'.val))) = true := h
    simpa [UInt32.le_iff_toNat_le] using hc
  simp only [isBlank, Bool.or_eq_false_iff, Bool.and_eq_false_iff, decide_eq_false_iff_not,
    beq_eq_false_iff_ne]
  omega

/-- **Maximal pieces.** A piece is cut off exactly where no character continues it. -/
theorem pieces_cut {c : Char} {w cs : List Char} (hc : isBlank c = false)
    (hw : ∀ d ∈ w, continues c d = true) (hcs : ∀ d ∈ cs.head?, continues c d = false) :
    pieces (c :: w ++ cs) = String.ofList (c :: w) :: pieces cs := by
  -- The characters that continue the piece go on through `w` and stop in front of `cs`.
  have htake : (w ++ cs).takeWhile (continues c) = w := by
    rw [List.takeWhile_append_of_pos hw]
    cases cs with
    | nil => simp
    | cons d cs => simp [hcs d rfl]
  have hdrop : (w ++ cs).dropWhile (continues c) = cs := by
    rw [List.dropWhile_append_of_pos hw]
    cases cs with
    | nil => simp
    | cons d cs => simp [hcs d rfl]
  rw [List.cons_append, pieces, tokensFrom_piece hc, htake, hdrop, List.map_cons,
    map_text_tokensFrom]
  rfl

/-- **Maximal words.** A word is cut off exactly where letters, digits and hyphens end. -/
theorem pieces_word {w : List Char} (hw : Word.hasShape w = true) {cs : List Char}
    (hcs : ∀ c ∈ cs.head?, Word.isWordChar c = false) :
    pieces (w ++ cs) = String.ofList w :: pieces cs := by
  cases w with
  | nil => simp [Word.hasShape] at hw
  | cons c w =>
    simp only [Word.hasShape, Bool.and_eq_true, List.all_eq_true] at hw
    obtain ⟨hc, hw⟩ := hw
    have hcont : continues c = Word.isWordChar := by simp [continues, hc]
    exact pieces_cut (isBlank_of_isLetter hc) (hcont ▸ hw) (hcont ▸ hcs)

/-! ### The end of the input -/

/-- A token holds no hash sign if the characters hold none. -/
theorem hash_notMem_of_mem_tokensFrom {line column : Nat} {cs : List Char} (h : '#' ∉ cs)
    {t : Token} (ht : t ∈ tokensFrom line column cs) : '#' ∉ t.text.toList := by
  fun_induction tokensFrom line column cs with
  | case1 => simp at ht
  | case2 column c cs hc ih => exact ih (fun hm => h (.tail _ hm)) ht
  | case3 column c cs hc ih =>
    rcases List.mem_cons.1 ht with rfl | ht
    · -- The token is a piece of the characters.
      intro hm
      rw [pieceToken, String.toList_ofList] at hm
      rcases List.mem_cons.1 hm with rfl | hm
      · exact h List.mem_cons_self
      · exact h (.tail _ ((List.takeWhile_sublist _).mem hm))
    · exact ih (fun hm => h (.tail _ ((List.dropWhile_sublist _).mem hm))) ht

theorem hash_notMem_dropComment (cs : List Char) : '#' ∉ dropComment cs := by
  intro h
  simpa using List.mem_takeWhile_imp h

/-- A word of a line holds no hash sign: there a comment would begin. -/
theorem hash_notMem_of_mem_lineWords {cs : List Char} {w : String} (h : w ∈ lineWords cs) :
    '#' ∉ w.toList := by
  obtain ⟨t, ht, rfl⟩ := List.mem_map.1 h
  exact hash_notMem_of_mem_tokensFrom (hash_notMem_dropComment cs) ht

/-- No word of a source ends the input. -/
theorem endText_notMem_words (source : String) : Token.endText ∉ words source := by
  intro h
  rw [words_eq_flatMap] at h
  obtain ⟨l, -, hw⟩ := List.mem_flatMap.1 h
  -- The text that ends the input begins with a hash sign.
  exact hash_notMem_of_mem_lineWords hw (by decide)

end Source

namespace TokenQueue

/-- Ahead of its last token the queue of a source holds the words of the source. -/
theorem map_text_ahead_ofSource (source : String) :
    (ofSource source).ahead.map Token.text = Source.words source := by
  rw [Source.words, ← toList_ofSource, toList, List.dropLast_concat]

end TokenQueue

end BL
