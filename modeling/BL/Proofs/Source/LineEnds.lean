import BL.Proofs.Source.Separators
import BL.Reading.Source
import Mathlib.Data.List.Forall2

namespace BL

open Text

/-!
# Line ends of files

A source text is read as it is, and the content of a file with its line ends made uniform.  If every
carriage return stands in front of a line feed, then both have the same lines, except that lines of
the source text may end with a carriage return.  No token reaches that far: what stands at the end
of a line is a blank, or belongs to the comment.

* `Text.ReturnsEndLines` — every carriage return stands in front of a line feed;
* `Text.UpToReturn` — lines that differ at most by a carriage return at the end;
* `Text.forall₂_splitLines` — the lines of a text, with and without uniform line ends;
* `Source.tokensFrom_concat_blank`, `Source.lineTokens_concat_return` — the end of a line is no
  part of a token;
* `Program.ofFile_eq_ofSource` — so the file and the text have the same tokens, and hold the same
  program or are rejected alike.
-/

namespace Text

/-! ### Carriage returns at the ends of lines -/

/-- Every carriage return stands in front of a line feed. -/
def ReturnsEndLines (cs : List Char) : Prop :=
  ∀ i : Nat, cs[i]? = some '\r' → cs[i + 1]? = some '\n'

/-- The second line is the first one, or the first one with a carriage return behind it. -/
def UpToReturn (l m : List Char) : Prop := m = l ∨ m = l ++ ['\r']

theorem returnsEndLines_nil : ReturnsEndLines [] := by
  intro i h
  cases h

/-- What is asked of a text is asked of its first character and of the rest. -/
theorem returnsEndLines_cons_iff {c : Char} {cs : List Char} :
    ReturnsEndLines (c :: cs) ↔ (c = '\r' → cs.head? = some '\n') ∧ ReturnsEndLines cs := by
  constructor
  · intro h
    refine ⟨fun hc => ?_, fun i hi => h (i + 1) hi⟩
    have hnext := h 0 (congrArg some hc)
    rwa [List.head?_eq_getElem?]
  · rintro ⟨hfirst, hrest⟩ i hi
    cases i with
    | zero =>
      have hnext := hfirst (Option.some.inj hi)
      rwa [List.head?_eq_getElem?] at hnext
    | succ i => exact hrest i hi

/-! ### Lines with uniform ends -/

/-- Lines that differ at most by carriage returns do so with a character in front. -/
theorem forall₂_consFirst (c : Char) {ls ms : List (List Char)}
    (h : List.Forall₂ UpToReturn ls ms) :
    List.Forall₂ UpToReturn (consFirst c ls) (consFirst c ms) := by
  cases h with
  | nil => exact .cons (.inl rfl) .nil
  | cons hfirst hrest =>
    refine .cons ?_ hrest
    rcases hfirst with rfl | rfl
    · exact .inl rfl
    · exact .inr rfl

/-- **Lines of a file.** Uniform line ends take the carriage returns away, and these stood at the
    ends of lines. -/
theorem forall₂_splitLines {cs : List Char} (h : ReturnsEndLines cs) :
    List.Forall₂ UpToReturn (splitLines (uniformNewlines cs)) (splitLines cs) := by
  fun_induction uniformNewlines cs with
  | case1 => exact .cons (.inl rfl) .nil
  | case2 cs ih =>
    have hrest := ih (returnsEndLines_cons_iff.1 (returnsEndLines_cons_iff.1 h).2).2
    rw [splitLines_newline, splitLines_cons (by decide), splitLines_newline]
    exact .cons (.inr rfl) hrest
  | case3 c cs hother ih =>
    obtain ⟨hfirst, hrest⟩ := returnsEndLines_cons_iff.1 h
    -- A carriage return would stand in front of a line feed, which is the case before.
    have hc : c ≠ '\r' := by
      intro hc
      obtain ⟨ds, hds⟩ := List.head?_eq_some_iff.1 (hfirst hc)
      exact hother ds hc hds
    rw [if_neg hc]
    by_cases hfeed : c = '\n'
    · rw [hfeed, splitLines_newline, splitLines_newline]
      exact .cons (.inl rfl) (ih hrest)
    · rw [splitLines_cons hfeed, splitLines_cons hfeed]
      exact forall₂_consFirst c (ih hrest)

end Text

namespace Source

/-! ### Tokens of such lines -/

theorem takeWhile_concat_of_neg {p : Char → Bool} {b : Char} (h : p b = false) (cs : List Char) :
    (cs ++ [b]).takeWhile p = cs.takeWhile p := by
  induction cs with
  | nil => simp [h]
  | cons c cs ih => simp [List.takeWhile_cons, ih]

theorem dropWhile_concat_of_neg {p : Char → Bool} {b : Char} (h : p b = false) (cs : List Char) :
    (cs ++ [b]).dropWhile p = cs.dropWhile p ++ [b] := by
  induction cs with
  | nil => simp [h]
  | cons c cs ih => by_cases hc : p c <;> simp [hc, ih]

/-- A blank at the end belongs to no token. -/
theorem tokensFrom_concat_blank {b : Char} (hb : isBlank b = true) (line column : Nat)
    (cs : List Char) : tokensFrom line column (cs ++ [b]) = tokensFrom line column cs := by
  fun_induction tokensFrom line column cs with
  | case1 column => rw [List.nil_append, tokensFrom_blank hb, tokensFrom_nil]
  | case2 column c cs hc ih => rw [List.cons_append, tokensFrom_blank hc, ih]
  | case3 column c cs hc ih =>
    have hcut : continues c b = false := by
      by_contra hcont
      rw [isBlank_of_continues (by simpa using hcont)] at hb
      cases hb
    rw [List.cons_append, tokensFrom_piece (by simpa using hc), takeWhile_concat_of_neg hcut,
      dropWhile_concat_of_neg hcut, ih]

/-- **The end of a line.** A carriage return there is a blank, or belongs to the comment. -/
theorem lineTokens_concat_return (n : Nat) (l : List Char) :
    lineTokens n (l ++ ['\r']) = lineTokens n l := by
  obtain ⟨comment, hl, hcomment⟩ := exists_comment l
  have hdrop : dropComment (l ++ ['\r']) = dropComment l ++ dropComment (comment ++ ['\r']) := by
    rw [← dropComment_append (hash_notMem_dropComment l), ← List.append_assoc, ← hl]
  rw [lineTokens, hdrop, lineTokens]
  cases comment with
  | nil => exact tokensFrom_concat_blank rfl n 0 (dropComment l)
  | cons d ds =>
    obtain rfl := hcomment d rfl
    have hnone : dropComment ('#' :: ds ++ ['\r']) = [] := List.takeWhile_cons_of_neg (by decide)
    rw [hnone, List.append_nil]

/-- Lines that differ at most by carriage returns at their ends have the same tokens. -/
theorem linesTokens_congr {ls ms : List (List Char)} (h : List.Forall₂ UpToReturn ls ms) (n : Nat) :
    linesTokens n ls = linesTokens n ms := by
  induction h generalizing n with
  | nil => rfl
  | cons hfirst _ ih =>
    rw [linesTokens, linesTokens, ih]
    rcases hfirst with rfl | rfl
    · rfl
    · rw [lineTokens_concat_return]

/-- **Tokens of a file.** They are those of its content as it is. -/
theorem tokens_readText {content : String} (h : ReturnsEndLines content.toList) :
    tokens (readText content) = tokens content := by
  have hlines := forall₂_splitLines h
  rw [tokens, tokens, readText, String.toList_ofList, linesTokens_congr hlines, hlines.length_eq]

end Source

/-! ### Files and source texts -/

/-- **Files and source texts agree.** If every carriage return of a text stands in front of a line
    feed, then the text has the same tokens, at the same places, whether it is taken as it is or
    read from a file.  So the file holds the same program as the source text, with its definitions
    in the same order, or it is rejected for the same cause and at the same token. -/
theorem Program.ofFile_eq_ofSource {content : String} (h : ReturnsEndLines content.toList) :
    Source.tokens (readText content) = Source.tokens content ∧
      ofFile content = ofSource content := by
  have htokens := Source.tokens_readText h
  refine ⟨htokens, ?_⟩
  rw [ofFile, ofSource, ofSource, TokenQueue.ofSource, htokens, TokenQueue.ofSource]

/-- Carriage returns behind a word, in a comment and behind an error, at which both are rejected. -/
theorem Program.ofFile_eq_ofSource_sample :
    Source.tokens (readText "PROGRAM P IS\r\nBEGIN # of P\r\n\t?\r\n\r\nEND P") =
      Source.tokens "PROGRAM P IS\r\nBEGIN # of P\r\n\t?\r\n\r\nEND P" ∧
    ofFile "PROGRAM P IS\r\nBEGIN # of P\r\n\t?\r\n\r\nEND P" =
      .error (.rejected ⟨.noIdentifier, ⟨.error, "?", 3, 1⟩⟩) := by
  obtain ⟨htokens, hfile⟩ :=
    @ofFile_eq_ofSource "PROGRAM P IS\r\nBEGIN # of P\r\n\t?\r\n\r\nEND P"
      (by simp [returnsEndLines_cons_iff, returnsEndLines_nil])
  refine ⟨htokens, hfile.trans ?_⟩
  with_unfolding_all rfl

end BL
