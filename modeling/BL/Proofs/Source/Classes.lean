import BL.Proofs.Layout.Words
import BL.Proofs.Source.Separators

namespace BL

open Text

/-!
# Three ways to tell what a word is

A text can be looked up among the words of the language, it can be scanned as a source of its own,
or it can be put into a queue as it is.  The first two agree on every text that is a word, and no
other text is a single word for the scan.  The last two agree on whatever comes out of a scan:

* `Source.IsToken` — a source that is one token of some kind, without anything around it;
* `Source.hasShape_iff` — words are the lexemes that begin with a letter;
* `Source.kindOf_eq_ofText` — a lexeme has the same kind in a source and by itself;
* `Source.isToken_iff` — which texts are a single word, and of which kind;
* `Source.classes_agree` — the classes of words are what the scan and queues of bare texts find.
-/

namespace Word

theorem hasShape_of_isCondition {s : String} (h : isCondition s = true) :
    hasShape s.toList = true := by
  obtain ⟨c, rfl⟩ := exists_spelling_of_isCondition h
  exact hasShape_spelling c

/-- No keyword names a condition. -/
theorem isCondition_of_isKeyword {s : String} (h : isKeyword s = true) :
    isCondition s = false := by
  have hall : ∀ k ∈ keywords, isCondition k = false := by decide
  exact hall s (by simpa [isKeyword] using h)

end Word

namespace TokenKind

variable {s : String}

/-! ### The kind of a text that stands alone -/

/-- Among the texts that do not end the input, the kind tells the class. -/
theorem ofText_of_ne (h : s ≠ Token.endText) :
    ofText s = if Word.isKeyword s then keyword
      else if Word.isCondition s then condition
      else if Word.isIdentifier s then identifier
      else error :=
  if_neg h

theorem ofText_eq_keyword_iff : ofText s = keyword ↔ Word.isKeyword s = true := by
  by_cases he : s = Token.endText
  · subst he
    decide
  · rw [ofText_of_ne he]
    grind

theorem ofText_eq_condition_iff : ofText s = condition ↔ Word.isCondition s = true := by
  by_cases he : s = Token.endText
  · subst he
    decide
  · rw [ofText_of_ne he]
    grind [Word.isCondition_of_isKeyword]

theorem ofText_eq_identifier_iff : ofText s = identifier ↔ Word.isIdentifier s = true := by
  by_cases he : s = Token.endText
  · subst he
    decide
  · rw [ofText_of_ne he]
    grind [Word.isIdentifier]

end TokenKind

namespace Source

/-! ### Words and lexemes -/

/-- **Words** are the lexemes that begin with a letter. -/
theorem hasShape_iff {cs : List Char} :
    Word.hasShape cs = true ↔ IsLexeme cs ∧ cs.head?.any Word.isLetter = true := by
  constructor
  · intro h
    cases cs with
    | nil => cases h
    | cons c cs =>
      have hhash : '#' ∉ c :: cs := by
        intro hmem
        have hchar := Word.isWordChar_of_mem h hmem
        cases hchar
      simp only [Word.hasShape, Bool.and_eq_true, List.all_eq_true] at h
      obtain ⟨hc, hcs⟩ := h
      have hcont : continues c = Word.isWordChar := if_pos hc
      exact ⟨.mk (isBlank_of_isLetter hc) hhash (hcont ▸ hcs), hc⟩
  · rintro ⟨@⟨c, cs, -, -, hcs⟩, hc⟩
    have hcont : continues c = Word.isWordChar := if_pos hc
    rw [hcont] at hcs
    rw [Word.hasShape, Bool.and_eq_true]
    exact ⟨hc, List.all_eq_true.2 hcs⟩

theorem isLexeme_of_hasShape {w : String} (h : Word.hasShape w.toList = true) :
    IsLexeme w.toList :=
  (hasShape_iff.1 h).1

/-- **Kinds of lexemes.** A lexeme has the kind that it has by itself wherever a source holds it. -/
theorem kindOf_eq_ofText {w : String} (hw : IsLexeme w.toList) : kindOf w = .ofText w := by
  have hend : w ≠ Token.endText := by
    rintro rfl
    cases hw with
    | mk _ hhash _ => exact absurd hhash (by decide)
  rw [TokenKind.ofText_of_ne hend, kindOf]
  by_cases hc : w.toList.head?.any Word.isLetter = true
  · -- A word is an identifier if it is neither a keyword nor the name of a condition.
    have hshape := hasShape_iff.2 ⟨hw, hc⟩
    rw [if_pos hc, TokenKind.ofWord]
    grind [Word.isIdentifier]
  · -- What is no word is in none of the three classes.
    have hshape : Word.hasShape w.toList = false := by
      rw [← Bool.not_eq_true, hasShape_iff]
      exact fun h => hc h.2
    rw [if_neg hc]
    grind [Word.hasShape_of_isKeyword, Word.hasShape_of_isCondition,
      Word.hasShape_of_isIdentifier]

/-! ### Sources of one token -/

/-- The source is one token of the kind, without anything around it. -/
def IsToken (source : String) (kind : TokenKind) : Prop :=
  (tokens source).map Token.lexeme = [(kind, source), (.endOfInput, Token.endText)]

/-- Exactly the lexemes are sources of one token. -/
theorem isToken_iff_isLexeme {v : String} {k : TokenKind} :
    IsToken v k ↔ IsLexeme v.toList ∧ TokenKind.ofText v = k := by
  rw [IsToken, map_lexeme_tokens]
  constructor
  · intro h
    have hwords : (words v).map (fun w => (kindOf w, w)) = [(k, v)] := by
      have hpair : [(k, v), (.endOfInput, Token.endText)] =
          [(k, v)] ++ [(.endOfInput, Token.endText)] := rfl
      rw [hpair] at h
      exact List.append_cancel_right h
    obtain ⟨w, hw, hkind⟩ := List.map_eq_singleton_iff.1 hwords
    obtain ⟨rfl, rfl⟩ := Prod.mk.inj hkind
    have hlexeme := isLexeme_of_mem_words (hw ▸ List.mem_singleton_self w)
    exact ⟨hlexeme, (kindOf_eq_ofText hlexeme).symm⟩
  · rintro ⟨hlexeme, rfl⟩
    rw [words_lexeme hlexeme, List.map_singleton, kindOf_eq_ofText hlexeme]
    rfl

/-- **Single words.** Where texts of a kind are words, they are the sources of one token of this
    kind. -/
theorem isToken_iff {v : String} {k : TokenKind}
    (h : TokenKind.ofText v = k → Word.hasShape v.toList = true) :
    IsToken v k ↔ TokenKind.ofText v = k := by
  rw [isToken_iff_isLexeme, and_iff_right_iff_imp]
  exact fun hk => isLexeme_of_hasShape (h hk)

end Source

/-! ### Queues of bare texts -/

/-- A bare text keeps its text in a queue, and has the kind that it has by itself. -/
theorem TokenQueue.map_lexeme_textTokens (ss : List String) :
    (textTokens ss).map Token.lexeme = ss.map fun s => (.ofText s, s) := by
  rw [textTokens, List.map_map]
  have hfst := List.zipIdx_map_fst 0 ss
  nth_rewrite 2 [← hfst]
  rw [List.map_map]
  rfl

/-- **The classes agree.** A text is an identifier, a keyword or the name of a condition exactly if
    it is, as a source, one token of this kind, with nothing around it.  And the texts of the tokens
    of a source, put into a queue as they are, are tokens of the same kinds and texts, up to the one
    that ends the input. -/
theorem Source.classes_agree :
    (∀ v : String,
      (Word.isIdentifier v = true ↔ IsToken v .identifier) ∧
      (Word.isKeyword v = true ↔ IsToken v .keyword) ∧
      (Word.isCondition v = true ↔ IsToken v .condition)) ∧
    ∀ source : String,
      (TokenQueue.ofTexts ((tokens source).map Token.text)).toList.map Token.lexeme =
        (tokens source).map Token.lexeme := by
  constructor
  · intro v
    have hi := TokenKind.ofText_eq_identifier_iff (s := v)
    have hk := TokenKind.ofText_eq_keyword_iff (s := v)
    have hc := TokenKind.ofText_eq_condition_iff (s := v)
    refine ⟨?_, ?_, ?_⟩
    · rw [isToken_iff fun h => Word.hasShape_of_isIdentifier (hi.1 h), hi]
    · rw [isToken_iff fun h => Word.hasShape_of_isKeyword (hk.1 h), hk]
    · rw [isToken_iff fun h => Word.hasShape_of_isCondition (hc.1 h), hc]
  · intro source
    have hkinds : ∀ w ∈ words source, (TokenKind.ofText w, w) = (kindOf w, w) := by
      intro w hw
      rw [kindOf_eq_ofText (isLexeme_of_mem_words hw)]
    rw [map_text_tokens, TokenQueue.toList_ofTexts_concat, TokenQueue.map_lexeme_textTokens,
      List.map_append, List.map_congr_left hkinds, map_lexeme_tokens]
    rfl

end BL
