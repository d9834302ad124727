import BL.Proofs.Source.Positions
import Mathlib.Data.List.Basic

namespace BL

open Text

/-!
# Layout between words

What stands between two words of a source is blank or belongs to a comment, and any other layout
does as well: a word neither grows into what is set behind it nor is it cut short.

* `Token.lexeme` — what a token is, apart from its place;
* `Source.IsLayout` — blanks, and comments with the line feeds that end them;
* `Source.IsLexeme` — the characters of a token;
* `Source.scan` — the words in characters;
* `Source.scan_layout`, `Source.scan_lexeme` — layout holds no words, and a lexeme is cut off where
  layout begins;
* `Source.scan_layered` — so the words in lexemes with layout between them are these lexemes;
* `Source.layout_irrelevant` — the tokens of lexemes with layout between them, apart from their
  places.
-/

/-- What a token is, wherever it stands. -/
def Token.lexeme (t : Token) : TokenKind × String := (t.kind, t.text)

namespace Source

/-! ### Kinds -/

/-- The kind of a word of a source. -/
def kindOf (w : String) : TokenKind :=
  if w.toList.head?.any Word.isLetter then .ofWord w else .error

theorem kind_of_mem_linesTokens {n : Nat} {lines : List (List Char)} {t : Token}
    (h : t ∈ linesTokens n lines) : t.kind = kindOf t.text := by
  obtain ⟨i, l, -, h⟩ := mem_linesTokens.1 h
  obtain ⟨front, c, cs, post, -, rfl, -⟩ := mem_lineTokens h
  simp [pieceToken, kindOf]

/-- What the tokens of a source are is told by their texts. -/
theorem map_lexeme_dropLast (source : String) :
    (tokens source).dropLast.map Token.lexeme = (words source).map fun w => (kindOf w, w) := by
  rw [words, tokens, List.dropLast_concat, List.map_map]
  refine List.map_congr_left fun t ht => ?_
  rw [Token.lexeme, kind_of_mem_linesTokens ht]
  rfl

/-- The same with the token that ends the input. -/
theorem map_lexeme_tokens (source : String) :
    (tokens source).map Token.lexeme =
      (words source).map (fun w => (kindOf w, w)) ++ [(.endOfInput, Token.endText)] := by
  rw [← map_lexeme_dropLast, tokens, List.dropLast_concat, List.map_append]
  rfl

/-- Sources with the same words have the same tokens, apart from their places. -/
theorem map_lexeme_tokens_congr {a b : String} (h : words a = words b) :
    (tokens a).map Token.lexeme = (tokens b).map Token.lexeme := by
  rw [map_lexeme_tokens, map_lexeme_tokens, h]

/-- The text of a token that does not end the input is a word of the source. -/
theorem text_mem_words {source : String} {t : Token} (h : t ∈ tokens source)
    (hk : t.kind ≠ .endOfInput) : t.text ∈ words source := by
  rw [tokens] at h
  rcases List.mem_append.1 h with h | h
  · rw [words, tokens, List.dropLast_concat]
    exact List.mem_map_of_mem h
  · obtain rfl := List.mem_singleton.1 h
    exact absurd rfl hk

/-! ### Layout and lexemes -/

/-- The characters are layout: blanks and comments, each with the line feed that ends it. -/
inductive IsLayout : List Char → Prop where
  | nil : IsLayout []
  | blank {c : Char} {cs : List Char} (h : isBlank c = true) (h' : IsLayout cs) : IsLayout (c :: cs)
  | comment {body cs : List Char} (h : '\n' ∉ body) (h' : IsLayout cs) :
    IsLayout ('#' :: (body ++ '\n' :: cs))

/-- The characters are those of one token. -/
inductive IsLexeme : List Char → Prop where
  | mk {c : Char} {cs : List Char} (hc : isBlank c = false) (h : '#' ∉ c :: cs)
      (hcs : ∀ d ∈ cs, continues c d = true) : IsLexeme (c :: cs)

/-- Nothing follows, or a blank or a comment does. -/
def Breaks (cs : List Char) : Prop := ∀ d ∈ cs.head?, isBlank d = true ∨ d = '#'

/-- The words of a source are lexemes. -/
theorem isLexeme_of_mem_words {source w : String} (h : w ∈ words source) : IsLexeme w.toList := by
  rw [words, tokens, List.dropLast_concat] at h
  obtain ⟨t, ht, rfl⟩ := List.mem_map.1 h
  obtain ⟨i, front, c, cs, post, -, rfl, hc, hhash, hcs, -⟩ := cut_of_mem ht
  rw [toList_pieceToken]
  exact .mk hc (fun hmem => hhash (List.mem_append_right _ hmem)) hcs

/-- Layout that is there breaks a word off. -/
theorem IsLayout.breaks_append {cs : List Char} (h : IsLayout cs) (hne : cs ≠ [])
    (ds : List Char) : Breaks (cs ++ ds) := by
  intro d hd
  cases h with
  | nil => exact absurd rfl hne
  | blank hc _ =>
    obtain rfl : _ = d := Option.some.inj hd
    exact .inl hc
  | comment _ _ =>
    obtain rfl : _ = d := Option.some.inj hd
    exact .inr rfl

/-! ### The words in characters -/

/-- The words in the characters. -/
def scan (cs : List Char) : List String := (splitLines cs).flatMap lineWords

/-- A text has a first line. -/
theorem exists_splitLines (cs : List Char) :
    ∃ ls, splitLines cs = cs.takeWhile (· != '\n') :: ls := by
  induction cs with
  | nil => exact ⟨[], rfl⟩
  | cons c cs ih =>
    by_cases hc : c = '\n'
    · exact ⟨splitLines cs, by simp [hc]⟩
    · obtain ⟨ls, hls⟩ := ih
      exact ⟨ls, by simp [splitLines_cons hc, hls, consFirst, hc]⟩

/-- Characters without line feeds join the first line. -/
theorem splitLines_append {ws cs l : List Char} {ls : List (List Char)} (hw : '\n' ∉ ws)
    (h : splitLines cs = l :: ls) : splitLines (ws ++ cs) = (ws ++ l) :: ls := by
  induction ws with
  | nil => exact h
  | cons c ws ih =>
    have hrest := ih fun hmem => hw (.tail _ hmem)
    have hc : c ≠ '\n' := fun e => hw (e ▸ List.mem_cons_self)
    rw [List.cons_append, splitLines_cons hc, hrest]
    rfl

/-- Characters without hash signs stand before the comment. -/
theorem dropComment_append {ws : List Char} (h : '#' ∉ ws) (cs : List Char) :
    dropComment (ws ++ cs) = ws ++ dropComment cs := by
  refine List.takeWhile_append_of_pos fun c hc => ?_
  rw [bne_iff_ne]
  rintro rfl
  exact h hc

/-- A source has the words that are in its characters. -/
theorem words_eq_scan (source : String) : words source = scan source.toList :=
  words_eq_flatMap source

theorem scan_newline (cs : List Char) : scan ('\n' :: cs) = scan cs := by
  simp [scan, lineWords, dropComment]

/-- A blank in front changes nothing. -/
theorem scan_blank {c : Char} (h : isBlank c = true) (cs : List Char) :
    scan (c :: cs) = scan cs := by
  by_cases hc : c = '\n'
  · rw [hc, scan_newline]
  · obtain ⟨ls, hls⟩ := exists_splitLines cs
    have hhash : '#' ∉ [c] := by
      rw [List.mem_singleton]
      rintro rfl
      cases h
    have hdrop := dropComment_append hhash (cs.takeWhile (· != '\n'))
    rw [List.singleton_append, List.singleton_append] at hdrop
    rw [scan, scan, splitLines_cons hc, hls, consFirst, List.flatMap_cons, List.flatMap_cons,
      lineWords, hdrop, pieces_blank h]
    rfl

@[simp] theorem scan_nil : scan [] = [] := by
  simp [scan, lineWords, dropComment]

/-- A comment at the end holds no words. -/
theorem scan_hash {body : List Char} (h : '\n' ∉ body) : scan ('#' :: body) = [] := by
  have hline : '\n' ∉ '#' :: body := by simpa using h
  have hlines := splitLines_append hline splitLines_nil
  rw [List.append_nil] at hlines
  simp [scan, hlines, lineWords, dropComment]

/-- A comment in front changes nothing. -/
theorem scan_comment {body : List Char} (h : '\n' ∉ body) (cs : List Char) :
    scan ('#' :: (body ++ '\n' :: cs)) = scan cs := by
  have hline : '\n' ∉ '#' :: body := by simpa using h
  have hlines := splitLines_append hline (splitLines_newline cs)
  rw [List.cons_append] at hlines
  simp [scan, hlines, lineWords, dropComment]

/-- **Layout holds no words.** -/
theorem scan_layout {cs : List Char} (h : IsLayout cs) (ds : List Char) :
    scan (cs ++ ds) = scan ds := by
  induction h with
  | nil => rfl
  | blank hc _ ih => rw [List.cons_append, scan_blank hc, ih]
  | comment hbody _ ih =>
    rw [List.cons_append, List.append_assoc, List.cons_append, scan_comment hbody, ih]

/-- **Lexemes are cut off where layout begins.** -/
theorem scan_lexeme {w cs : List Char} (hw : IsLexeme w) (hcs : Breaks cs) :
    scan (w ++ cs) = String.ofList w :: scan cs := by
  obtain @⟨c, w, hc, hhash, hcont⟩ := hw
  obtain ⟨ls, hls⟩ := exists_splitLines cs
  -- A line feed is blank, and no character of a token is.
  have hline : '\n' ∉ c :: w := by
    intro h
    have hblank : isBlank '\n' = false := by
      rcases List.mem_cons.1 h with rfl | h
      · exact hc
      · exact isBlank_of_continues (hcont _ h)
    cases hblank
  have hdrop := dropComment_append hhash (cs.takeWhile (· != '\n'))
  have hend : ∀ d ∈ (dropComment (cs.takeWhile (· != '\n'))).head?, continues c d = false := by
    intro d hd
    simp only [dropComment, List.head?_takeWhile, Option.mem_def, Option.filter_eq_some_iff,
      bne_iff_ne] at hd
    obtain ⟨⟨hhead, -⟩, hd⟩ := hd
    have hblank := (hcs d hhead).resolve_right hd
    by_contra hcontinues
    rw [Bool.not_eq_false] at hcontinues
    exact absurd (isBlank_of_continues hcontinues) (by simp [hblank])
  rw [scan, scan, splitLines_append hline hls, hls, List.flatMap_cons, List.flatMap_cons, lineWords,
    hdrop, pieces_cut hc hcont hend]
  rfl

/-! ### Lexemes with layout between them -/

/-- **Layers.** The words in lexemes, each with layout behind it, are these lexemes, if there is
    some layout behind all of them but the last. -/
theorem scan_layered {items : List (String × String)} (hw : ∀ p ∈ items, IsLexeme p.1.toList)
    (hl : ∀ p ∈ items, IsLayout p.2.toList) (hne : ∀ p ∈ items.dropLast, p.2 ≠ "") :
    scan (String.join (items.map fun p => p.1 ++ p.2)).toList = items.map Prod.fst := by
  induction items with
  | nil => simp
  | cons p items ih =>
    have hbehind : ∀ q ∈ items.dropLast, q.2 ≠ "" := by
      intro q hq
      refine hne q ?_
      cases items with
      | nil => cases hq
      | cons r items => exact .tail _ hq
    have hrest := ih (fun q hq => hw q (.tail _ hq)) (fun q hq => hl q (.tail _ hq)) hbehind
    have hlayout := hl p List.mem_cons_self
    have hbreaks : Breaks (p.2.toList ++
        (String.join (items.map fun p => p.1 ++ p.2)).toList) := by
      by_cases hp : p.2 = ""
      · -- Only behind the last lexeme there may be nothing.
        cases items with
        | nil => simp [hp, Breaks]
        | cons q items => exact absurd hp (hne p (by simp))
      · exact hlayout.breaks_append (by simpa using hp) _
    rw [List.map_cons, String.join_cons, String.toList_append, String.toList_append,
      List.append_assoc, scan_lexeme (hw p List.mem_cons_self) hbreaks, scan_layout hlayout, hrest]
    simp

/-- Lexemes with single spaces between them, in front of what breaks a word off. -/
theorem scan_intercalate {ws : List String} (hw : ∀ w ∈ ws, IsLexeme w.toList) {ds : List Char}
    (hds : Breaks ds) : scan ((" ".intercalate ws).toList ++ ds) = ws ++ scan ds := by
  induction ws with
  | nil => simp
  | cons w ws ih =>
    have hfirst := hw w List.mem_cons_self
    have hrest := ih fun v hv => hw v (.tail _ hv)
    by_cases hne : ws = []
    · rw [hne, String.intercalate_singleton, scan_lexeme hfirst hds, String.ofList_toList]
      rfl
    · have hspace : Breaks (' ' :: ((" ".intercalate ws).toList ++ ds)) := by simp [Breaks]
      have hjoin : (" ".intercalate (w :: ws)).toList ++ ds =
          w.toList ++ ' ' :: ((" ".intercalate ws).toList ++ ds) := by
        simp [String.intercalate_cons_of_ne_nil hne]
      rw [hjoin, scan_lexeme hfirst hspace, scan_blank isBlank_space, hrest, String.ofList_toList]
      rfl

/-- A lexeme alone is one token. -/
theorem words_lexeme {w : String} (hw : IsLexeme w.toList) : words w = [w] := by
  have hend : Breaks [] := by simp [Breaks]
  rw [words_eq_scan, ← List.append_nil w.toList, scan_lexeme hw hend]
  simp

/-- Lexemes with single spaces between them are the words of a source. -/
theorem words_intercalate_of_isLexeme {ws : List String} (hw : ∀ w ∈ ws, IsLexeme w.toList) :
    words (" ".intercalate ws) = ws := by
  have hend : Breaks [] := by simp [Breaks]
  rw [words_eq_scan, ← List.append_nil (" ".intercalate _).toList, scan_intercalate hw hend,
    scan_nil, List.append_nil]

/-- The words of a source with single spaces between them. -/
theorem words_intercalate (source : String) :
    words (" ".intercalate (words source)) = words source :=
  words_intercalate_of_isLexeme fun _ hw => isLexeme_of_mem_words hw

/-- The text that ends the input begins a comment, so that it may stand behind the words. -/
theorem words_intercalate_endText (source : String) :
    words (" ".intercalate (words source ++ [Token.endText])) = words source := by
  have hw : ∀ w ∈ words source, IsLexeme w.toList := fun w hw => isLexeme_of_mem_words hw
  have hbody : '\n' ∉ "## END OF INPUT ###".toList := by decide
  have hend : scan Token.endText.toList = [] := scan_hash hbody
  by_cases hne : words source = []
  · rw [hne, List.nil_append, String.intercalate_singleton, words_eq_scan, hend]
  · have hspace : Breaks (' ' :: Token.endText.toList) := by simp [Breaks]
    have hscan := scan_intercalate hw hspace
    rw [scan_blank isBlank_space, hend, List.append_nil] at hscan
    rw [String.intercalate_append_of_ne_nil hne (by simp), String.intercalate_singleton,
      words_eq_scan]
    simpa using hscan

/-- **Layout is irrelevant.** Take texts of tokens, from whatever sources, and set layout in front
    of them and between them, and behind them as well.  The tokens of this text are those that each
    of them has alone, apart from their places.  So the texts of the tokens of a source, joined by
    single spaces, have the tokens of the source, with or without the text that ends the input. -/
theorem layout_irrelevant :
    (∀ (lead : String) (items : List (String × String)), IsLayout lead.toList →
      (∀ p ∈ items, IsLayout p.2.toList) → (∀ p ∈ items.dropLast, p.2 ≠ "") →
      (∀ p ∈ items, ∃ source, ∃ t ∈ tokens source, t.kind ≠ .endOfInput ∧ t.text = p.1) →
      (∀ p ∈ items, ∃ t, (tokens p.1).dropLast = [t] ∧ t.text = p.1) ∧
      (tokens (lead ++ String.join (items.map fun p => p.1 ++ p.2))).map Token.lexeme =
        (items.flatMap fun p => (tokens p.1).dropLast.map Token.lexeme) ++
          [(.endOfInput, Token.endText)]) ∧
    ∀ source,
      (tokens (" ".intercalate (words source))).map Token.lexeme =
        (tokens source).map Token.lexeme ∧
      (tokens (" ".intercalate ((tokens source).map Token.text))).map Token.lexeme =
        (tokens source).map Token.lexeme := by
  constructor
  · intro lead items hlead hl hne hsource
    have hw : ∀ p ∈ items, IsLexeme p.1.toList := by
      intro p hp
      obtain ⟨source, t, ht, hk, htext⟩ := hsource p hp
      rw [← htext]
      exact isLexeme_of_mem_words (text_mem_words ht hk)
    have halone : ∀ p ∈ items, words p.1 = [p.1] := fun p hp => words_lexeme (hw p hp)
    constructor
    · intro p hp
      exact List.map_eq_singleton_iff.1 (halone p hp)
    · have hwords : words (lead ++ String.join (items.map fun p => p.1 ++ p.2)) =
          items.map Prod.fst := by
        rw [words_eq_scan, String.toList_append, scan_layout hlead, scan_layered hw hl hne]
      have htokens : ∀ p ∈ items,
          (tokens p.1).dropLast.map Token.lexeme = [(kindOf p.1, p.1)] := by
        intro p hp
        rw [map_lexeme_dropLast, halone p hp]
        rfl
      rw [map_lexeme_tokens, hwords, List.flatMap_congr htokens, List.map_map,
        ← List.map_eq_flatMap]
      rfl
  · intro source
    refine ⟨map_lexeme_tokens_congr (words_intercalate source), map_lexeme_tokens_congr ?_⟩
    rw [map_text_tokens, words_intercalate_endText]

/-- A comment, a blank beyond ASCII and nothing behind a word, an error and a keyword. -/
theorem layout_irrelevant_sample :
    (tokens ("\n" ++ String.join ([("move", " # on\n"), ("1$", "\u00a0"), ("IF", "")].map
        fun p => p.1 ++ p.2))).map Token.lexeme =
      [(.identifier, "move"), (.error, "1$"), (.keyword, "IF"),
        (.endOfInput, Token.endText)] := by
  have hbody : '\n' ∉ " on".toList := by decide
  have hcomment : IsLayout " # on\n".toList := .blank isBlank_space (.comment hbody .nil)
  have hitems : ∀ p ∈ [("move", " # on\n"), ("1$", "\u00a0"), ("IF", "")],
      IsLayout p.2.toList := by
    simp only [List.mem_cons, List.not_mem_nil, or_false, forall_eq_or_imp, forall_eq]
    exact ⟨hcomment, .blank rfl .nil, .nil⟩
  have hsource : ∀ p ∈ [("move", " # on\n"), ("1$", "\u00a0"), ("IF", "")],
      ∃ source, ∃ t ∈ tokens source, t.kind ≠ .endOfInput ∧ t.text = p.1 := by
    simp only [List.mem_cons, List.not_mem_nil, or_false, forall_eq_or_imp, forall_eq]
    exact ⟨⟨"move", ⟨.identifier, "move", 1, 0⟩, by decide +kernel, by decide, rfl⟩,
      ⟨"1$", ⟨.error, "1$", 1, 0⟩, by decide +kernel, by decide, rfl⟩,
      ⟨"IF", ⟨.keyword, "IF", 1, 0⟩, by decide +kernel, by decide, rfl⟩⟩
  rw [(layout_irrelevant.1 "\n" _ (.blank rfl .nil) hitems (by decide) hsource).2]
  decide +kernel

end Source

end BL
