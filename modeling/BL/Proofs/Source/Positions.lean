import BL.Proofs.Source.Words

namespace BL

open Text

/-!
# Where the tokens of a source text stand

The tokens of a source are pieces of its lines.  Seen beside the lines they stand one behind the
other, each of them reads what its line reads there, and what they leave out is blank or belongs to
a comment.  A piece of a line is cut off in the same way wherever it stands, so that one lemma about
the cut carries all of this:

* `Token.StandsIn`, `Token.Covers`, `Token.EndsBefore` — a token in its line, the characters that
  are its own, and tokens one behind the other;
* `Source.Partition` — what it means that tokens divide lines among them;
* `Source.mem_tokensFrom`, `Source.mem_lineTokens` — how a token is cut off from its line;
* `Source.pairwise_tokensFrom`, `Source.exists_covers_tokensFrom` — the order of the tokens of a
  line, and what they cover;
* `Source.partition_linesTokens` — the tokens of lines divide them;
* `Source.tokens_partition` — so the tokens of a source divide its lines.
-/

/-! ### Tokens beside lines -/

/-- A word is no error, whatever its class. -/
theorem TokenKind.ofWord_ne_error (s : String) : TokenKind.ofWord s ≠ .error := by
  unfold TokenKind.ofWord
  split
  · nofun
  · split
    · nofun
    · nofun

namespace Token

/-- The token stands in the line `l`, which is the line with index `i`, from column `j` on: there
    the line reads what the token reads. -/
structure StandsIn (t : Token) (lines : List (List Char)) (i j : Nat) (l : List Char) : Prop where
  line : t.line = i + 1
  column : t.column = j
  there : lines[i]? = some l
  reads : (l.drop j).take t.text.length = t.text.toList

/-- The character in column `j` of the line with index `i` is one of the token's. -/
def Covers (t : Token) (i j : Nat) : Prop :=
  t.line = i + 1 ∧ t.column ≤ j ∧ j < t.column + t.text.length

/-- The token ends before the other one begins: on an earlier line, or on the same line further to
    the left. -/
def EndsBefore (t u : Token) : Prop :=
  t.line < u.line ∨ t.line = u.line ∧ t.column + t.text.length ≤ u.column

end Token

namespace Source

/-- The tokens divide the lines among them, all but comments and blanks. -/
structure Partition (lines : List (List Char)) (ts : List Token) : Prop where
  /-- No token begins before the one in front of it has ended. -/
  ordered : ts.Pairwise Token.EndsBefore
  /-- Every token stands somewhere in the lines. -/
  stands : ∀ t ∈ ts, ∃ i j l, t.StandsIn lines i j l
  /-- No token is empty, and none holds a blank or a hash sign. -/
  plain : ∀ t ∈ ts, t.text ≠ "" ∧ ∀ c ∈ t.text.toList, isBlank c = false ∧ c ≠ '#'
  /-- From the first hash sign of a line on, nothing belongs to a token. -/
  comments : ∀ i l j, lines[i]? = some l → '#' ∈ l.take (j + 1) → ∀ t ∈ ts, ¬ t.Covers i j
  /-- Before the first hash sign of a line, what belongs to no token is blank. -/
  covered : ∀ i l j c, lines[i]? = some l → l[j]? = some c → '#' ∉ l.take (j + 1) →
    isBlank c = true ∨ ∃ t ∈ ts, t.Covers i j
  /-- Every token is a word, of one class or another, or an error. -/
  kinds : ∀ t ∈ ts, t.kind = .ofWord t.text ∨ t.kind = .error
  /-- Words reach as far as letters, digits and hyphens go. -/
  words : ∀ t ∈ ts, t.kind ≠ .error → Word.hasShape t.text.toList = true ∧
    ∀ i j l, t.StandsIn lines i j l → ∀ c, l[j + t.text.length]? = some c →
      Word.isWordChar c = false
  /-- Errors begin with no letter and reach up to a blank, a comment or the end of the line. -/
  errors : ∀ t ∈ ts, t.kind = .error → (∃ c cs, t.text.toList = c :: cs ∧ Word.isLetter c = false) ∧
    ∀ i j l, t.StandsIn lines i j l → ∀ c, l[j + t.text.length]? = some c →
      isBlank c = true ∨ c = '#'

/-! ### Pieces of a line -/

variable {n k : Nat} {c : Char} {cs l : List Char} {t : Token}

@[simp] theorem toList_pieceToken : (pieceToken n k c cs).text.toList = c :: cs :=
  String.toList_ofList

theorem length_pieceToken : (pieceToken n k c cs).text.length = (c :: cs).length :=
  String.length_ofList

@[simp] theorem line_pieceToken : (pieceToken n k c cs).line = n := rfl

@[simp] theorem column_pieceToken : (pieceToken n k c cs).column = k := rfl

/-- Letters, digits and hyphens are not blank. -/
theorem isBlank_of_isWordChar (h : Word.isWordChar c = true) : isBlank c = false := by
  simp only [Word.isWordChar, Char.isAlphanum, Bool.or_eq_true, beq_iff_eq] at h
  rcases h with (h | h) | rfl
  · exact isBlank_of_isLetter h
  · have hn : 48 ≤ c.toNat ∧ c.toNat ≤ 57 := by
      simpa [Char.isDigit, UInt32.le_iff_toNat_le] using h
    simp only [isBlank, Bool.or_eq_false_iff, Bool.and_eq_false_iff, decide_eq_false_iff_not,
      beq_eq_false_iff_ne]
    omega
  · rfl

/-- A character that continues a token is not blank. -/
theorem isBlank_of_continues {d : Char} (h : continues c d = true) : isBlank d = false := by
  unfold continues at h
  split at h
  · exact isBlank_of_isWordChar h
  · simpa using h

/-- **Tokens of a line without comment.** A token begins at a character that is not blank, and takes
    from there on all characters that continue it. -/
theorem mem_tokensFrom (h : t ∈ tokensFrom n k cs) :
    ∃ front c rest, cs = front ++ c :: rest ∧ isBlank c = false ∧
      t = pieceToken n (k + front.length) c (rest.takeWhile (continues c)) := by
  fun_induction tokensFrom n k cs with
  | case1 => simp at h
  | case2 k c cs hc ih =>
    obtain ⟨front, d, rest, rfl, hd, rfl⟩ := ih h
    refine ⟨c :: front, d, rest, rfl, hd, ?_⟩
    rw [List.length_cons, Nat.add_assoc, Nat.add_comm 1]
  | case3 k c cs hc ih =>
    rcases List.mem_cons.1 h with rfl | h
    · exact ⟨[], c, cs, rfl, by simpa using hc, rfl⟩
    · -- In front of a later token stands also the one that is cut off here.
      obtain ⟨front, d, rest, hrest, hd, rfl⟩ := ih h
      refine ⟨c :: (cs.takeWhile (continues c) ++ front), d, rest, ?_, hd, ?_⟩
      · rw [List.cons_append, List.append_assoc, ← hrest, List.takeWhile_append_dropWhile]
      · have hcol : k + 1 + (cs.takeWhile (continues c)).length + front.length
            = k + (c :: (cs.takeWhile (continues c) ++ front)).length := by
          rw [List.length_cons, List.length_append]
          omega
        rw [hcol]

/-- The tokens of a line stand one behind the other. -/
theorem pairwise_tokensFrom (n k : Nat) (cs : List Char) :
    (tokensFrom n k cs).Pairwise Token.EndsBefore := by
  fun_induction tokensFrom n k cs with
  | case1 => exact .nil
  | case2 k c cs hc ih => exact ih
  | case3 k c cs hc ih =>
    refine List.pairwise_cons.2 ⟨fun u hu => ?_, ih⟩
    obtain ⟨front, d, rest, -, -, rfl⟩ := mem_tokensFrom hu
    refine .inr ⟨rfl, ?_⟩
    rw [column_pieceToken, column_pieceToken, length_pieceToken, List.length_cons]
    omega

/-- What is not blank belongs to a token. -/
theorem exists_covers_tokensFrom {i m : Nat} {d : Char} (hn : n = i + 1) (hd : cs[m]? = some d)
    (hb : isBlank d = false) : ∃ t ∈ tokensFrom n k cs, t.Covers i (k + m) := by
  fun_induction tokensFrom n k cs generalizing m with
  | case1 => simp at hd
  | case2 k c cs hc ih =>
    cases m with
    | zero =>
      obtain rfl : c = d := by simpa using hd
      rw [hc] at hb
      cases hb
    | succ m =>
      obtain ⟨t, ht, hcov⟩ := ih hd
      refine ⟨t, ht, ?_⟩
      rwa [Nat.add_right_comm, Nat.add_assoc] at hcov
  | case3 k c cs hc ih =>
    by_cases hm : m ≤ (cs.takeWhile (continues c)).length
    · refine ⟨_, List.mem_cons_self, ?_⟩
      rw [Token.Covers, line_pieceToken, column_pieceToken, length_pieceToken, List.length_cons]
      omega
    · -- The character stands behind the first token, among those that are left.
      obtain ⟨p, rfl⟩ := Nat.exists_eq_add_of_lt (Nat.not_le.1 hm)
      have hrest : (cs.takeWhile (continues c) ++ cs.dropWhile (continues c))[
          (cs.takeWhile (continues c)).length + p]? = (cs.dropWhile (continues c))[p]? := by
        rw [List.getElem?_append_right (Nat.le_add_right _ _), Nat.add_sub_cancel_left]
      rw [List.takeWhile_append_dropWhile] at hrest
      obtain ⟨t, ht, hcov⟩ := ih (hrest.symm.trans hd)
      refine ⟨t, .tail _ ht, ?_⟩
      have hcol : k + ((cs.takeWhile (continues c)).length + p + 1)
          = k + 1 + (cs.takeWhile (continues c)).length + p := by omega
      rwa [hcol]

/-! ### Tokens of a line -/

/-- What is left of a line behind its tokens is its comment. -/
theorem exists_comment (l : List Char) :
    ∃ post, l = dropComment l ++ post ∧ ∀ d ∈ post.head?, d = '#' := by
  refine ⟨l.dropWhile (· != '#'), List.takeWhile_append_dropWhile.symm, fun d hd => ?_⟩
  have hstop := List.head?_dropWhile_not (· != '#') l
  rw [Option.mem_def.1 hd] at hstop
  simpa using hstop

/-- **Tokens of a line.** A token cuts its line in three: what stands in front of it, the token,
    which begins at a character that is not blank and takes what continues it, and what follows,
    where there is a character that does not continue it, or a comment, or nothing at all. -/
theorem mem_lineTokens (h : t ∈ lineTokens n l) :
    ∃ front c cs post, l = front ++ (c :: cs) ++ post ∧ t = pieceToken n front.length c cs ∧
      isBlank c = false ∧ '#' ∉ front ++ c :: cs ∧ (∀ d ∈ cs, continues c d = true) ∧
      ∀ d ∈ post.head?, d = '#' ∨ continues c d = false := by
  obtain ⟨front, c, rest, hline, hc, rfl⟩ := mem_tokensFrom h
  obtain ⟨comment, hl, hcomment⟩ := exists_comment l
  have hsplit := List.takeWhile_append_dropWhile (p := continues c) (l := rest)
  refine ⟨front, c, rest.takeWhile (continues c), rest.dropWhile (continues c) ++ comment, ?_,
    by rw [Nat.zero_add], hc, fun hm => ?_, fun d hd => List.mem_takeWhile_imp hd, fun d hd => ?_⟩
  · rw [List.append_assoc, List.cons_append, ← List.append_assoc _ _ comment, hsplit,
      ← List.cons_append, ← List.append_assoc, ← hline, ← hl]
  · refine hash_notMem_dropComment l (hline ▸ ?_)
    rw [← hsplit, ← List.cons_append, ← List.append_assoc]
    exact List.mem_append_left _ hm
  · -- The token ends inside the line, or where the comment begins.
    cases hrest : rest.dropWhile (continues c) with
    | nil =>
      rw [hrest, List.nil_append] at hd
      exact .inl (hcomment d hd)
    | cons e es =>
      rw [hrest, List.cons_append, List.head?_cons, Option.mem_some_iff] at hd
      have hstop := List.head?_dropWhile_not (continues c) rest
      rw [hrest, List.head?_cons, hd] at hstop
      exact .inr hstop

/-- What is not blank and stands in no comment belongs to a token. -/
theorem exists_covers_lineTokens {i j : Nat} {d : Char} (hd : l[j]? = some d)
    (hj : '#' ∉ l.take (j + 1)) (hb : isBlank d = false) :
    ∃ t ∈ lineTokens (i + 1) l, t.Covers i j := by
  obtain ⟨comment, hl, hcomment⟩ := exists_comment l
  have hin : j < (dropComment l).length := by
    by_contra hout
    -- Otherwise the comment has begun by then, and its hash sign is among the characters.
    cases comment with
    | nil =>
      rw [hl, List.append_nil, List.getElem?_eq_none (Nat.not_lt.1 hout)] at hd
      cases hd
    | cons e es =>
      obtain rfl := hcomment e rfl
      refine hj ?_
      rw [hl, List.take_append, List.mem_append]
      obtain ⟨m, hm⟩ := Nat.exists_eq_add_of_le (Nat.not_lt.1 hout)
      rw [hm, Nat.add_assoc, Nat.add_sub_cancel_left]
      exact .inr List.mem_cons_self
  have hd' : (dropComment l)[j]? = some d := by
    rwa [hl, List.getElem?_append_left hin] at hd
  obtain ⟨t, ht, hcov⟩ := exists_covers_tokensFrom (k := 0) rfl hd' hb
  exact ⟨t, ht, by rwa [Nat.zero_add] at hcov⟩

/-! ### Tokens of lines -/

variable {lines : List (List Char)}

/-- The tokens of lines are those of each line, under its number. -/
theorem mem_linesTokens : t ∈ linesTokens n lines ↔
    ∃ i l, lines[i]? = some l ∧ t ∈ lineTokens (n + i) l := by
  induction lines generalizing n with
  | nil => simp [linesTokens]
  | cons l ls ih =>
    rw [linesTokens, List.mem_append, ih]
    constructor
    · rintro (h | ⟨i, m, hm, h⟩)
      · exact ⟨0, l, rfl, h⟩
      · exact ⟨i + 1, m, hm, by rwa [Nat.add_right_comm] at h⟩
    · rintro ⟨i, m, hm, h⟩
      cases i with
      | zero =>
        cases hm
        exact .inl h
      | succ i => exact .inr ⟨i, m, hm, by rwa [Nat.add_right_comm]⟩

theorem line_of_mem_lineTokens (h : t ∈ lineTokens n l) : t.line = n := by
  obtain ⟨front, c, cs, post, -, rfl, -⟩ := mem_lineTokens h
  rfl

/-- The tokens of lines stand one behind the other. -/
theorem pairwise_linesTokens (n : Nat) (lines : List (List Char)) :
    (linesTokens n lines).Pairwise Token.EndsBefore := by
  induction lines generalizing n with
  | nil => exact .nil
  | cons l ls ih =>
    refine List.pairwise_append.2 ⟨pairwise_tokensFrom _ _ _, ih _, fun t ht u hu => .inl ?_⟩
    obtain ⟨i, m, -, hm⟩ := mem_linesTokens.1 hu
    rw [line_of_mem_lineTokens ht, line_of_mem_lineTokens hm]
    omega

/-- **A token in its lines.** It cuts the line that it stands in in three, as above. -/
theorem cut_of_mem (h : t ∈ linesTokens 1 lines) :
    ∃ i front c cs post, lines[i]? = some (front ++ (c :: cs) ++ post) ∧
      t = pieceToken (i + 1) front.length c cs ∧ isBlank c = false ∧ '#' ∉ front ++ c :: cs ∧
      (∀ d ∈ cs, continues c d = true) ∧ ∀ d ∈ post.head?, d = '#' ∨ continues c d = false := by
  obtain ⟨i, l, hl, h⟩ := mem_linesTokens.1 h
  obtain ⟨front, c, cs, post, rfl, rfl, hrest⟩ := mem_lineTokens h
  exact ⟨i, front, c, cs, post, hl, by rw [Nat.add_comm], hrest⟩

/-- A piece that a line is cut into stands in this line. -/
theorem standsIn_pieceToken {i : Nat} {front post : List Char}
    (hl : lines[i]? = some (front ++ (c :: cs) ++ post)) :
    (pieceToken (i + 1) front.length c cs).StandsIn lines i front.length
      (front ++ (c :: cs) ++ post) where
  line := rfl
  column := rfl
  there := hl
  reads := by
    rw [toList_pieceToken, length_pieceToken, List.append_assoc, List.drop_left]
    exact List.take_left

/-- What follows a piece in its line, wherever the piece is said to stand. -/
theorem next_of_standsIn {i j i' : Nat} {d : Char} {front post : List Char}
    (hl : lines[i]? = some (front ++ (c :: cs) ++ post))
    (h : (pieceToken (i + 1) front.length c cs).StandsIn lines i' j l)
    (hd : l[j + (c :: cs).length]? = some d) : post.head? = some d := by
  obtain rfl : i' = i := by
    have hline := h.line
    rw [line_pieceToken] at hline
    omega
  obtain rfl : j = front.length := by
    have hcolumn := h.column
    rw [column_pieceToken] at hcolumn
    omega
  obtain rfl := Option.some.inj (hl.symm.trans h.there)
  rwa [List.append_assoc, List.getElem?_append_right (Nat.le_add_right _ _),
    Nat.add_sub_cancel_left, List.getElem?_append_right (Nat.le_refl _), Nat.sub_self,
    ← List.head?_eq_getElem?] at hd

/-- From the first hash sign of a line on, nothing belongs to a token. -/
theorem not_covers_comment {i j : Nat} (hl : lines[i]? = some l) (hj : '#' ∈ l.take (j + 1))
    (ht : t ∈ linesTokens 1 lines) : ¬ t.Covers i j := by
  rintro ⟨hline, -, hlt⟩
  obtain ⟨i', front, c, cs, post, hl', rfl, -, hhash, -⟩ := cut_of_mem ht
  rw [line_pieceToken] at hline
  rw [column_pieceToken, length_pieceToken, List.length_cons] at hlt
  obtain rfl : i = i' := by omega
  obtain rfl := Option.some.inj (hl'.symm.trans hl)
  -- The token ends behind the column, and up to its end there is no hash sign.
  have hle : j + 1 ≤ (front ++ c :: cs).length := by
    rw [List.length_append, List.length_cons]
    omega
  rw [List.take_append_of_le_length hle] at hj
  exact hhash (List.mem_of_mem_take hj)

/-- **The tokens of lines divide them.** -/
theorem partition_linesTokens (lines : List (List Char)) :
    Partition lines (linesTokens 1 lines) where
  ordered := pairwise_linesTokens 1 lines
  stands t ht := by
    obtain ⟨i, front, c, cs, post, hl, rfl, -⟩ := cut_of_mem ht
    exact ⟨i, front.length, _, standsIn_pieceToken hl⟩
  plain t ht := by
    obtain ⟨i, front, c, cs, post, -, rfl, hc, hhash, hcs, -⟩ := cut_of_mem ht
    refine ⟨fun h => ?_, fun d hd => ?_⟩
    · have hnil := congrArg String.toList h
      rw [toList_pieceToken] at hnil
      cases hnil
    · rw [toList_pieceToken] at hd
      refine ⟨?_, fun h => hhash (List.mem_append_right _ (h ▸ hd))⟩
      rcases List.mem_cons.1 hd with rfl | hd
      · exact hc
      · exact isBlank_of_continues (hcs d hd)
  comments i l j hl hj t ht := not_covers_comment hl hj ht
  covered i l j d hl hd hj := by
    cases hb : isBlank d with
    | true => exact .inl rfl
    | false =>
      obtain ⟨t, ht, hcov⟩ := exists_covers_lineTokens (i := i) hd hj hb
      exact .inr ⟨t, mem_linesTokens.2 ⟨i, l, hl, by rwa [Nat.add_comm]⟩, hcov⟩
  kinds t ht := by
    obtain ⟨i, front, c, cs, post, -, rfl, -⟩ := cut_of_mem ht
    cases hc : Word.isLetter c with
    | true => exact .inl (if_pos hc)
    | false => exact .inr (if_neg (by rw [hc]; decide))
  words t ht hk := by
    obtain ⟨i, front, c, cs, post, hl, rfl, -, -, hcs, hpost⟩ := cut_of_mem ht
    have hc : Word.isLetter c = true := by
      by_contra hc
      exact hk (if_neg hc)
    have hcont : continues c = Word.isWordChar := if_pos hc
    rw [hcont] at hcs hpost
    refine ⟨?_, fun i' j l h d hd => ?_⟩
    · rw [toList_pieceToken, Word.hasShape, hc, List.all_eq_true.2 hcs]
      rfl
    · rw [length_pieceToken] at hd
      rcases hpost d (next_of_standsIn hl h hd) with rfl | hd
      · rfl
      · exact hd
  errors t ht hk := by
    obtain ⟨i, front, c, cs, post, hl, rfl, -, -, -, hpost⟩ := cut_of_mem ht
    have hc : Word.isLetter c = false := by
      cases hc : Word.isLetter c with
      | false => rfl
      | true => exact absurd ((if_pos hc).symm.trans hk) (TokenKind.ofWord_ne_error _)
    have hcont : continues c = fun d => !isBlank d := if_neg (by rw [hc]; decide)
    refine ⟨⟨c, cs, toList_pieceToken, hc⟩, fun i' j l h d hd => ?_⟩
    rw [length_pieceToken] at hd
    rcases hpost d (next_of_standsIn hl h hd) with hd | hd
    · exact .inr hd
    · rw [hcont] at hd
      exact .inl (by simpa using hd)

/-- **The tokens of a source** divide its lines among them, all but comments and blanks.  Behind
    them stands one more token, which ends the input: it stands at the beginning of the last line,
    and no other token reads what it reads. -/
theorem tokens_partition (source : String) :
    ∃ ts, tokens source = ts ++ [.endOfInput (1 + source.toList.count '\n')] ∧
      Partition (source.toList.splitOn '\n') ts ∧ ∀ t ∈ ts, t.text ≠ Token.endText := by
  refine ⟨linesTokens 1 (splitLines source.toList), ?_, ?_, fun t ht h => ?_⟩
  · rw [tokens, length_splitLines, Nat.add_comm]
    rfl
  · rw [← splitLines_eq_splitOn]
    exact partition_linesTokens _
  · refine endText_notMem_words source ?_
    rw [words, tokens, List.dropLast_concat, ← h]
    exact List.mem_map_of_mem ht

end Source

end BL
