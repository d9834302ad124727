import BL.Proofs.Reading.Success

namespace BL

open Text

/-!
# Sources one below the other

A line feed between two sources ends a line and the comment on it, and nothing more.  So the tokens
of the second source are those that it has alone, further down:

* `Text.splitLines_append_newline` — the lines of both, one after the other;
* `Token.below`, `TokenQueue.below` — tokens and queues further down;
* `Source.tokens_append_newline` — the tokens of both, the second ones further down;
* `Source.words_append_newline`, `Source.gives_append_newline` — the words of both, and the queue
  that is left behind those of the first.
-/

namespace Text

/-- **Lines of both.** A line feed between two texts leaves the lines of each as they are. -/
theorem splitLines_append_newline (cs ds : List Char) :
    splitLines (cs ++ '\n' :: ds) = splitLines cs ++ splitLines ds := by
  rw [splitLines_eq_splitOn, splitLines_eq_splitOn, splitLines_eq_splitOn,
    List.splitOn_append_cons_self]

end Text

/-! ### Further down -/

/-- The token so many lines further down. -/
def Token.below (n : Nat) (t : Token) : Token := { t with line := t.line + n }

@[simp] theorem Token.below_text (n : Nat) (t : Token) : (t.below n).text = t.text := rfl

/-- The queue with all tokens so many lines further down. -/
def TokenQueue.below (n : Nat) (q : TokenQueue) : TokenQueue where
  ahead := q.ahead.map (Token.below n)
  last := q.last.below n
  last_text := q.last_text

@[simp] theorem TokenQueue.toList_below (n : Nat) (q : TokenQueue) :
    (q.below n).toList = q.toList.map (Token.below n) := by
  simp [toList, below]

@[simp] theorem TokenQueue.front_below (n : Nat) (q : TokenQueue) :
    (q.below n).front = q.front.below n := by
  cases h : q.ahead <;> simp [front, below, h]

/-- What a queue gives, it gives further down as well. -/
theorem TokenQueue.Gives.below {q r : TokenQueue} {ws : List String} (h : q.Gives ws r) (n : Nat) :
    (q.below n).Gives ws (r.below n) := by
  obtain ⟨ts, rfl, h⟩ := h
  exact ⟨ts.map (Token.below n), by simp [Function.comp_def], by simp [h]⟩

namespace Source

theorem tokensFrom_below (n line column : Nat) (cs : List Char) :
    tokensFrom (line + n) column cs = (tokensFrom line column cs).map (Token.below n) := by
  fun_induction tokensFrom line column cs with
  | case1 => simp
  | case2 column c cs hc ih => rw [tokensFrom_blank hc, ih]
  | case3 column c cs hc ih =>
    rw [tokensFrom_piece (by simpa using hc), ih, List.map_cons]
    simp [pieceToken, Token.below]

theorem linesTokens_below (n number : Nat) (ls : List (List Char)) :
    linesTokens (number + n) ls = (linesTokens number ls).map (Token.below n) := by
  induction ls generalizing number with
  | nil => rfl
  | cons l ls ih =>
    have hrest := ih (number + 1)
    rw [Nat.add_right_comm] at hrest
    rw [linesTokens, linesTokens, lineTokens, tokensFrom_below, hrest, List.map_append]
    rfl

/-- **Tokens of both.** Below another source a source has the tokens that it has alone, as many
    lines further down as the other one has. -/
theorem tokens_append_newline (a b : String) :
    tokens (a ++ "\n" ++ b) =
      (tokens a).dropLast ++ (tokens b).map (Token.below (a.toList.count '\n' + 1)) := by
  have hlines :
      splitLines (a ++ "\n" ++ b).toList = splitLines a.toList ++ splitLines b.toList := by
    rw [← splitLines_append_newline]
    simp
  rw [tokens, hlines, ← length_splitLines a.toList]
  simp only [tokens, linesTokens_append, List.dropLast_concat, List.map_append, linesTokens_below,
    List.length_append, List.append_assoc]
  simp [Token.below, Token.endOfInput]
  omega

/-- The words of both, one after the other. -/
theorem words_append_newline (a b : String) : words (a ++ "\n" ++ b) = words a ++ words b := by
  have hne : (tokens b).map (Token.below (a.toList.count '\n' + 1)) ≠ [] := by simp [tokens]
  rw [words, tokens_append_newline, List.dropLast_append_of_ne_nil hne, ← List.map_dropLast]
  simp [words, Function.comp_def]

/-- Behind the words of the first source the queue of both is that of the second one, further
    down. -/
theorem gives_append_newline (a b : String) :
    (TokenQueue.ofSource (a ++ "\n" ++ b)).Gives (words a)
      ((TokenQueue.ofSource b).below (a.toList.count '\n' + 1)) := by
  refine ⟨(tokens a).dropLast, rfl, ?_⟩
  rw [TokenQueue.toList_ofSource, TokenQueue.toList_below, TokenQueue.toList_ofSource,
    tokens_append_newline]

end Source

end BL
