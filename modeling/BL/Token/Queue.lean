import BL.Token.Source

namespace BL

/-!
# Token queues

Readers take tokens from the front of a queue. The last token of a queue ends the input and is never
taken out: reading on hands it out again and again, so that a text that stops short is reported at
its end.

* `TokenQueue` — the tokens ahead of the last one, and the last one, which ends the input;
* `TokenQueue.toList` — the view: all tokens in order;
* `front`, `dequeue`, `size` — looking at the first token, taking it, counting;
* `ofTokens`, `ofTexts`, `ofSource` — queues of given tokens, of bare texts and of a source text.
-/

/-- Tokens in order, the last of which ends the input. -/
structure TokenQueue where
  ahead : List Token
  last : Token
  last_text : last.text = Token.endText

namespace TokenQueue

/-! ### View and operations -/

/-- All tokens of the queue, in order. -/
def toList (q : TokenQueue) : List Token := q.ahead ++ [q.last]

/-- The number of tokens, the last one included. -/
def size (q : TokenQueue) : Nat := q.ahead.length + 1

/-- The first token. -/
def front (q : TokenQueue) : Token := q.ahead.headD q.last

/-- The queue without its first token; the last token stays. -/
def rest (q : TokenQueue) : TokenQueue := { q with ahead := q.ahead.tail }

/-- The first token, and the queue without it. -/
def dequeue (q : TokenQueue) : Token × TokenQueue := (q.front, q.rest)

@[simp] theorem length_toList (q : TokenQueue) : q.toList.length = q.size := by
  simp [toList, size]

theorem head?_toList (q : TokenQueue) : q.toList.head? = some q.front := by
  cases h : q.ahead <;> simp [toList, front, h]

/-- Taking a token drops the first one, unless it is the last. -/
theorem toList_rest (q : TokenQueue) :
    q.rest.toList = if q.size = 1 then q.toList else q.toList.tail := by
  cases h : q.ahead <;> simp [toList, rest, size, h]

theorem toList_injective {q r : TokenQueue} (h : q.toList = r.toList) : q = r := by
  cases q; cases r
  simp only [toList] at h
  have := List.append_inj' h rfl
  simp_all

instance : DecidableEq TokenQueue := fun q r =>
  if h : q.toList = r.toList then .isTrue (toList_injective h)
  else .isFalse fun e => h (e ▸ rfl)

/-! ### Making queues -/

/-- The queue of a list of tokens. If the list does not end with a token that ends the input, one is
    put behind it, on the line of the last token. -/
def ofTokens (ts : List Token) : TokenQueue :=
  match ts.getLast? with
  | none => ⟨[], .endOfInput 1, rfl⟩
  | some t =>
    if h : t.text = Token.endText then ⟨ts.dropLast, t, h⟩
    else ⟨ts, .endOfInput t.line, rfl⟩

/-- Bare texts as tokens of line one, each with its index as its column. -/
def textTokens (ss : List String) : List Token :=
  ss.zipIdx.map fun (s, i) =>
    { kind := .ofText s, text := s, line := 1, column := i }

/-- The queue of bare texts. -/
def ofTexts (ss : List String) : TokenQueue := ofTokens (textTokens ss)

/-- The queue of a source text. -/
def ofSource (source : String) : TokenQueue := ofTokens (Source.tokens source)

/-- A list that ends the input is the queue as it stands. -/
theorem toList_ofTokens_concat (ts : List Token) {t : Token} (h : t.text = Token.endText) :
    (ofTokens (ts ++ [t])).toList = ts ++ [t] := by
  simp [ofTokens, h, toList]

/-- Bare texts of which the last one ends the input are the tokens of their queue. -/
theorem toList_ofTexts_concat (ss : List String) :
    (ofTexts (ss ++ [Token.endText])).toList = textTokens (ss ++ [Token.endText]) := by
  rw [ofTexts, textTokens, List.zipIdx_append, List.map_append]
  exact toList_ofTokens_concat _ rfl

@[simp] theorem toList_ofSource (source : String) :
    (ofSource source).toList = Source.tokens source :=
  toList_ofTokens_concat _ rfl

/-- The texts of the tokens, as messages for programmers show them. -/
def describe (q : TokenQueue) : String :=
  "TokenStream(" ++ Text.quoteList (q.toList.map Token.text) ++ ")"

end TokenQueue

end BL
