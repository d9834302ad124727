import BL.Proofs.Source.Words
import BL.Reading.Basic
import Mathlib.Tactic.Tauto

namespace BL

/-!
# What a queue gives, and steps that succeed

A step of reading that succeeds takes some words from the front of the queue and leaves the rest as
it was.  The last token is handed out again and again, but no word of the language is the text that
ends the input, so that a step which succeeds never takes it:

* `TokenQueue.Gives` — the queue begins with these words, and this queue is left behind them;
* `TokenQueue.gives_append_iff` — words one after the other leave a queue in between;
* `TokenQueue.ofWords` — a queue of given words;
* `Reader.bind_eq_ok_iff`, `Reader.check_eq_ok_iff` — steps one after the other, and checks;
* `Reader.expect_eq_ok_iff`, `Reader.update_eq_ok_iff`, … — when a step succeeds, and what it
  leaves.
-/

namespace TokenQueue

variable {q r m : TokenQueue} {w : String} {ws vs : List String}

/-- The queue begins with tokens of these texts, and the other queue is what follows them. -/
def Gives (q : TokenQueue) (ws : List String) (r : TokenQueue) : Prop :=
  ∃ ts : List Token, ts.map Token.text = ws ∧ q.toList = ts ++ r.toList

/-- The last token is not among those given. -/
theorem gives_iff_ahead :
    q.Gives ws r ↔
      ∃ ts : List Token, ts.map Token.text = ws ∧ q.ahead = ts ++ r.ahead ∧ q.last = r.last := by
  refine exists_congr fun ts => and_congr_right fun _ => ?_
  constructor
  · intro h
    rw [toList, toList, ← List.append_assoc] at h
    obtain ⟨ha, hl⟩ := List.append_inj' h rfl
    exact ⟨ha, List.singleton_inj.1 hl⟩
  · rintro ⟨ha, hl⟩
    rw [toList, toList, ha, hl, List.append_assoc]

@[simp] theorem gives_nil_iff : q.Gives [] r ↔ r = q := by
  constructor
  · rintro ⟨ts, hts, h⟩
    obtain rfl : ts = [] := List.map_eq_nil_iff.1 hts
    exact (toList_injective h).symm
  · rintro rfl
    exact ⟨[], rfl, rfl⟩

/-- **Words one after the other** leave a queue between them. -/
theorem gives_append_iff : q.Gives (ws ++ vs) r ↔ ∃ m, q.Gives ws m ∧ m.Gives vs r := by
  constructor
  · intro h
    obtain ⟨ts, hts, ha, hl⟩ := gives_iff_ahead.1 h
    obtain ⟨us, us', rfl, rfl, rfl⟩ := List.map_eq_append_iff.1 hts
    rw [List.append_assoc] at ha
    -- The queue in between keeps the tokens of the later words and the last token.
    exact ⟨⟨us' ++ r.ahead, r.last, r.last_text⟩, gives_iff_ahead.2 ⟨us, rfl, ha, hl⟩,
      gives_iff_ahead.2 ⟨us', rfl, rfl, rfl⟩⟩
  · rintro ⟨m, ⟨ts, rfl, h⟩, ⟨us, rfl, h'⟩⟩
    exact ⟨ts ++ us, List.map_append, by rw [h, h', List.append_assoc]⟩

theorem Gives.append (h : q.Gives ws m) (h' : m.Gives vs r) : q.Gives (ws ++ vs) r :=
  gives_append_iff.2 ⟨m, h, h'⟩

theorem gives_cons_iff : q.Gives (w :: ws) r ↔ ∃ m, q.Gives [w] m ∧ m.Gives ws r := by
  show q.Gives ([w] ++ ws) r ↔ _
  exact gives_append_iff

/-- The three words that open a construct. -/
theorem gives_opening_iff {k k' : String} :
    q.Gives (k :: w :: k' :: ws) r ↔ ∃ m, q.Gives [k, w, k'] m ∧ m.Gives ws r := by
  show q.Gives ([k, w, k'] ++ ws) r ↔ _
  exact gives_append_iff

theorem Gives.cons (h : q.Gives [w] m) (h' : m.Gives ws r) : q.Gives (w :: ws) r :=
  h.append h'

/-- The first word given is the text of the first token. -/
theorem Gives.front_text (h : q.Gives (w :: ws) r) : q.front.text = w := by
  obtain ⟨ts, hts, ha, -⟩ := gives_iff_ahead.1 h
  cases ts with
  | nil => simp at hts
  | cons t ts =>
    rw [List.map_cons, List.cons.injEq] at hts
    rw [front, ha, List.cons_append, List.headD_cons, hts.1]

/-- A word that does not end the input is given exactly if it is the text of the first token. -/
theorem gives_singleton_iff (hw : w ≠ Token.endText) :
    q.Gives [w] r ↔ q.front.text = w ∧ r = q.rest := by
  constructor
  · intro h
    refine ⟨h.front_text, toList_injective ?_⟩
    obtain ⟨ts, hts, ha, hl⟩ := gives_iff_ahead.1 h
    obtain ⟨t, rfl, -⟩ := List.map_eq_singleton_iff.1 hts
    simp [toList, rest, ha, hl]
  · rintro ⟨hf, rfl⟩
    refine gives_iff_ahead.2 ⟨[q.front], by rw [List.map_singleton, hf], ?_, rfl⟩
    cases ha : q.ahead with
    | nil =>
      -- With nothing ahead the first token is the last one, and its text ends the input.
      have hlast : w = Token.endText := by
        rw [← hf, front, ha]
        exact q.last_text
      exact absurd hlast hw
    | cons t ts => simp [front, rest, ha]

/-- Each word given shortens the queue by one token. -/
theorem Gives.size_eq (h : q.Gives ws r) : q.size = ws.length + r.size := by
  obtain ⟨ts, rfl, h⟩ := h
  rw [← length_toList, h, List.length_append, List.length_map, length_toList]

theorem Gives.size_lt (h : q.Gives (w :: ws) r) : r.size < q.size := by
  rw [h.size_eq, List.length_cons]
  omega

/-- A queue gives as many words in one way only. -/
theorem Gives.eq_of_length (h : q.Gives ws m) (h' : q.Gives vs r) (hl : ws.length = vs.length) :
    ws = vs ∧ m = r := by
  obtain ⟨ts, rfl, h⟩ := h
  obtain ⟨us, rfl, h'⟩ := h'
  rw [List.length_map, List.length_map] at hl
  obtain ⟨rfl, e⟩ := List.append_inj (h.symm.trans h') hl
  exact ⟨rfl, toList_injective e⟩

/-- The first token of the list is the first token of the queue. -/
theorem front_eq_of_toList {t : Token} {ts : List Token} (h : q.toList = t :: ts) :
    q.front = t := by
  have hhead := q.head?_toList
  rw [h, List.head?_cons, Option.some.injEq] at hhead
  exact hhead.symm

/-- What follows some tokens of a queue is a queue, unless the last token is among them. -/
theorem exists_toList_eq {us vs : List Token} (h : q.toList = us ++ vs) (hv : vs ≠ []) :
    ∃ m : TokenQueue, m.toList = vs := by
  -- What is left has a last token, and it can only be that of the queue.
  obtain ⟨vs, e, rfl⟩ := (List.eq_nil_or_concat vs).resolve_left hv
  rw [toList, List.concat_eq_append, ← List.append_assoc] at h
  obtain ⟨-, hl⟩ := List.append_inj' h rfl
  obtain rfl := List.singleton_inj.1 hl
  exact ⟨⟨vs, q.last, q.last_text⟩, by rw [toList, List.concat_eq_append]⟩

/-! ### Queues of bare words and of sources -/

/-- A queue of bare words. -/
def ofWords (ws : List String) : TokenQueue :=
  ⟨ws.map fun w => ⟨.ofText w, w, 1, 0⟩, .endOfInput 1, Token.endOfInput_text 1⟩

@[simp] theorem map_text_ofWords (ws : List String) :
    (ofWords ws).ahead.map Token.text = ws := by
  rw [ofWords, List.map_map]
  exact List.map_id ws

theorem gives_ofWords (ws vs : List String) : (ofWords (ws ++ vs)).Gives ws (ofWords vs) :=
  gives_iff_ahead.2 ⟨(ofWords ws).ahead, map_text_ofWords ws, List.map_append, rfl⟩

theorem ofWords_injective (h : ofWords ws = ofWords vs) : ws = vs := by
  rw [← map_text_ofWords ws, h, map_text_ofWords]

/-- The queue when all tokens but the last one are taken. -/
def atLast (q : TokenQueue) : TokenQueue := { q with ahead := [] }

@[simp] theorem toList_atLast (q : TokenQueue) : q.atLast.toList = [q.last] := rfl

theorem isEnd_last (q : TokenQueue) : q.last.isEnd = true := by
  rw [Token.isEnd, q.last_text, beq_self_eq_true]

/-- The queue of a source gives all words of the source. -/
theorem gives_words_ofSource (source : String) :
    (ofSource source).Gives (Source.words source) (ofSource source).atLast :=
  gives_iff_ahead.2 ⟨_, map_text_ahead_ofSource source, by simp [atLast], rfl⟩

/-- **The end of a source.** Where the queue of a source ends the input, all words are taken. -/
theorem Gives.eq_of_isEnd {source : String} (h : (ofSource source).Gives ws r)
    (he : r.front.isEnd = true) : ws = Source.words source ∧ r = (ofSource source).atLast := by
  obtain ⟨ts, rfl, ha, hl⟩ := gives_iff_ahead.1 h
  have hnil : r.ahead = [] := by
    cases hr : r.ahead with
    | nil => rfl
    | cons t us =>
      -- A token that ends the input would be a word of the source.
      refine absurd ?_ (Source.endText_notMem_words source)
      rw [← map_text_ahead_ofSource, ha, hr, List.map_append, List.map_cons]
      rw [front, hr, List.headD_cons, Token.isEnd, beq_iff_eq] at he
      simp [he]
  rw [hnil, List.append_nil] at ha
  refine ⟨by rw [← map_text_ahead_ofSource, ha], toList_injective ?_⟩
  rw [toList, hnil, toList_atLast, hl, List.nil_append]

end TokenQueue

namespace Reader

open TokenQueue

variable {τ σ α β : Type} {q r : TokenQueue} {s s' : τ}

/-! ### Steps one after the other -/

/-- Two steps succeed one after the other exactly if each of them does. -/
theorem bind_eq_ok_iff {x : Reader τ α} {f : α → Reader τ β} {b : β} :
    (x >>= f) ⟨q, s⟩ = .ok b ⟨r, s'⟩ ↔
      ∃ a m t, x ⟨q, s⟩ = .ok a ⟨m, t⟩ ∧ f a ⟨m, t⟩ = .ok b ⟨r, s'⟩ := by
  rw [bind_eq]
  cases x ⟨q, s⟩ with
  | ok a st =>
    constructor
    · intro h
      exact ⟨a, st.queue, st.target, rfl, h⟩
    · rintro ⟨a, m, t, h, h'⟩
      cases h
      exact h'
  | error e st => simp

/-- The states after two successes agree in each part. -/
theorem ok_eq_ok_iff {a b : α} :
    (EStateM.Result.ok a ⟨q, s⟩ : EStateM.Result Fault (ReaderState τ) α) = .ok b ⟨r, s'⟩ ↔
      b = a ∧ r = q ∧ s' = s := by
  constructor
  · intro h
    cases h
    exact ⟨rfl, rfl, rfl⟩
  · rintro ⟨rfl, rfl, rfl⟩
    rfl

theorem pure_eq_ok_iff {a b : α} :
    (pure a : Reader τ α) ⟨q, s⟩ = .ok b ⟨r, s'⟩ ↔ b = a ∧ r = q ∧ s' = s := by
  rw [pure_eq, ok_eq_ok_iff]

/-- Looking at the first token always succeeds. -/
theorem peek_bind (f : Token → Reader τ β) (st : ReaderState τ) :
    (peek >>= f) st = f st.queue.front st := by
  rw [bind_eq, peek_eq]

/-- Taking the first token always succeeds. -/
theorem next_bind (f : Token → Reader τ β) (st : ReaderState τ) :
    (next >>= f) st = f st.queue.front { st with queue := st.queue.rest } := by
  rw [bind_eq, next_eq]

/-- **Checks.** A check that gives a result or stops succeeds exactly if its condition holds. -/
theorem check_eq_ok_iff {c : Prop} [Decidable c] {a b : α} {f : Fault} :
    (if c then pure a else throw f : Reader τ α) ⟨q, s⟩ = .ok b ⟨r, s'⟩ ↔
      c ∧ b = a ∧ r = q ∧ s' = s := by
  by_cases h : c
  · rw [if_pos h, pure_eq_ok_iff]
    tauto
  · rw [if_neg h]
    constructor
    · intro h'
      cases h'
    · rintro ⟨h', -⟩
      exact absurd h' h

/-! ### Tokens -/

/-- A keyword is read exactly if the queue gives it. -/
theorem expect_eq_ok_iff {k : String} (hk : k ≠ Token.endText) {t : Token} :
    expect k ⟨q, s⟩ = .ok t ⟨r, s'⟩ ↔ q.Gives [k] r ∧ t = q.front ∧ s' = s := by
  rw [expect, next_bind, gives_singleton_iff hk]
  unfold reject
  rw [check_eq_ok_iff]
  tauto

/-- A keyword, and then the rest of the steps. -/
theorem expect_bind_eq_ok_iff {k : String} (hk : k ≠ Token.endText) {f : Token → Reader τ β}
    {b : β} :
    (expect k >>= f) ⟨q, s⟩ = .ok b ⟨r, s'⟩ ↔
      ∃ m, q.Gives [k] m ∧ f q.front ⟨m, s⟩ = .ok b ⟨r, s'⟩ := by
  simp only [bind_eq_ok_iff, expect_eq_ok_iff hk]
  constructor
  · rintro ⟨t, m, u, ⟨hm, rfl, rfl⟩, h⟩
    exact ⟨m, hm, h⟩
  · rintro ⟨m, hm, h⟩
    exact ⟨q.front, m, s, ⟨hm, rfl, rfl⟩, h⟩

/-- An identifier does not end the input. -/
theorem ne_endText_of_isIdentifier {n : String} (h : Word.isIdentifier n = true) :
    n ≠ Token.endText := by
  rintro rfl
  exact absurd h (by decide)

/-- An identifier is read exactly if the queue gives one. -/
theorem identifier_eq_ok_iff {t : Token} :
    identifier ⟨q, s⟩ = .ok t ⟨r, s'⟩ ↔
      Word.isIdentifier t.text = true ∧ q.Gives [t.text] r ∧ t = q.front ∧ s' = s := by
  rw [identifier, next_bind]
  unfold reject
  rw [check_eq_ok_iff]
  constructor
  · rintro ⟨h, rfl, rfl, rfl⟩
    exact ⟨h, (gives_singleton_iff (ne_endText_of_isIdentifier h)).2 ⟨rfl, rfl⟩, rfl, rfl⟩
  · rintro ⟨h, hg, rfl, rfl⟩
    obtain ⟨-, hr⟩ := (gives_singleton_iff (ne_endText_of_isIdentifier h)).1 hg
    exact ⟨h, rfl, hr, rfl⟩

theorem spelling_ne_endText (c : Condition) : c.spelling ≠ Token.endText := by
  cases c <;> decide

/-- A condition is read exactly if the queue gives its spelling. -/
theorem condition_eq_ok_iff {c : Condition} :
    condition ⟨q, s⟩ = .ok c ⟨r, s'⟩ ↔ q.Gives [c.spelling] r ∧ s' = s := by
  rw [gives_singleton_iff (spelling_ne_endText c)]
  -- The step looks up the name of the first token, and the grammar asks for the spelling.
  cases hc : Word.isCondition q.front.text with
  | false =>
    rw [condition_eq_of_not hc]
    constructor
    · intro h
      cases h
    · rintro ⟨⟨hf, -⟩, -⟩
      rw [hf, Word.isCondition_spelling] at hc
      cases hc
  | true =>
    obtain ⟨d, hd⟩ := Word.exists_spelling_of_isCondition hc
    rw [condition_eq_of_spelling (c := d) hd.symm, ok_eq_ok_iff]
    constructor
    · rintro ⟨rfl, rfl, rfl⟩
      exact ⟨⟨hd.symm, rfl⟩, rfl⟩
    · rintro ⟨⟨hf, rfl⟩, rfl⟩
      exact ⟨Condition.spelling_injective (hf.symm.trans hd.symm), rfl, rfl⟩

/-- The check of the first keyword takes no token. -/
theorem opening_eq_ok_iff {k : String} {u : Unit} :
    opening k ⟨q, s⟩ = .ok u ⟨r, s'⟩ ↔ q.front.text = k ∧ r = q ∧ s' = s := by
  rw [opening, peek_bind, check_eq_ok_iff]
  tauto

/-- The check for the end of the input takes no token. -/
theorem ending_eq_ok_iff {u : Unit} :
    ending ⟨q, s⟩ = .ok u ⟨r, s'⟩ ↔ q.front.isEnd = true ∧ r = q ∧ s' = s := by
  rw [ending, peek_bind]
  unfold reject
  rw [check_eq_ok_iff]
  tauto

/-! ### Targets -/

/-- The target is changed, and no token is taken. -/
theorem update_eq_ok_iff {f : τ → Except Violation τ} {u : Unit} :
    update f ⟨q, s⟩ = .ok u ⟨r, s'⟩ ↔ f s = .ok s' ∧ r = q := by
  unfold update
  cases f s with
  | ok t =>
    dsimp only
    rw [ok_eq_ok_iff, Except.ok.injEq]
    tauto
  | error v => simp

/-- Reading into a new target leaves the present one as it is. -/
theorem fresh_eq_ok_iff {start t : σ} {x : Reader σ α} {a : α} :
    fresh start x ⟨q, s⟩ = .ok (a, t) ⟨r, s'⟩ ↔ x ⟨q, start⟩ = .ok a ⟨r, t⟩ ∧ s' = s := by
  unfold fresh
  cases x ⟨q, start⟩ with
  | ok b st =>
    obtain ⟨m, v⟩ := st
    dsimp only
    rw [ok_eq_ok_iff, ok_eq_ok_iff, Prod.mk.injEq]
    tauto
  | error e st => simp

end Reader

end BL
