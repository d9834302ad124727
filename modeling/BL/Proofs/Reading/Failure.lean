import BL.Proofs.Grammar.Refusal
import BL.Proofs.Reading.Statement

namespace BL

open Grammar TokenQueue

/-!
# Reading fails where the grammar refuses a word

A step of reading that fails names a token.  For statements and blocks this is the first token
whose text the grammar refuses behind the words in front of it, and no other fault ever comes up.

* `TokenQueue.StopsWith` — the queue begins with words behind which its next token is refused;
* `Reader.Fails`, `Reader.bind_fails_iff`, `Reader.expect_fails_iff`, … — when a step fails, and
  with which fault;
* `Reader.RefusesWord`, `Reader.RefusesItems` — what the constructs ask of the readers that they
  are given, beside what these have to do when they succeed;
* `Reader.statement_fails_iff`, `Reader.block_fails_iff`, `Reader.wholeBlock_fails_iff` — when the
  readers of statements and blocks fail, and with which fault;
* `Statement.ofSource_eq_error_iff` — the sources that hold no statements.
-/

namespace TokenQueue

variable {q r m : TokenQueue} {ws us : List String} {f : Fault}

/-- The queue begins with words behind which the next token is refused; the fault says so. -/
def StopsWith (S : List String → String → Cause → Prop) (q : TokenQueue) (f : Fault) : Prop :=
  ∃ ws r k, q.Gives ws r ∧ S ws r.front.text k ∧ f = .rejected ⟨k, r.front⟩

/-- A refusal in a part of a construct is one in the construct. -/
theorem Gives.stopsWith {S S' : List String → String → Cause → Prop} (h : q.Gives us m)
    (hm : m.StopsWith S f) (hS : ∀ ws w k, S ws w k → S' (us ++ ws) w k) : q.StopsWith S' f := by
  obtain ⟨ws, r, k, hg, hs, rfl⟩ := hm
  exact ⟨us ++ ws, r, k, h.append hg, hS ws r.front.text k hs, rfl⟩

/-- What a conditional can be refused for: its opening, its first branch, the words behind it, its
    second branch, the words behind that one. -/
theorem stopsWith_conditional_iff :
    q.StopsWith (Refuses .conditional) f ↔
      q.StopsWith (RefusesOpening "IF" "THEN" Condition.spelling (fun _ => True)
        RefusesCondition) f ∨
      ∃ c m, q.Gives ["IF", Condition.spelling c, "THEN"] m ∧
        (m.StopsWith (Refuses .block) f ∨ ∃ ss m', m.GivesBlock ss m' ∧
          (m'.StopsWith (RefusesClosing [Token.endText] "IF" (.missingKeyword "IF")) f ∨
            ∃ l, m'.Gives ["ELSE"] l ∧ (l.StopsWith (Refuses .block) f ∨
              ∃ ts l', l.GivesBlock ts l' ∧ l'.StopsWith
                (RefusesClosing [Token.endText, "ELSE"] "IF" (.missingKeyword "IF")) f))) := by
  constructor
  · rintro ⟨_, r, k, hg, hs, rfl⟩
    cases hs with
    | ifOpening h => exact .inl ⟨_, r, k, hg, h, rfl⟩
    | ifBody c h =>
      obtain ⟨m, hc, hg⟩ := gives_opening_iff.1 hg
      exact .inr ⟨c, m, hc, .inl ⟨_, r, k, hg, h, rfl⟩⟩
    | @ifClosing ws _ _ _ ss c hss h =>
      obtain ⟨m, hc, hg⟩ := gives_opening_iff.1 hg
      obtain ⟨m', hws, hg⟩ := gives_append_iff.1 hg
      exact .inr ⟨c, m, hc, .inr ⟨ss, m', ⟨ws, hws, hss⟩, .inl ⟨_, r, k, hg, h, rfl⟩⟩⟩
    | @elseBody ws _ _ _ ss c hss h =>
      obtain ⟨m, hc, hg⟩ := gives_opening_iff.1 hg
      obtain ⟨m', hws, hg⟩ := gives_append_iff.1 hg
      obtain ⟨l, hl, hg⟩ := gives_cons_iff.1 hg
      exact .inr ⟨c, m, hc, .inr ⟨ss, m', ⟨ws, hws, hss⟩, .inr ⟨l, hl,
        .inl ⟨_, r, k, hg, h, rfl⟩⟩⟩⟩
    | @elseClosing ws vs _ _ _ ss ts c hss hts h =>
      obtain ⟨m, hc, hg⟩ := gives_opening_iff.1 hg
      obtain ⟨m', hws, hg⟩ := gives_append_iff.1 hg
      obtain ⟨l, hl, hg⟩ := gives_cons_iff.1 hg
      obtain ⟨l', hvs, hg⟩ := gives_append_iff.1 hg
      exact .inr ⟨c, m, hc, .inr ⟨ss, m', ⟨ws, hws, hss⟩, .inr ⟨l, hl,
        .inr ⟨ts, l', ⟨vs, hvs, hts⟩, ⟨_, r, k, hg, h, rfl⟩⟩⟩⟩⟩
  · rintro (⟨_, r, k, hg, h, rfl⟩ | ⟨c, m, hc, h | ⟨ss, m', ⟨ws, hws, hss⟩, h | ⟨l, hl,
      h | ⟨ts, l', ⟨vs, hvs, hts⟩, h⟩⟩⟩⟩)
    · exact ⟨_, r, k, hg, .ifOpening h, rfl⟩
    · exact hc.stopsWith h fun _ _ _ h => .ifBody c h
    · refine (hc.append hws).stopsWith h fun _ _ _ h => ?_
      have hr := Refuses.ifClosing c hss h
      simpa using hr
    · refine (hc.append (hws.append hl)).stopsWith h fun _ _ _ h => ?_
      have hr := Refuses.elseBody c hss h
      simpa using hr
    · refine (hc.append (hws.append (hl.append hvs))).stopsWith h fun _ _ _ h => ?_
      have hr := Refuses.elseClosing c hss hts h
      simpa using hr

/-- What a loop can be refused for. -/
theorem stopsWith_loop_iff :
    q.StopsWith (Refuses .loop) f ↔
      q.StopsWith (RefusesOpening "WHILE" "DO" Condition.spelling (fun _ => True)
        RefusesCondition) f ∨
      ∃ c m, q.Gives ["WHILE", Condition.spelling c, "DO"] m ∧
        (m.StopsWith (Refuses .block) f ∨ ∃ ss m', m.GivesBlock ss m' ∧ m'.StopsWith
          (RefusesClosing [Token.endText, "ELSE"] "WHILE" (.missingKeyword "WHILE")) f) := by
  constructor
  · rintro ⟨_, r, k, hg, hs, rfl⟩
    cases hs with
    | whileOpening h => exact .inl ⟨_, r, k, hg, h, rfl⟩
    | whileBody c h =>
      obtain ⟨m, hc, hg⟩ := gives_opening_iff.1 hg
      exact .inr ⟨c, m, hc, .inl ⟨_, r, k, hg, h, rfl⟩⟩
    | @whileClosing ws _ _ _ ss c hss h =>
      obtain ⟨m, hc, hg⟩ := gives_opening_iff.1 hg
      obtain ⟨m', hws, hg⟩ := gives_append_iff.1 hg
      exact .inr ⟨c, m, hc, .inr ⟨ss, m', ⟨ws, hws, hss⟩, ⟨_, r, k, hg, h, rfl⟩⟩⟩
  · rintro (⟨_, r, k, hg, h, rfl⟩ | ⟨c, m, hc, h | ⟨ss, m', ⟨ws, hws, hss⟩, h⟩⟩)
    · exact ⟨_, r, k, hg, .whileOpening h, rfl⟩
    · exact hc.stopsWith h fun _ _ _ h => .whileBody c h
    · refine (hc.append hws).stopsWith h fun _ _ _ h => ?_
      have hr := Refuses.whileClosing c hss h
      simpa using hr

/-- What a block can be refused for: its first statement, unless the block ends there, or the
    statements behind it. -/
theorem stopsWith_block_iff :
    q.StopsWith (Refuses .block) f ↔
      (q.front.text ∉ [Token.endText, "ELSE", "END"] ∧ q.StopsWith (Refuses .statement) f) ∨
        ∃ s m, q.GivesStatement s m ∧ m.StopsWith (Refuses .block) f := by
  constructor
  · rintro ⟨us, r, k, hg, hs, rfl⟩
    cases hs with
    | head h he =>
      refine .inl ⟨?_, us, r, k, hg, h, rfl⟩
      -- Unless the statement is refused at its first word, that word begins it.
      cases us with
      | nil =>
        obtain rfl := gives_nil_iff.1 hg
        exact he rfl
      | cons v ws =>
        rw [hg.front_text]
        cases h with
        | ofConditional h =>
          obtain ⟨vs, e⟩ := h.exists_cons_if
          rw [(List.cons.inj e).1]
          decide
        | ofLoop h =>
          obtain ⟨vs, e⟩ := h.exists_cons_while
          rw [(List.cons.inj e).1]
          decide
    | tail hs h =>
      obtain ⟨m, hm, hg⟩ := gives_append_iff.1 hg
      exact .inr ⟨_, m, ⟨_, hm, hs⟩, _, r, k, hg, h, rfl⟩
  · rintro (⟨hq, ws, r, k, hg, hs, rfl⟩ | ⟨s, m, ⟨ws, hws, hs⟩, h⟩)
    · refine ⟨ws, r, k, hg, .head hs ?_, rfl⟩
      rintro rfl
      obtain rfl := gives_nil_iff.1 hg
      exact hq
    · exact hws.stopsWith h fun _ _ _ h => .tail hs h

/-- A closing is refused only where its keyword stands, or a word that ends the block before. -/
theorem StopsWith.front_of_closing {enders : List String} {last : String} {cause : Cause}
    (h : q.StopsWith (RefusesClosing enders last cause) f) :
    q.front.text = "END" ∨ q.front.text ∈ enders := by
  obtain ⟨ws, r, k, hg, hs, -⟩ := h
  cases hs with
  | first hmem =>
    obtain rfl := gives_nil_iff.1 hg
    exact .inr hmem
  | last => exact .inl hg.front_text

end TokenQueue

namespace Reader

variable {τ σ α β : Type} {q r : TokenQueue} {s s' : τ} {f : Fault}

/-! ### Steps that fail -/

/-- The step fails with the fault, in whatever state. -/
def Fails (x : Reader τ α) (st : ReaderState τ) (f : Fault) : Prop := ∃ st', x st = .error f st'

theorem not_fails_of_eq_ok {x : Reader τ α} {st st' : ReaderState τ} {a : α}
    (h : x st = .ok a st') : ¬ Fails x st f := by
  rintro ⟨st'', h'⟩
  rw [h] at h'
  cases h'

/-- Two steps fail one after the other if the first one fails, or the second one behind it. -/
theorem bind_fails_iff {x : Reader τ α} {g : α → Reader τ β} :
    Fails (x >>= g) ⟨q, s⟩ f ↔
      Fails x ⟨q, s⟩ f ∨ ∃ a m t, x ⟨q, s⟩ = .ok a ⟨m, t⟩ ∧ Fails (g a) ⟨m, t⟩ f := by
  unfold Fails
  rw [bind_eq]
  cases x ⟨q, s⟩ with
  | ok a st =>
    constructor
    · intro h
      exact .inr ⟨a, st.queue, st.target, rfl, h⟩
    · rintro (⟨st', h⟩ | ⟨a, m, t, h, h'⟩)
      · cases h
      · cases h
        exact h'
  | error e st => simp

@[simp] theorem not_pure_fails {a : α} {st : ReaderState τ} : ¬ Fails (pure a) st f :=
  not_fails_of_eq_ok (pure_eq a st)

theorem throw_fails_iff {e : Fault} {st : ReaderState τ} :
    Fails (throw e : Reader τ α) st f ↔ f = e := by
  constructor
  · rintro ⟨st', h⟩
    cases h
    rfl
  · rintro rfl
    exact ⟨st, rfl⟩

/-- **Checks.** A check that gives a result or stops fails exactly if its condition does not
    hold. -/
theorem check_fails_iff {c : Prop} [Decidable c] {a : α} {e : Fault} {st : ReaderState τ} :
    Fails (if c then pure a else throw e : Reader τ α) st f ↔ ¬ c ∧ f = e := by
  by_cases h : c
  · simp [h]
  · simp [h, throw_fails_iff]

/-- A check that stops at once or goes on. -/
theorem stop_fails_iff {c : Prop} [Decidable c] {e : Fault} {x : Reader τ α}
    {st : ReaderState τ} :
    Fails (if c then throw e else x) st f ↔ (c ∧ f = e) ∨ (¬ c ∧ Fails x st f) := by
  by_cases h : c
  · simp [h, throw_fails_iff]
  · simp [h]

theorem peek_bind_fails_iff {g : Token → Reader τ β} :
    Fails (peek >>= g) ⟨q, s⟩ f ↔ Fails (g q.front) ⟨q, s⟩ f := by
  rw [Fails, peek_bind]
  rfl

theorem next_bind_fails_iff {g : Token → Reader τ β} :
    Fails (next >>= g) ⟨q, s⟩ f ↔ Fails (g q.front) ⟨q.rest, s⟩ f := by
  rw [Fails, next_bind]
  rfl

/-- Reading into a new target fails as the reader does. -/
theorem fresh_fails_iff {start : σ} {x : Reader σ α} :
    Fails (fresh start x) ⟨q, s⟩ f ↔ Fails x ⟨q, start⟩ f := by
  unfold Fails fresh
  cases x ⟨q, start⟩ with
  | ok a st => simp
  | error e st => simp

/-- A change of the target fails only if a condition of use is violated. -/
theorem not_update_fails {g : τ → Except Violation τ} {t : τ} (h : g s = .ok t) :
    ¬ Fails (update g) ⟨q, s⟩ f :=
  not_fails_of_eq_ok (a := ()) (update_eq_ok_iff.2 ⟨h, rfl⟩)

/-! ### Tokens -/

/-- The step fails exactly if the text of the first token is refused, and for this cause. -/
def RefusesWord (x : Reader τ α) (S : String → Cause → Prop) : Prop :=
  ∀ ⦃q : TokenQueue⦄ ⦃s : τ⦄ ⦃f : Fault⦄,
    Fails x ⟨q, s⟩ f ↔ ∃ k, S q.front.text k ∧ f = .rejected ⟨k, q.front⟩

theorem RefusesWord.iff {x : Reader τ α} {S : String → Cause → Prop} (h : RefusesWord x S) :
    Fails x ⟨q, s⟩ f ↔ ∃ k, S q.front.text k ∧ f = .rejected ⟨k, q.front⟩ :=
  @h q s f

/-- A check of the first token, which is taken, refuses every other word for one cause. -/
theorem refusesWord_next {c : Token → Prop} [DecidablePred c] {g : Token → α} {k : Cause}
    {S : String → Cause → Prop} (hS : ∀ t k', S t.text k' ↔ ¬ c t ∧ k' = k) :
    RefusesWord (next >>= fun t => if c t then pure (g t) else reject k t : Reader τ α) S := by
  intro q s f
  rw [next_bind_fails_iff]
  unfold reject
  rw [check_fails_iff]
  simp only [hS]
  constructor
  · rintro ⟨h, rfl⟩
    exact ⟨k, ⟨h, rfl⟩, rfl⟩
  · rintro ⟨_, ⟨h, rfl⟩, rfl⟩
    exact ⟨h, rfl⟩

/-- Where a keyword is asked for, every other word is refused. -/
theorem refusesWord_expect (k : String) :
    RefusesWord (expect k : Reader τ Token) fun w c => w ≠ k ∧ c = .missingKeyword k :=
  refusesWord_next (c := fun t => t.text = k) (g := id) fun _ _ => Iff.rfl

theorem expect_fails_iff {k : String} :
    Fails (expect k) ⟨q, s⟩ f ↔
      q.front.text ≠ k ∧ f = .rejected ⟨.missingKeyword k, q.front⟩ := by
  rw [(refusesWord_expect k).iff]
  constructor
  · rintro ⟨_, ⟨hne, rfl⟩, rfl⟩
    exact ⟨hne, rfl⟩
  · rintro ⟨hne, rfl⟩
    exact ⟨_, ⟨hne, rfl⟩, rfl⟩

theorem refusesWord_identifier : RefusesWord (identifier : Reader τ Token) RefusesIdentifier := by
  refine refusesWord_next (c := fun t => Word.isIdentifier t.text = true) (g := id) fun t k => ?_
  constructor
  · rintro ⟨h⟩
    exact ⟨by simp [h], rfl⟩
  · rintro ⟨h, rfl⟩
    exact ⟨by simpa using h⟩

/-- The name of a condition always names one, so that nothing but the check can fail. -/
theorem refusesWord_condition : RefusesWord (condition : Reader τ Condition) RefusesCondition := by
  intro q s f
  cases hc : Word.isCondition q.front.text with
  | true =>
    obtain ⟨c, hc'⟩ := Word.exists_spelling_of_isCondition hc
    have hread := condition_eq_of_spelling (s := ⟨q, s⟩) hc'.symm
    constructor
    · intro h
      exact absurd h (not_fails_of_eq_ok hread)
    · rintro ⟨k, h, -⟩
      cases h with
      | mk h => rw [hc] at h; cases h
  | false =>
    rw [Fails, condition_eq_of_not hc]
    constructor
    · rintro ⟨st, h⟩
      cases h
      exact ⟨_, ⟨hc⟩, rfl⟩
    · rintro ⟨k, ⟨-⟩, rfl⟩
      exact ⟨_, rfl⟩

/-! ### Openings and closings -/

/-- The keyword that a construct begins with is read if it is there. -/
theorem opening_expect_bind {k : String} (hq : q.front.text = k) {g : Token → Reader τ β} :
    (opening k >>= fun _ => expect k >>= g) ⟨q, s⟩ = g q.front ⟨q.rest, s⟩ := by
  rw [bind_eq, opening, peek_bind, if_pos hq, pure_eq]
  dsimp only
  rw [bind_eq, expect_eq, if_pos hq]

/-- **Openings.** They fail at the word between the two keywords, or at the second keyword. -/
theorem TakesWord.opening_fails_iff {x : Reader τ α} {word : α → String} {P : α → Prop}
    {S : String → Cause → Prop} (hx : TakesWord x word P) (hS : RefusesWord x S) {k k' : String}
    (hk : k ≠ Token.endText) (hq : q.front.text = k) :
    Fails (do opening k
              let _ ← expect k
              let a ← x
              let _ ← expect k'
              return a : Reader τ α) ⟨q, s⟩ f ↔
      q.StopsWith (RefusesOpening k k' word P S) f := by
  have hfirst : q.Gives [k] q.rest := (gives_singleton_iff hk).2 ⟨hq, rfl⟩
  rw [Fails, opening_expect_bind hq]
  constructor
  · intro h
    rcases bind_fails_iff.1 h with h₁ | ⟨a, m, _, ha, h₁⟩
    · obtain ⟨c, hc, rfl⟩ := hS.iff.1 h₁
      exact ⟨[k], q.rest, c, hfirst, .word hc, rfl⟩
    obtain ⟨hP, hm, rfl⟩ := hx.iff.1 ha
    rcases bind_fails_iff.1 h₁ with h₂ | ⟨_, _, _, -, h₂⟩
    · obtain ⟨hne, rfl⟩ := expect_fails_iff.1 h₂
      exact ⟨[k, word a], m, _, hfirst.cons hm, .second hP hne, rfl⟩
    · exact absurd h₂ not_pure_fails
  · rintro ⟨ws, r, c, hg, hs, rfl⟩
    cases hs with
    | word hc =>
      obtain ⟨-, rfl⟩ := (gives_singleton_iff hk).1 hg
      exact bind_fails_iff.2 (.inl (hS.iff.2 ⟨c, hc, rfl⟩))
    | @second a _ ha hne =>
      -- The word in between is taken, and what stops the step is the keyword behind it.
      obtain ⟨m, hm, hr⟩ := gives_cons_iff.1 hg
      obtain ⟨-, rfl⟩ := (gives_singleton_iff hk).1 hm
      have hword : x ⟨q.rest, s⟩ = .ok a ⟨r, s⟩ := hx.iff.2 ⟨ha, hr, rfl⟩
      exact bind_fails_iff.2 (.inr ⟨a, r, s, hword,
        bind_fails_iff.2 (.inl (expect_fails_iff.2 ⟨hne, rfl⟩))⟩)

/-- **Closings.** They fail at `END` or at the last word; what comes behind them may fail too. -/
theorem RefusesWord.closing_fails_iff {x : Reader τ α} {enders : List String} {last : String}
    {cause : Cause} (hx : RefusesWord x fun w c => w ≠ last ∧ c = cause)
    (hq : q.front.text = "END" ∨ q.front.text ∈ enders) (hend : "END" ∉ enders)
    {g : α → Reader τ β} :
    Fails (expect "END" >>= fun _ => x >>= g) ⟨q, s⟩ f ↔
      q.StopsWith (RefusesClosing enders last cause) f ∨
        ∃ m a l t, q.Gives ["END"] m ∧ x ⟨m, s⟩ = .ok a ⟨l, t⟩ ∧ Fails (g a) ⟨l, t⟩ f := by
  have hk : "END" ≠ Token.endText := by decide
  constructor
  · intro h
    rcases bind_fails_iff.1 h with h₁ | ⟨_, m, _, he, h₁⟩
    · obtain ⟨hne, rfl⟩ := expect_fails_iff.1 h₁
      exact .inl ⟨[], q, _, gives_nil_iff.2 rfl, .first (hq.resolve_left hne), rfl⟩
    obtain ⟨hm, -, rfl⟩ := (expect_eq_ok_iff hk).1 he
    rcases bind_fails_iff.1 h₁ with h₂ | ⟨a, l, t, ha, h₂⟩
    · obtain ⟨_, ⟨hne, rfl⟩, rfl⟩ := hx.iff.1 h₂
      exact .inl ⟨["END"], m, _, hm, .last hne, rfl⟩
    · exact .inr ⟨m, a, l, t, hm, ha, h₂⟩
  · rintro (⟨ws, r, c, hg, hs, rfl⟩ | ⟨m, a, l, t, hm, ha, h⟩)
    · cases hs with
      | first hmem =>
        obtain rfl := gives_nil_iff.1 hg
        have hne : r.front.text ≠ "END" := fun e => hend (e ▸ hmem)
        exact bind_fails_iff.2 (.inl (expect_fails_iff.2 ⟨hne, rfl⟩))
      | last hne =>
        exact bind_fails_iff.2 (.inr ⟨_, r, s, (expect_eq_ok_iff hk).2 ⟨hg, rfl, rfl⟩,
          bind_fails_iff.2 (.inl (hx.iff.2 ⟨_, ⟨hne, rfl⟩, rfl⟩))⟩)
    · exact bind_fails_iff.2 (.inr ⟨_, m, s, (expect_eq_ok_iff hk).2 ⟨hm, rfl, rfl⟩,
        bind_fails_iff.2 (.inr ⟨a, l, t, ha, h⟩)⟩)

theorem conditionalOpening_fails_iff (hq : q.front.text = "IF") :
    Fails conditionalOpening ⟨q, s⟩ f ↔ q.StopsWith
      (RefusesOpening "IF" "THEN" Condition.spelling (fun _ => True) RefusesCondition) f :=
  takesWord_condition.opening_fails_iff refusesWord_condition (by decide) hq

theorem loopOpening_fails_iff (hq : q.front.text = "WHILE") :
    Fails loopOpening ⟨q, s⟩ f ↔ q.StopsWith
      (RefusesOpening "WHILE" "DO" Condition.spelling (fun _ => True) RefusesCondition) f :=
  takesWord_condition.opening_fails_iff refusesWord_condition (by decide) hq

/-! ### Constructs, given how the statements of a block are read -/

section

variable {n : Nat} {R : Reader Statement Unit} {t : Statement}

/-- The reader fails on a queue of at most `n` tokens exactly where a block refuses a word,
    whatever was read before. -/
def RefusesItems (n : Nat) (R : Reader Statement Unit) : Prop :=
  ∀ ⦃q : TokenQueue⦄, q.size ≤ n → ∀ (ss : List Statement) (f : Fault),
    Fails R ⟨q, .block ss⟩ f ↔ q.StopsWith (Refuses .block) f

/-- A block of its own fails as its statements do; what comes behind it may fail too. -/
theorem RefusesItems.newBlock_bind_fails_iff (hF : RefusesItems n R) (hR : ReadsItems n R)
    (hq : q.size ≤ n) {g : Statement → Reader τ α} :
    Fails (newBlock R >>= g) ⟨q, s⟩ f ↔
      q.StopsWith (Refuses .block) f ∨ ∃ ss m, q.GivesBlock ss m ∧ endsBlock m.front = true ∧
        Fails (g (.block ss)) ⟨m, s⟩ f := by
  have hput : Fails (blockOf R) ⟨q, .empty⟩ f ↔ q.StopsWith (Refuses .block) f := by
    rw [← hF hq [] f, Fails, blockOf, bind_eq]
    rfl
  have hblock : Fails (newBlock R) ⟨q, s⟩ f ↔ q.StopsWith (Refuses .block) f := by
    rw [newBlock, bind_fails_iff, fresh_fails_iff, hput]
    simp
  rw [bind_fails_iff, hblock]
  refine or_congr_right ?_
  constructor
  · rintro ⟨_, m, _, hb, h⟩
    obtain ⟨ss, hss, he, rfl, rfl⟩ := (hR.newBlock_eq_ok_iff hq).1 hb
    exact ⟨ss, m, hss, he, h⟩
  · rintro ⟨ss, m, hss, he, h⟩
    exact ⟨_, m, s, (hR.newBlock_eq_ok_iff hq).2 ⟨ss, hss, he, rfl, rfl⟩, h⟩

/-- The tokens that end a block, the keyword of a closing apart from the others. -/
theorem endsBlock_iff_end {e : Token} :
    endsBlock e = true ↔ e.text = "END" ∨ e.text ∈ [Token.endText, "ELSE"] := by
  rw [endsBlock_iff]
  simp
  tauto

/-- Nothing comes behind the words that close a conditional. -/
theorem ifClosers_fails_iff {enders : List String}
    (hq : q.front.text = "END" ∨ q.front.text ∈ enders) (hend : "END" ∉ enders) :
    Fails (do let _ ← expect "END"
              let _ ← expect "IF" : Reader τ Unit) ⟨q, s⟩ f ↔
      q.StopsWith (RefusesClosing enders "IF" (.missingKeyword "IF")) f := by
  rw [(refusesWord_expect "IF").closing_fails_iff hq hend]
  simp

/-- Behind the first branch of a conditional only a second one can fail. -/
theorem RefusesItems.alternativeOf_fails_iff (hF : RefusesItems n R) (hR : ReadsItems n R)
    (hq : q.size ≤ n) {c : Condition} {ss : List Statement} :
    Fails (alternativeOf R c (.block ss)) ⟨q, t⟩ f ↔
      ∃ l, q.Gives ["ELSE"] l ∧ l.StopsWith (Refuses .block) f := by
  rw [alternativeOf, peek_bind_fails_iff]
  by_cases h : q.front.text = "ELSE"
  · have hl : q.Gives ["ELSE"] q.rest := (gives_singleton_iff (by decide)).2 ⟨h, rfl⟩
    have hsize : q.rest.size ≤ n := by
      have := hl.size_lt
      omega
    rw [if_pos h, Fails, bind_eq, expect_eq, if_pos h]
    constructor
    · intro hf
      rcases (hF.newBlock_bind_fails_iff hR hsize).1 hf with hs | ⟨ts, m, -, -, hu⟩
      · exact ⟨q.rest, hl, hs⟩
      · -- Both branches are blocks, so that the conditional is put together.
        exact absurd hu (not_update_fails (Statement.assembleIfElse_some rfl rfl))
    · rintro ⟨l, hl', hs⟩
      obtain ⟨-, rfl⟩ := (gives_singleton_iff (by decide)).1 hl'
      exact (hF.newBlock_bind_fails_iff hR hsize).2 (.inl hs)
  · rw [if_neg h]
    constructor
    · intro hf
      exact absurd hf (not_update_fails (Statement.assembleIf_some rfl))
    · rintro ⟨l, hl, -⟩
      exact absurd hl.front_text h

/-- A conditional is put together when its branches are there, and then only the words that close it
    can be refused. -/
theorem ReadsItems.unclosed_iff (hR : ReadsItems n R) (hq : q.size ≤ n) (c : Condition)
    (ss : List Statement) {u : Statement} :
    (endsBlock q.front = true ∧ ∃ m, alternativeOf R c (.block ss) ⟨q, t⟩ = .ok () ⟨m, u⟩ ∧
      Fails (do let _ ← expect "END"
                let _ ← expect "IF" : Reader Statement Unit) ⟨m, u⟩ f) ↔
      (u = .ifThen c (.block ss) ∧
        q.StopsWith (RefusesClosing [Token.endText] "IF" (.missingKeyword "IF")) f) ∨
      ∃ ts l m, q.Gives ["ELSE"] l ∧ l.GivesBlock ts m ∧ u = .ifElse c (.block ss) (.block ts) ∧
        m.StopsWith (RefusesClosing [Token.endText, "ELSE"] "IF" (.missingKeyword "IF")) f := by
  have hend : "END" ∉ [Token.endText] := by decide
  have hend' : "END" ∉ [Token.endText, "ELSE"] := by decide
  simp only [hR.alternativeOf_eq_ok_iff hq]
  constructor
  · rintro ⟨he, m, ha, hc⟩
    split at ha
    · obtain ⟨ts, l, hl, hts, he', rfl⟩ := ha
      exact .inr ⟨ts, l, m, hl, hts, rfl,
        (ifClosers_fails_iff (endsBlock_iff_end.1 he') hend').1 hc⟩
    · rename_i helse
      obtain ⟨rfl, rfl⟩ := ha
      have hfront : m.front.text = "END" ∨ m.front.text ∈ [Token.endText] := by
        simpa [helse] using endsBlock_iff_end.1 he
      exact .inl ⟨rfl, (ifClosers_fails_iff hfront hend).1 hc⟩
  · rintro (⟨rfl, hs⟩ | ⟨ts, l, m, hl, hts, rfl, hs⟩)
    · have hfront := hs.front_of_closing
      have helse : q.front.text ≠ "ELSE" := by
        intro h
        simp [h, Token.endText] at hfront
      refine ⟨endsBlock_iff_end.2 (hfront.imp_right fun h => ?_), q, ?_,
        (ifClosers_fails_iff hfront hend).2 hs⟩
      · exact List.mem_cons.2 (.inl (List.mem_singleton.1 h))
      · rw [if_neg helse]
        exact ⟨rfl, rfl⟩
    · have hfront := hs.front_of_closing
      refine ⟨hl.endsBlock_of_else, m, ?_, (ifClosers_fails_iff hfront hend').2 hs⟩
      rw [if_pos hl.front_text]
      exact ⟨ts, l, hl, hts, endsBlock_iff_end.2 hfront, rfl⟩

/-- Behind the first branch of a conditional its closing can fail, or the second branch, or the
    closing behind that one. -/
theorem RefusesItems.afterBranch_fails_iff (hF : RefusesItems n R) (hR : ReadsItems n R)
    (hq : q.size ≤ n) {c : Condition} {ss : List Statement} :
    (endsBlock q.front = true ∧
      Fails (do alternativeOf R c (.block ss)
                let _ ← expect "END"
                let _ ← expect "IF") ⟨q, t⟩ f) ↔
      q.StopsWith (RefusesClosing [Token.endText] "IF" (.missingKeyword "IF")) f ∨
        ∃ l, q.Gives ["ELSE"] l ∧ (l.StopsWith (Refuses .block) f ∨
          ∃ ts l', l.GivesBlock ts l' ∧ l'.StopsWith
            (RefusesClosing [Token.endText, "ELSE"] "IF" (.missingKeyword "IF")) f) := by
  constructor
  · rintro ⟨he, h⟩
    rcases bind_fails_iff.1 h with ha | ⟨_, m, _, ha, hc⟩
    · obtain ⟨l, hl, hs⟩ := (hF.alternativeOf_fails_iff hR hq).1 ha
      exact .inr ⟨l, hl, .inl hs⟩
    · rcases (hR.unclosed_iff hq c ss).1 ⟨he, m, ha, hc⟩ with ⟨-, hs⟩ | ⟨ts, l, l', hl, hts, -, hs⟩
      · exact .inl hs
      · exact .inr ⟨l, hl, .inr ⟨ts, l', hts, hs⟩⟩
  · rintro (hs | ⟨l, hl, hs | ⟨ts, l', hts, hs⟩⟩)
    · obtain ⟨he, m, ha, hc⟩ := (hR.unclosed_iff (t := t) hq c ss).2 (.inl ⟨rfl, hs⟩)
      exact ⟨he, bind_fails_iff.2 (.inr ⟨(), m, _, ha, hc⟩)⟩
    · exact ⟨hl.endsBlock_of_else,
        bind_fails_iff.2 (.inl ((hF.alternativeOf_fails_iff hR hq).2 ⟨l, hl, hs⟩))⟩
    · obtain ⟨he, m, ha, hc⟩ := (hR.unclosed_iff (t := t) hq c ss).2
        (.inr ⟨ts, l, l', hl, hts, rfl, hs⟩)
      exact ⟨he, bind_fails_iff.2 (.inr ⟨(), m, _, ha, hc⟩)⟩

/-- **Conditionals.** They fail exactly where the grammar refuses a word. -/
theorem RefusesItems.conditionalOf_fails_iff (hF : RefusesItems n R) (hR : ReadsItems n R)
    (hq : q.size ≤ n + 1) (hif : q.front.text = "IF") :
    Fails (conditionalOf R) ⟨q, t⟩ f ↔ q.StopsWith (Refuses .conditional) f := by
  rw [conditionalOf, bind_fails_iff, conditionalOpening_fails_iff hif, stopsWith_conditional_iff]
  refine or_congr_right ?_
  simp only [conditionalOpening_eq_ok_iff]
  constructor
  · rintro ⟨c, m, _, ⟨hc, rfl⟩, h⟩
    have hm := hc.size_lt
    rcases (hF.newBlock_bind_fails_iff hR (by omega)).1 h with hs | ⟨ss, m', hss, he, h'⟩
    · exact ⟨c, m, hc, .inl hs⟩
    · have hm' := hss.size_le
      exact ⟨c, m, hc, .inr ⟨ss, m', hss, (hF.afterBranch_fails_iff hR (by omega)).1 ⟨he, h'⟩⟩⟩
  · rintro ⟨c, m, hc, h⟩
    have hm := hc.size_lt
    refine ⟨c, m, t, ⟨hc, rfl⟩, (hF.newBlock_bind_fails_iff hR (by omega)).2 ?_⟩
    rcases h with hs | ⟨ss, m', hss, h'⟩
    · exact .inl hs
    · have hm' := hss.size_le
      exact .inr ⟨ss, m', hss, (hF.afterBranch_fails_iff hR (by omega)).2 h'⟩

/-- **Loops.** They fail exactly where the grammar refuses a word. -/
theorem RefusesItems.loopOf_fails_iff (hF : RefusesItems n R) (hR : ReadsItems n R)
    (hq : q.size ≤ n + 1) (hwhile : q.front.text = "WHILE") :
    Fails (loopOf R) ⟨q, t⟩ f ↔ q.StopsWith (Refuses .loop) f := by
  have hend : "END" ∉ [Token.endText, "ELSE"] := by decide
  rw [loopOf, bind_fails_iff, loopOpening_fails_iff hwhile, stopsWith_loop_iff]
  refine or_congr_right ?_
  simp only [loopOpening_eq_ok_iff]
  constructor
  · rintro ⟨c, m, _, ⟨hc, rfl⟩, h⟩
    have hm := hc.size_lt
    rcases (hF.newBlock_bind_fails_iff hR (by omega)).1 h with hs | ⟨ss, m', hss, he, h'⟩
    · exact ⟨c, m, hc, .inl hs⟩
    rcases ((refusesWord_expect "WHILE").closing_fails_iff (endsBlock_iff_end.1 he) hend).1 h'
      with hs | ⟨_, _, _, _, -, -, hu⟩
    · exact ⟨c, m, hc, .inr ⟨ss, m', hss, hs⟩⟩
    · -- The body is a block, so that the loop is put together.
      exact absurd hu (not_update_fails (Statement.assembleWhile_some rfl))
  · rintro ⟨c, m, hc, h⟩
    have hm := hc.size_lt
    refine ⟨c, m, t, ⟨hc, rfl⟩, (hF.newBlock_bind_fails_iff hR (by omega)).2 ?_⟩
    rcases h with hs | ⟨ss, m', hss, hs⟩
    · exact .inl hs
    · have hfront := hs.front_of_closing
      exact .inr ⟨ss, m', hss, endsBlock_iff_end.2 hfront,
        ((refusesWord_expect "WHILE").closing_fails_iff hfront hend).2 (.inl hs)⟩

/-- **Statements.** They fail exactly where the grammar refuses a word; calls never do. -/
theorem RefusesItems.statementOf_fails_iff (hF : RefusesItems n R) (hR : ReadsItems n R)
    (hq : q.size ≤ n + 1) :
    Fails (statementOf R) ⟨q, t⟩ f ↔ q.StopsWith (Refuses .statement) f := by
  rw [statementOf, peek_bind_fails_iff]
  by_cases hif : q.front.text = "IF"
  · rw [if_pos hif, hF.conditionalOf_fails_iff hR hq hif]
    constructor
    · rintro ⟨ws, r, k, hg, hs, rfl⟩
      exact ⟨ws, r, k, hg, .ofConditional hs, rfl⟩
    · rintro ⟨ws, r, k, hg, hs, rfl⟩
      cases hs with
      | start h =>
        obtain rfl := gives_nil_iff.1 hg
        exact absurd hif h
      | ofConditional h => exact ⟨ws, r, k, hg, h, rfl⟩
      | ofLoop h =>
        obtain ⟨vs, rfl⟩ := h.exists_cons_while
        exact absurd (hg.front_text.symm.trans hif) (by decide)
  rw [if_neg hif]
  by_cases hwhile : q.front.text = "WHILE"
  · rw [if_pos hwhile, hF.loopOf_fails_iff hR hq hwhile]
    constructor
    · rintro ⟨ws, r, k, hg, hs, rfl⟩
      exact ⟨ws, r, k, hg, .ofLoop hs, rfl⟩
    · rintro ⟨ws, r, k, hg, hs, rfl⟩
      cases hs with
      | start _ h =>
        obtain rfl := gives_nil_iff.1 hg
        exact absurd hwhile h
      | ofConditional h =>
        obtain ⟨vs, rfl⟩ := h.exists_cons_if
        exact absurd hg.front_text hif
      | ofLoop h => exact ⟨ws, r, k, hg, h, rfl⟩
  rw [if_neg hwhile]
  -- Neither keyword is there, so that the only refusal is that of the first word.
  have hstart : q.StopsWith (Refuses .statement) f ↔
      Word.isIdentifier q.front.text = false ∧ f = .rejected ⟨.noIdentifier, q.front⟩ := by
    constructor
    · rintro ⟨ws, r, k, hg, hs, rfl⟩
      cases hs with
      | start _ _ h =>
        obtain rfl := gives_nil_iff.1 hg
        exact ⟨h, rfl⟩
      | ofConditional h =>
        obtain ⟨vs, rfl⟩ := h.exists_cons_if
        exact absurd hg.front_text hif
      | ofLoop h =>
        obtain ⟨vs, rfl⟩ := h.exists_cons_while
        exact absurd hg.front_text hwhile
    · rintro ⟨h, rfl⟩
      exact ⟨[], q, _, gives_nil_iff.2 rfl, .start hif hwhile h, rfl⟩
  rw [hstart]
  by_cases hname : Word.isIdentifier q.front.text = true
  · have hcall : call ⟨q, t⟩ = .ok () ⟨q.rest, .call q.front.text⟩ := by
      have hg := (gives_singleton_iff (ne_endText_of_isIdentifier hname)).2 ⟨rfl, rfl⟩
      exact call_eq_ok_iff.2 ⟨givesStatement_call_iff.2 ⟨hname, hg⟩, rfl⟩
    rw [if_pos hname]
    constructor
    · intro h
      exact absurd h (not_fails_of_eq_ok hcall)
    · rintro ⟨h, -⟩
      rw [hname] at h
      cases h
  · rw [if_neg hname, reject, throw_fails_iff]
    simp [hname]

/-! ### The statements of a block -/

/-- One step of reading the statements of a block fails at the next statement, or behind it. -/
theorem RefusesItems.items_succ_fails_iff (hF : RefusesItems n (items n))
    (hR : ReadsItems n (items n)) (hq : q.size ≤ n + 1) {ss : List Statement} :
    Fails (items (n + 1)) ⟨q, .block ss⟩ f ↔
      (endsBlock q.front = false ∧ q.StopsWith (Refuses .statement) f) ∨
        ∃ child m, q.GivesStatement child m ∧
          Fails (items n) ⟨m, .block (ss ++ [child])⟩ f := by
  rw [items, peek_bind_fails_iff]
  by_cases he : endsBlock q.front = true
  · -- Where a block ends no step fails, and no statement begins there either.
    rw [if_pos he]
    simp only [not_pure_fails, he, Bool.true_eq_false, false_and, false_or, false_iff]
    rintro ⟨child, m, hchild, -⟩
    exact absurd he (by simp [hchild.endsBlock_eq_false])
  · rw [if_neg he, bind_fails_iff, fresh_fails_iff, hF.statementOf_fails_iff hR hq]
    simp only [he, true_and]
    refine or_congr_right ?_
    constructor
    · rintro ⟨⟨_, child⟩, m, _, hf, h⟩
      obtain ⟨hs, rfl⟩ := fresh_eq_ok_iff.1 hf
      have hchild := (hR.statementOf_eq_ok_iff hq).1 hs
      have happend : append child ⟨m, .block ss⟩ = .ok () ⟨m, .block (ss ++ [child])⟩ :=
        (append_eq_ok_iff hchild.kind_ne_block).2 ⟨rfl, rfl⟩
      rw [Fails, bind_eq, happend] at h
      exact ⟨child, m, hchild, h⟩
    · rintro ⟨child, m, hchild, h⟩
      have hs : statementOf (items n) ⟨q, .empty⟩ = .ok () ⟨m, child⟩ :=
        (hR.statementOf_eq_ok_iff hq).2 hchild
      have happend : append child ⟨m, .block ss⟩ = .ok () ⟨m, .block (ss ++ [child])⟩ :=
        (append_eq_ok_iff hchild.kind_ne_block).2 ⟨rfl, rfl⟩
      exact ⟨((), child), m, .block ss, fresh_eq_ok_iff.2 ⟨hs, rfl⟩,
        bind_fails_iff.2 (.inr ⟨(), m, _, happend, h⟩)⟩

/-- **The statements of a block** fail exactly where the grammar refuses a word; as many steps as
    the queue has tokens are enough. -/
theorem refusesItems_items (n : Nat) : RefusesItems n (items n) := by
  -- The reader for shorter queues fails in the blocks inside a statement as it does behind it.
  induction n with
  | zero =>
    intro q hq
    exact absurd hq (by simp [TokenQueue.size])
  | succ n ih =>
    intro q hq ss f
    rw [ih.items_succ_fails_iff (readsItems_items n) hq, stopsWith_block_iff]
    refine or_congr (and_congr_left fun _ => ?_) (exists₂_congr fun child m => ?_)
    · rw [← endsBlock_iff, Bool.not_eq_true]
    · refine and_congr_right fun hchild => ih ?_ _ f
      have hm := hchild.size_lt
      omega

theorem refusesItems_allItems (n : Nat) : RefusesItems n allItems :=
  fun q _ ss f => refusesItems_items q.size (Nat.le_refl q.size) ss f

end

/-! ### Statements and blocks -/

/-- **Reading a statement** fails exactly where the grammar refuses a word, whatever the target
    was. -/
theorem statement_fails_iff {t : Statement} :
    Fails statement ⟨q, t⟩ f ↔ q.StopsWith (Refuses .statement) f :=
  (refusesItems_allItems q.size).statementOf_fails_iff (readsItems_allItems q.size) (Nat.le_succ _)

/-- **Reading a block** fails exactly where the grammar refuses a word. -/
theorem block_fails_iff {t : Statement} :
    Fails block ⟨q, t⟩ f ↔ q.StopsWith (Refuses .block) f := by
  rw [block, blockOf, Fails, bind_eq]
  exact refusesItems_allItems q.size (Nat.le_refl _) [] f

/-- The result of a reader is a fault if the reader fails with it. -/
theorem result_eq_error_iff {x : Reader τ α} {y : τ} :
    x.result q y = .error f ↔ Fails x ⟨q, y⟩ f := by
  unfold result Fails
  cases x ⟨q, y⟩ with
  | ok a st => simp
  | error e st => simp

/-- **Reading statements in a row** fails exactly where the grammar refuses a word, inside or behind
    them. -/
theorem wholeBlock_fails_iff {t : Statement} :
    Fails wholeBlock ⟨q, t⟩ f ↔ q.StopsWith RefusesStatements f := by
  rw [wholeBlock, bind_fails_iff, block_fails_iff]
  simp only [block_eq_ok_iff, ending, peek_bind_fails_iff, reject, check_fails_iff]
  constructor
  · rintro (⟨ws, r, k, hg, h, rfl⟩ | ⟨_, m, _, ⟨ss, ⟨ws, hws, hss⟩, he, rfl⟩, hend, rfl⟩)
    · exact ⟨ws, r, k, hg, .inside h, rfl⟩
    · -- A block stops at a word that ends one, and this is not the end of the input.
      refine ⟨ws, m, _, hws, .trailing hss ?_, rfl⟩
      rw [Token.isEnd, beq_iff_eq] at hend
      simpa [hend] using endsBlock_iff.1 he
  · rintro ⟨ws, r, k, hg, h, rfl⟩
    cases h with
    | inside h => exact .inl ⟨ws, r, k, hg, h, rfl⟩
    | @trailing ss hss hw =>
      have hend : r.front.isEnd = false := by
        rw [Token.isEnd, beq_eq_false_iff_ne]
        intro h
        rw [h] at hw
        exact absurd hw (by decide)
      exact .inr ⟨(), r, _, ⟨ss, ⟨ws, hg, hss⟩, endsBlock_iff.2 (.tail _ hw), rfl⟩, by simp [hend],
        rfl⟩

end Reader

/-- **Sources that hold no statements** are refused at some token. -/
theorem Statement.ofSource_eq_error_iff {source : String} {f : Fault} :
    Statement.ofSource source = .error f ↔
      (TokenQueue.ofSource source).StopsWith RefusesStatements f := by
  rw [Statement.ofSource, Reader.result_eq_error_iff, Reader.wholeBlock_fails_iff]

end BL
