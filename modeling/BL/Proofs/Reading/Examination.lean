import BL.Proofs.Reading.Termination

namespace BL

open TokenQueue

/-!
# Which tokens a reader examines

A reader sees the first token of its queue when it looks at it or takes it, and it sees no other
one.  What comes behind the last token that it has seen can have no part in what it does.

* `TokenQueue.skip`, `TokenQueue.EndsOnce` — what is left when tokens are taken, and queues that end
  at their last token and nowhere before;
* `Reader.Examines` — how many tokens a reader sees, counted along its steps;
* `Reader.Examines.inStep` — on queues with the same tokens up to there it does the same; it sees
  all tokens that it takes, and one more at most;
* `Reader.ExaminedUpTo` — readers that see a number of tokens, on short queues;
* `Reader.examinedUpTo_allItems`, `Reader.examinedUpTo_definitionsFrom` — the loops, by induction on
  the number of tokens;
* `Reader.exists_examines_statement`, `Reader.exists_examines_program`, … — the constructs.
-/

namespace TokenQueue

variable {q r : TokenQueue} {j k n : Nat}

/-! ### Taking tokens -/

/-- The queue without so many tokens from its front; the last token stays. -/
def skip (k : Nat) (q : TokenQueue) : TokenQueue := { q with ahead := q.ahead.drop k }

@[simp] theorem skip_skip (q : TokenQueue) : (q.skip j).skip k = q.skip (j + k) := by
  simp [skip]

theorem rest_eq_skip (q : TokenQueue) : q.rest = q.skip 1 := by
  simp [rest, skip]

theorem size_skip (q : TokenQueue) (h : k < q.size) : (q.skip k).size + k = q.size := by
  simp only [size, skip, List.length_drop] at h ⊢
  omega

/-- Where a token is left, the other ones are dropped. -/
theorem toList_skip (h : k < q.size) : (q.skip k).toList = q.toList.drop k := by
  simp only [size] at h
  rw [toList, toList, List.drop_append_of_le_length (by omega)]
  rfl

/-- The text that ends the input is that of the last token alone. -/
def EndsOnce (q : TokenQueue) : Prop := ∀ t ∈ q.ahead, t.text ≠ Token.endText

theorem EndsOnce.skip (h : q.EndsOnce) (k : Nat) : (q.skip k).EndsOnce :=
  fun t ht => h t (List.mem_of_mem_drop ht)

/-- Such a queue is at its end exactly where its first token ends the input. -/
theorem EndsOnce.front_text_iff (h : q.EndsOnce) :
    q.front.text = Token.endText ↔ q.ahead = [] := by
  cases hq : q.ahead with
  | nil => simp [front, hq, q.last_text]
  | cons t ts =>
    have ht := h t (by simp [hq])
    simp [front, hq, ht]

theorem toList_eq_cons (q : TokenQueue) : ∃ ts, q.toList = q.front :: ts := by
  cases h : q.ahead <;> simp [toList, front, h]

/-- Queues that begin with the same tokens have the same first token. -/
theorem front_eq_of_take_eq (h : q.toList.take n = r.toList.take n) (hn : 0 < n) :
    q.front = r.front := by
  obtain ⟨n, rfl⟩ := Nat.exists_eq_succ_of_ne_zero (Nat.ne_of_gt hn)
  obtain ⟨ts, hq⟩ := q.toList_eq_cons
  obtain ⟨us, hr⟩ := r.toList_eq_cons
  rw [hq, hr, List.take_succ_cons, List.take_succ_cons] at h
  exact (List.cons.inj h).1

theorem take_eq_of_le {α : Type} {ts us : List α} (h : ts.take n = us.take n) (hk : k ≤ n) :
    ts.take k = us.take k := by
  have htake := congrArg (List.take k) h
  rwa [List.take_take, List.take_take, Nat.min_eq_left hk] at htake

/-- What is left of queues that begin with the same tokens begins with the same tokens. -/
theorem take_skip_eq (h : q.toList.take (k + n) = r.toList.take (k + n)) (hq : k < q.size)
    (hr : k < r.size) : (q.skip k).toList.take n = (r.skip k).toList.take n := by
  rw [toList_skip hq, toList_skip hr, List.take_drop, List.take_drop, h]

end TokenQueue

namespace Reader

variable {τ σ α β : Type}

/-! ### What a reader sees -/

/-- The reader examines so many tokens at the front of the queue: those that it looks at or takes,
    step by step, and those that were taken in between. -/
inductive Examines : {τ α : Type} → Reader τ α → ReaderState τ → Nat → Prop where
  | pure {τ α : Type} (a : α) (st : ReaderState τ) : Examines (pure a) st 0
  | throw {τ α : Type} (f : Fault) (st : ReaderState τ) : Examines (throw f : Reader τ α) st 0
  | peek {τ : Type} (st : ReaderState τ) : Examines peek st 1
  | next {τ : Type} (st : ReaderState τ) : Examines next st 1
  | put {τ : Type} (t : τ) (st : ReaderState τ) : Examines (put t) st 0
  | update {τ : Type} (g : τ → Except Violation τ) (st : ReaderState τ) : Examines (update g) st 0
  | fresh {τ σ α : Type} {start : σ} {x : Reader σ α} {st : ReaderState τ} {n : Nat}
      (h : Examines x ⟨st.queue, start⟩ n) : Examines (fresh start x) st n
  -- The second reader counts from where the first one has stopped.
  | bind {τ α β : Type} {x : Reader τ α} {g : α → Reader τ β} {st st' : ReaderState τ} {a : α}
      {n m : Nat} (h : Examines x st n) (hx : x st = .ok a st') (hg : Examines (g a) st' m) :
    Examines (x >>= g) st (max n (st.queue.size - st'.queue.size + m))
  | bindError {τ α β : Type} {x : Reader τ α} {g : α → Reader τ β} {st st' : ReaderState τ}
      {f : Fault} {n : Nat} (h : Examines x st n) (hx : x st = .error f st') :
    Examines (x >>= g) st n

/-! ### Runs in step -/

/-- Both runs take so many tokens and have the same result or the same fault, and they leave the
    same target. -/
def InStep (x : Reader τ α) (t : τ) (q r : TokenQueue) (k : Nat) : Prop :=
  (∃ a t', x ⟨q, t⟩ = .ok a ⟨q.skip k, t'⟩ ∧ x ⟨r, t⟩ = .ok a ⟨r.skip k, t'⟩) ∨
    ∃ f t', x ⟨q, t⟩ = .error f ⟨q.skip k, t'⟩ ∧ x ⟨r, t⟩ = .error f ⟨r.skip k, t'⟩

/-- Taking a token is the same on both queues: neither is at its end, or both are. -/
theorem exists_rest_eq_skip {q r : TokenQueue} (hq : q.EndsOnce) (hr : r.EndsOnce)
    (h : q.front = r.front) :
    ∃ k, k < q.size ∧ k < r.size ∧ k ≤ 1 ∧ q.rest = q.skip k ∧ r.rest = r.skip k := by
  by_cases hend : q.front.text = Token.endText
  · have hqa := hq.front_text_iff.1 hend
    have hra := hr.front_text_iff.1 (h ▸ hend)
    exact ⟨0, by simp [TokenQueue.size], by simp [TokenQueue.size], by omega,
      by simp [TokenQueue.rest, skip, hqa], by simp [TokenQueue.rest, skip, hra]⟩
  · have hqa : q.ahead ≠ [] := fun e => hend (hq.front_text_iff.2 e)
    have hra : r.ahead ≠ [] := fun e => hend (h ▸ hr.front_text_iff.2 e)
    have hqlen := List.length_pos_iff.2 hqa
    have hrlen := List.length_pos_iff.2 hra
    exact ⟨1, by simp only [TokenQueue.size]; omega, by simp only [TokenQueue.size]; omega,
      Nat.le_refl 1, q.rest_eq_skip, r.rest_eq_skip⟩

/-- **What a reader sees is all that matters.** On a queue that begins with the tokens that are
    examined it does the same.  It examines what it takes, and at most one token more. -/
theorem Examines.inStep {x : Reader τ α} {st : ReaderState τ} {n : Nat} (h : Examines x st n)
    (hq : st.queue.EndsOnce) {r : TokenQueue} (hr : r.EndsOnce)
    (hsame : st.queue.toList.take n = r.toList.take n) :
    ∃ k, k < st.queue.size ∧ k < r.size ∧ k ≤ n ∧ n ≤ k + 1 ∧ n ≤ st.queue.size ∧
      InStep x st.target st.queue r k := by
  have hpos : ∀ q : TokenQueue, 0 < q.size := fun q => Nat.succ_pos _
  induction h generalizing r with
  | pure a st =>
    exact ⟨0, hpos _, hpos _, by omega, by omega, by omega, .inl ⟨a, st.target, rfl, rfl⟩⟩
  | throw f st =>
    exact ⟨0, hpos _, hpos _, by omega, by omega, by omega, .inr ⟨f, st.target, rfl, rfl⟩⟩
  | peek st =>
    have hfront := front_eq_of_take_eq hsame Nat.one_pos
    refine ⟨0, hpos _, hpos _, by omega, by omega, hpos _, .inl ⟨_, st.target, rfl, ?_⟩⟩
    rw [hfront]
    rfl
  | next st =>
    have hfront := front_eq_of_take_eq hsame Nat.one_pos
    obtain ⟨k, hkq, hkr, hk, hrest, hrest'⟩ := exists_rest_eq_skip hq hr hfront
    refine ⟨k, hkq, hkr, hk, by omega, hpos _, .inl ⟨st.queue.front, st.target, ?_, ?_⟩⟩
    · rw [next_eq, hrest]
    · rw [next_eq, hfront, hrest']
  | put t st =>
    exact ⟨0, hpos _, hpos _, by omega, by omega, by omega, .inl ⟨(), t, rfl, rfl⟩⟩
  | update g st =>
    refine ⟨0, hpos _, hpos _, by omega, by omega, by omega, ?_⟩
    unfold InStep Reader.update
    cases g st.target with
    | ok t => exact .inl ⟨(), t, rfl, rfl⟩
    | error v => exact .inr ⟨_, st.target, rfl, rfl⟩
  | fresh h ih =>
    obtain ⟨k, hkq, hkr, hkn, hnk, hn, hstep⟩ := ih hq hr hsame
    refine ⟨k, hkq, hkr, hkn, hnk, hn, ?_⟩
    unfold InStep Reader.fresh
    rcases hstep with ⟨a, t, hx, hx'⟩ | ⟨f, t, hx, hx'⟩
    · exact .inl ⟨(a, t), _, by rw [hx], by rw [hx']⟩
    · exact .inr ⟨f, _, by rw [hx], by rw [hx']⟩
  | @bind _ _ _ x g st st' a n m h hx hg ih ih' =>
    obtain ⟨k, hkq, hkr, hkn, hnk, hn, hstep⟩ :=
      ih hq hr (take_eq_of_le hsame (Nat.le_max_left _ _))
    -- The first reader succeeds on both queues, and the second one starts behind it.
    rcases hstep with ⟨b, t, hb, hb'⟩ | ⟨f, t, hf, -⟩
    · cases hx.symm.trans hb
      dsimp only at hsame ih' ⊢
      have hsize := st.queue.size_skip hkq
      have hmax : k + m ≤ max n (st.queue.size - (st.queue.skip k).size + m) := by omega
      obtain ⟨j, hjq, hjr, hjm, hmj, hm, hstep⟩ := ih' (hq.skip k) (hr.skip k)
        (take_skip_eq (take_eq_of_le hsame hmax) hkq hkr)
      have hsize' := r.size_skip hkr
      refine ⟨k + j, by omega, by omega, by omega, by omega, by omega, ?_⟩
      unfold InStep at hstep ⊢
      rw [skip_skip, skip_skip] at hstep
      rw [bind_eq, bind_eq, hb, hb']
      exact hstep
    · cases hx.symm.trans hf
  | bindError h hx ih =>
    obtain ⟨k, hkq, hkr, hkn, hnk, hn, hstep⟩ := ih hq hr hsame
    refine ⟨k, hkq, hkr, hkn, hnk, hn, ?_⟩
    rcases hstep with ⟨b, t, hb, -⟩ | ⟨f, t, hf, hf'⟩
    · cases hx.symm.trans hb
    · exact .inr ⟨f, t, by rw [bind_eq, hf], by rw [bind_eq, hf']⟩

/-! ### Readers that go by what they see -/

/-- On queues of at most so many tokens the reader goes step by step, and a number of tokens is
    examined. -/
def ExaminedUpTo (m : Nat) (x : Reader τ α) : Prop :=
  ∀ st, st.queue.size ≤ m → ∃ n, Examines x st n

section

variable {m : Nat}

theorem examinedUpTo_pure (a : α) : ExaminedUpTo m (pure a : Reader τ α) :=
  fun st _ => ⟨0, .pure a st⟩

theorem examinedUpTo_throw (f : Fault) : ExaminedUpTo m (throw f : Reader τ α) :=
  fun st _ => ⟨0, .throw f st⟩

theorem examinedUpTo_reject (k : Cause) (e : Token) : ExaminedUpTo m (reject k e : Reader τ α) :=
  examinedUpTo_throw _

theorem examinedUpTo_peek : ExaminedUpTo m (peek : Reader τ Token) := fun st _ => ⟨1, .peek st⟩

theorem examinedUpTo_next : ExaminedUpTo m (next : Reader τ Token) := fun st _ => ⟨1, .next st⟩

theorem examinedUpTo_put (t : τ) : ExaminedUpTo m (put t) := fun st _ => ⟨0, .put t st⟩

theorem examinedUpTo_update (g : τ → Except Violation τ) : ExaminedUpTo m (update g) :=
  fun st _ => ⟨0, .update g st⟩

theorem ExaminedUpTo.fresh {start : σ} {x : Reader σ α} (hx : ExaminedUpTo m x) :
    ExaminedUpTo m (fresh start x : Reader τ (α × σ)) := by
  intro st hst
  obtain ⟨n, hn⟩ := hx ⟨st.queue, start⟩ hst
  exact ⟨n, .fresh hn⟩

/-- One after the other: the second reader starts with what the first one has left. -/
theorem exists_examines_bind {x : Reader τ α} {g : α → Reader τ β} {st : ReaderState τ}
    (hx : ∃ n, Examines x st n) (hg : ∀ a st', x st = .ok a st' → ∃ n, Examines (g a) st' n) :
    ∃ n, Examines (x >>= g) st n := by
  obtain ⟨n, hn⟩ := hx
  cases hres : x st with
  | ok a st' =>
    obtain ⟨k, hk⟩ := hg a st' hres
    exact ⟨_, .bind hn hres hk⟩
  | error f st' => exact ⟨n, .bindError hn hres⟩

theorem ExaminedUpTo.bind {x : Reader τ α} {g : α → Reader τ β} (h : ExaminedUpTo m x)
    (hx : Consumes x) (hg : ∀ a, ExaminedUpTo m (g a)) : ExaminedUpTo m (x >>= g) := by
  intro st hst
  refine exists_examines_bind (h st hst) fun a st' hres => ?_
  exact hg a st' (Nat.le_trans (hx.size_le hres) hst)

/-- Behind a reader that shortens the queue, shorter queues are enough. -/
theorem ExaminedUpTo.bind_of_shortens {x : Reader τ α} {g : α → Reader τ β}
    (h : ExaminedUpTo (m + 1) x) (hx : Shortens x) (hg : ∀ a, ExaminedUpTo m (g a)) :
    ExaminedUpTo (m + 1) (x >>= g) := by
  intro st hst
  refine exists_examines_bind (h st hst) fun a st' hres => ?_
  have hlt := hx.size_lt hres
  exact hg a st' (by omega)

theorem ExaminedUpTo.ite {c : Prop} [Decidable c] {x y : Reader τ α} (hx : ExaminedUpTo m x)
    (hy : ExaminedUpTo m y) : ExaminedUpTo m (if c then x else y) := by
  split
  · exact hx
  · exact hy

/-! ### Tokens and openings -/

/-- A token that is taken and checked. -/
theorem examinedUpTo_next_bind {g : Token → Reader τ α} (hg : ∀ t, ExaminedUpTo m (g t)) :
    ExaminedUpTo m (next >>= g) :=
  examinedUpTo_next.bind consumes_next hg

theorem examinedUpTo_peek_bind {g : Token → Reader τ α} (hg : ∀ t, ExaminedUpTo m (g t)) :
    ExaminedUpTo m (peek >>= g) :=
  examinedUpTo_peek.bind consumes_peek hg

theorem examinedUpTo_expect (k : String) : ExaminedUpTo m (expect k : Reader τ Token) :=
  examinedUpTo_next_bind fun _ => .ite (examinedUpTo_pure _) (examinedUpTo_reject _ _)

theorem examinedUpTo_identifier : ExaminedUpTo m (identifier : Reader τ Token) :=
  examinedUpTo_next_bind fun _ => .ite (examinedUpTo_pure _) (examinedUpTo_reject _ _)

theorem examinedUpTo_condition : ExaminedUpTo m (condition : Reader τ Condition) := by
  refine examinedUpTo_next_bind fun t => .ite ?_ (examinedUpTo_reject _ _)
  cases Condition.named t.text with
  | ok c => exact examinedUpTo_pure c
  | error f => exact examinedUpTo_throw f

theorem examinedUpTo_opening (k : String) : ExaminedUpTo m (opening k : Reader τ Unit) :=
  examinedUpTo_peek_bind fun _ => .ite (examinedUpTo_pure _) (examinedUpTo_throw _)

theorem examinedUpTo_ending : ExaminedUpTo m (ending : Reader τ Unit) :=
  examinedUpTo_peek_bind fun _ => .ite (examinedUpTo_pure _) (examinedUpTo_reject _ _)

theorem examinedUpTo_closing (name : String) : ExaminedUpTo m (closing name : Reader τ Unit) :=
  examinedUpTo_next_bind fun _ => .ite (examinedUpTo_pure _) (examinedUpTo_reject _ _)

theorem examinedUpTo_definedName : ExaminedUpTo m (definedName : Reader τ String) :=
  examinedUpTo_next_bind fun _ => .ite (examinedUpTo_reject _ _) (.ite (examinedUpTo_reject _ _)
    (.ite (examinedUpTo_reject _ _) (.ite (examinedUpTo_reject _ _) (examinedUpTo_pure _))))

/-- **Openings**: a keyword that is looked at and taken, a word, and another keyword. -/
theorem ExaminedUpTo.opening {x : Reader τ α} (h : ExaminedUpTo m x) (hx : Consumes x)
    (k k' : String) :
    ExaminedUpTo m (do opening k
                       let _ ← expect k
                       let a ← x
                       let _ ← expect k'
                       return a : Reader τ α) :=
  (examinedUpTo_opening k).bind (consumes_opening k) fun _ =>
    (examinedUpTo_expect k).bind (consumes_expect k) fun _ => h.bind hx fun _ =>
      (examinedUpTo_expect k').bind (consumes_expect k') fun _ => examinedUpTo_pure _

theorem examinedUpTo_conditionalOpening :
    ExaminedUpTo m (conditionalOpening : Reader τ Condition) :=
  examinedUpTo_condition.opening consumes_condition "IF" "THEN"

theorem examinedUpTo_loopOpening : ExaminedUpTo m (loopOpening : Reader τ Condition) :=
  examinedUpTo_condition.opening consumes_condition "WHILE" "DO"

theorem examinedUpTo_instructionOpening :
    ExaminedUpTo m (instructionOpening : Reader τ String) :=
  examinedUpTo_definedName.opening consumes_definedName "INSTRUCTION" "IS"

theorem examinedUpTo_programOpening : ExaminedUpTo m (programOpening : Reader τ String) :=
  (examinedUpTo_expect _).bind (consumes_expect _) fun _ =>
    examinedUpTo_identifier.bind shortens_identifier.consumes fun _ =>
      (examinedUpTo_expect _).bind (consumes_expect _) fun _ => examinedUpTo_pure _

/-! ### Constructs, given how the statements of a block are read -/

variable {R : Reader Statement Unit} {c : Condition} {body : Statement}

theorem ExaminedUpTo.newBlock (h : ExaminedUpTo m R) (hR : Consumes R) :
    ExaminedUpTo m (newBlock R : Reader τ Statement) := by
  have hblock : ExaminedUpTo m (blockOf R) := (examinedUpTo_put _).bind (consumes_put _) fun _ => h
  exact hblock.fresh.bind (consumes_fresh hR.blockOf) fun _ => examinedUpTo_pure _

theorem ExaminedUpTo.alternativeOf (h : ExaminedUpTo m R) (hR : Consumes R) :
    ExaminedUpTo m (alternativeOf R c body) :=
  examinedUpTo_peek_bind fun _ => .ite
    ((examinedUpTo_expect _).bind (consumes_expect _) fun _ =>
      (h.newBlock hR).bind hR.newBlock fun _ => examinedUpTo_update _)
    (examinedUpTo_update _)

theorem ExaminedUpTo.conditionalOf (h : ExaminedUpTo m R) (hR : Consumes R) :
    ExaminedUpTo (m + 1) (conditionalOf R) :=
  examinedUpTo_conditionalOpening.bind_of_shortens shortens_conditionalOpening fun _ =>
    (h.newBlock hR).bind hR.newBlock fun _ => (h.alternativeOf hR).bind hR.alternativeOf fun _ =>
      (examinedUpTo_expect _).bind (consumes_expect _) fun _ =>
        (examinedUpTo_expect _).bind (consumes_expect _) fun _ => examinedUpTo_pure _

theorem ExaminedUpTo.loopOf (h : ExaminedUpTo m R) (hR : Consumes R) :
    ExaminedUpTo (m + 1) (loopOf R) :=
  examinedUpTo_loopOpening.bind_of_shortens shortens_loopOpening fun _ =>
    (h.newBlock hR).bind hR.newBlock fun _ =>
      (examinedUpTo_expect _).bind (consumes_expect _) fun _ =>
        (examinedUpTo_expect _).bind (consumes_expect _) fun _ => examinedUpTo_update _

theorem examinedUpTo_call : ExaminedUpTo m call :=
  examinedUpTo_identifier.bind shortens_identifier.consumes fun _ => examinedUpTo_update _

theorem ExaminedUpTo.statementOf (h : ExaminedUpTo m R) (hR : Consumes R) :
    ExaminedUpTo (m + 1) (statementOf R) :=
  examinedUpTo_peek_bind fun _ => .ite (h.conditionalOf hR) (.ite (h.loopOf hR)
    (.ite examinedUpTo_call (examinedUpTo_reject _ _)))

/-! ### The loops -/

/-- **One round** of the loop of a block leaves shorter queues to the rounds behind it and to the
    blocks inside. -/
theorem ExaminedUpTo.itemsStep (h : ExaminedUpTo m R) (hR : Consumes R) :
    ExaminedUpTo (m + 1) (itemsStep R) := by
  refine examinedUpTo_peek_bind fun _ => .ite (examinedUpTo_pure _) ?_
  refine (h.statementOf hR).fresh.bind_of_shortens hR.shortens_statementOf.fresh fun b => ?_
  exact (examinedUpTo_update _).bind (consumes_append _) fun _ => h

/-- There is no queue without tokens. -/
theorem examinedUpTo_zero (x : Reader τ α) : ExaminedUpTo 0 x := by
  intro st h
  exact absurd h (by simp [TokenQueue.size])

/-- **The statements of a block**, by induction on the number of tokens. -/
theorem examinedUpTo_allItems (m : Nat) : ExaminedUpTo m allItems := by
  induction m with
  | zero => exact examinedUpTo_zero _
  | succ m ih =>
    rw [allItems_eq_step]
    exact ih.itemsStep consumes_allItems

theorem examinedUpTo_block : ExaminedUpTo m block :=
  (examinedUpTo_put _).bind (consumes_put _) fun _ => examinedUpTo_allItems m

theorem examinedUpTo_instruction : ExaminedUpTo m instruction :=
  examinedUpTo_instructionOpening.bind shortens_instructionOpening.consumes fun _ =>
    examinedUpTo_block.bind consumes_block fun _ =>
      (examinedUpTo_expect _).bind (consumes_expect _) fun _ =>
        (examinedUpTo_closing _).bind (consumes_closing _) fun _ => examinedUpTo_pure _

/-- **The definitions**, by induction on the number of tokens. -/
theorem examinedUpTo_definitionsFrom (m : Nat) (c : Context) :
    ExaminedUpTo m (definitionsFrom c : Reader τ Context) := by
  induction m generalizing c with
  | zero => exact examinedUpTo_zero _
  | succ m ih =>
    rw [definitionsFrom_eq_step]
    refine examinedUpTo_peek_bind fun _ =>
      .ite (examinedUpTo_pure _) (.ite ?_ (examinedUpTo_reject _ _))
    exact examinedUpTo_instruction.fresh.bind_of_shortens shortens_instruction.fresh fun b =>
      .ite (examinedUpTo_reject _ _) (ih _)

end

/-! ### Constructs -/

/-- **A statement** is read by what is seen of the queue. -/
theorem exists_examines_statement (st : ReaderState Statement) : ∃ n, Examines statement st n :=
  (examinedUpTo_allItems st.queue.size).statementOf consumes_allItems st (Nat.le_succ _)

theorem exists_examines_block (st : ReaderState Statement) : ∃ n, Examines block st n :=
  examinedUpTo_block st (Nat.le_refl _)

/-- Statements in a row, up to the end of the input. -/
theorem exists_examines_wholeBlock (st : ReaderState Statement) : ∃ n, Examines wholeBlock st n :=
  examinedUpTo_block.bind consumes_block (fun _ => examinedUpTo_ending) st (Nat.le_refl _)

/-- **A program** is read by what is seen of the queue. -/
theorem exists_examines_program (st : ReaderState Program) : ∃ n, Examines program st n := by
  refine ExaminedUpTo.bind examinedUpTo_programOpening shortens_programOpening.consumes
    (fun _ => ?_) st (Nat.le_refl _)
  rw [allDefinitions_eq]
  refine (examinedUpTo_definitionsFrom _ _).bind consumes_allDefinitions fun _ => ?_
  refine (examinedUpTo_expect _).bind (consumes_expect _) fun _ => ?_
  refine ((examinedUpTo_allItems _).newBlock consumes_allItems).bind consumes_allItems.newBlock
    fun _ => ?_
  refine (examinedUpTo_expect _).bind (consumes_expect _) fun _ => ?_
  refine (examinedUpTo_closing _).bind (consumes_closing _) fun _ => ?_
  refine examinedUpTo_ending.bind consumes_ending fun _ => ?_
  exact (examinedUpTo_update _).bind (consumes_update _) fun _ =>
    (examinedUpTo_update _).bind (consumes_update _) fun _ => examinedUpTo_update _

end Reader

end BL
