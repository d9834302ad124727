import BL.Proofs.Reading.ProgramFailure

namespace BL

open Grammar TokenQueue

/-!
# Reading fails by rejecting a token

Many steps of reading can go wrong in other ways: statements are put together under conditions of
use, a condition is looked up by its name, names and blocks are checked when a program is written,
and the number of steps is bounded.  From statements, blocks and programs none of this ever comes
up, because an earlier step has made sure of it:

* `Cause.codes` — the numbers of the causes;
* `TokenQueue.Rejects`, `Reader.RejectsOnly` — a token of the queue is rejected, and a reader that
  fails in no other way;
* `Reader.conditional_fails`, `Reader.loop_fails`, `Reader.instruction_fails`, `Reader.call_fails`
  — a construct that is asked for by name fails in one more way, if its keyword is missing;
* `Reader.reading_rejects_tokens` — statements, blocks and programs fail in this way only.
-/

/-! ### Rejected tokens -/

/-- The numbers of the causes. -/
def Cause.codes : List String :=
  ["E001", "E002", "E003", "E004", "E005", "E006", "E007", "E008", "E009"]

theorem Cause.code_mem_codes (k : Cause) : k.code ∈ Cause.codes := by
  cases k <;> simp [Cause.code, Cause.codes]

namespace TokenQueue

variable {q r m : TokenQueue} {ws : List String} {f : Fault}

/-- The fault rejects one of the tokens of the queue. -/
def Rejects (q : TokenQueue) (f : Fault) : Prop :=
  ∃ r : Rejection, f = .rejected r ∧ r.token ∈ q.toList

theorem front_mem_toList (q : TokenQueue) : q.front ∈ q.toList :=
  List.mem_of_head? q.head?_toList

theorem rejects_front (q : TokenQueue) (k : Cause) : q.Rejects (.rejected ⟨k, q.front⟩) :=
  ⟨_, rfl, q.front_mem_toList⟩

/-- What is left of a queue are tokens of the queue. -/
theorem Gives.rejects (h : q.Gives ws m) (hm : m.Rejects f) : q.Rejects f := by
  obtain ⟨ts, -, hq⟩ := h
  obtain ⟨e, rfl, he⟩ := hm
  exact ⟨e, rfl, hq ▸ List.mem_append_right ts he⟩

/-- Where the grammar refuses a word, its token is rejected. -/
theorem StopsWith.rejects {S : List String → String → Cause → Prop} (h : q.StopsWith S f) :
    q.Rejects f := by
  obtain ⟨ws, r, k, hg, -, rfl⟩ := h
  exact hg.rejects (r.rejects_front k)

/-- A name that is defined again is reported at a token behind the first definitions. -/
theorem RepeatsName.rejects (h : q.RepeatsName f) : q.Rejects f := by
  obtain ⟨n, es, m, l, -, hm, ⟨ws, hl, -⟩, -, n', b, r, -, -, rfl⟩ := h
  exact (hm.append hl).rejects (l.rejects_front _)

end TokenQueue

namespace Reader

variable {τ α β : Type} {q r : TokenQueue} {s t : τ} {f : Fault}

/-! ### Constructs that are asked for by name -/

/-- A construct whose keyword is not there fails before anything is read. -/
theorem opening_bind_eq_of_ne {k : String} (h : q.front.text ≠ k) (g : Unit → Reader τ β) :
    (opening k >>= g) ⟨q, t⟩ = .error (.violated (.wrongOpening k)) ⟨q, t⟩ := by
  rw [bind_eq, opening, peek_bind, if_neg h]
  rfl

/-- A step that begins with one that fails fails with the same fault. -/
theorem bind_fails_of_eq_error {x : Reader τ α} {st : ReaderState τ} {e : Fault}
    (h : x ⟨q, t⟩ = .error e st) {g : α → Reader τ β} (hf : Fails (x >>= g) ⟨q, t⟩ f) : f = e := by
  obtain ⟨st', hf⟩ := hf
  rw [bind_eq, h] at hf
  cases hf
  rfl

/-- **Conditionals.** They fail where the grammar refuses a word, or at once if the keyword is
    missing. -/
theorem conditional_fails {s : Statement} (h : Fails conditional ⟨q, s⟩ f) :
    q.StopsWith (Refuses .conditional) f ∨
      (q.front.text ≠ "IF" ∧ f = .violated (.wrongOpening "IF")) := by
  by_cases hif : q.front.text = "IF"
  · exact .inl (((refusesItems_allItems q.size).conditionalOf_fails_iff
      (readsItems_allItems q.size) (Nat.le_succ _) hif).1 h)
  · exact .inr ⟨hif, bind_fails_of_eq_error (opening_bind_eq_of_ne hif _) h⟩

/-- **Loops.** They fail in the same two ways. -/
theorem loop_fails {s : Statement} (h : Fails loop ⟨q, s⟩ f) :
    q.StopsWith (Refuses .loop) f ∨
      (q.front.text ≠ "WHILE" ∧ f = .violated (.wrongOpening "WHILE")) := by
  by_cases hwhile : q.front.text = "WHILE"
  · exact .inl (((refusesItems_allItems q.size).loopOf_fails_iff
      (readsItems_allItems q.size) (Nat.le_succ _) hwhile).1 h)
  · exact .inr ⟨hwhile, bind_fails_of_eq_error (opening_bind_eq_of_ne hwhile _) h⟩

/-- **Definitions.** They fail in the same two ways. -/
theorem instruction_fails {s : Statement} (h : Fails instruction ⟨q, s⟩ f) :
    q.StopsWith RefusesDefinition f ∨
      (q.front.text ≠ "INSTRUCTION" ∧ f = .violated (.wrongOpening "INSTRUCTION")) := by
  by_cases hq : q.front.text = "INSTRUCTION"
  · exact .inl ((instruction_fails_iff hq).1 h)
  · exact .inr ⟨hq, bind_fails_of_eq_error (opening_bind_eq_of_ne hq _) h⟩

/-- **Calls.** Only the name can be wrong: an identifier always makes a call. -/
theorem call_fails {s : Statement} (h : Fails call ⟨q, s⟩ f) :
    f = .rejected ⟨.noIdentifier, q.front⟩ := by
  rcases bind_fails_iff.1 h with h | ⟨a, m, t, ha, h⟩
  · obtain ⟨k, hk, rfl⟩ := refusesWord_identifier.iff.1 h
    cases hk
    rfl
  · obtain ⟨hi, -, -, -⟩ := identifier_eq_ok_iff.1 ha
    exact absurd h (not_update_fails (Statement.assembleCall_some hi))

/-! ### Statements, blocks and programs -/

/-- The reader succeeds, or it rejects one of the tokens for a numbered cause. -/
def RejectsOnly (x : Reader τ α) (q : TokenQueue) (t : τ) : Prop :=
  (∃ a st, x ⟨q, t⟩ = .ok a st) ∨
    ∃ r st, x ⟨q, t⟩ = .error (.rejected r) st ∧ r.token ∈ q.toList ∧ r.cause.code ∈ Cause.codes

/-- A reader whose faults are known. -/
theorem rejectsOnly_of_fails {x : Reader τ α} (h : ∀ f, Fails x ⟨q, t⟩ f → q.Rejects f) :
    RejectsOnly x q t := by
  cases hx : x ⟨q, t⟩ with
  | ok a st => exact .inl ⟨a, st, hx⟩
  | error f st =>
    obtain ⟨r, rfl, hr⟩ := h f ⟨st, hx⟩
    exact .inr ⟨r, st, hx, hr, r.cause.code_mem_codes⟩

/-- The result of a reader that only rejects tokens is a target or a rejection. -/
theorem RejectsOnly.result {x : Reader τ α} (h : RejectsOnly x q t) :
    (∃ u, x.result q t = .ok u) ∨
      ∃ r, x.result q t = .error (.rejected r) ∧ r.token ∈ q.toList ∧
        r.cause.code ∈ Cause.codes := by
  rcases h with ⟨a, st, h⟩ | ⟨r, st, h, hr, hc⟩
  · exact .inl ⟨st.target, by rw [Reader.result, h]⟩
  · exact .inr ⟨r, by rw [Reader.result, h], hr, hc⟩

theorem rejectsOnly_statement (q : TokenQueue) (s : Statement) : RejectsOnly statement q s :=
  rejectsOnly_of_fails fun _ h => (statement_fails_iff.1 h).rejects

theorem rejectsOnly_block (q : TokenQueue) (s : Statement) : RejectsOnly block q s :=
  rejectsOnly_of_fails fun _ h => (block_fails_iff.1 h).rejects

theorem rejectsOnly_wholeBlock (q : TokenQueue) (s : Statement) : RejectsOnly wholeBlock q s :=
  rejectsOnly_of_fails fun _ h => (wholeBlock_fails_iff.1 h).rejects

theorem rejectsOnly_program (q : TokenQueue) (p : Program) : RejectsOnly program q p :=
  rejectsOnly_of_fails fun _ h => (program_fails_iff.1 h).elim StopsWith.rejects
    RepeatsName.rejects

/-- **Reading fails by rejecting a token.** From a queue of any tokens, whatever their texts and
    kinds are, and into any target, a statement, a block or a program is read, or one of the tokens
    is rejected.  No condition of use is violated on the way, no condition is looked up in vain, and
    no step is missing.  The same holds for source texts as a whole. -/
theorem reading_rejects_tokens (q : TokenQueue) (s : Statement) (p : Program) (source : String) :
    RejectsOnly statement q s ∧ RejectsOnly block q s ∧ RejectsOnly program q p ∧
    ((∃ t, Statement.ofSource source = .ok t) ∨
      ∃ r, Statement.ofSource source = .error (.rejected r) ∧ r.token ∈ Source.tokens source ∧
        r.cause.code ∈ Cause.codes) ∧
    ((∃ t, Program.ofSource source = .ok t) ∨
      ∃ r, Program.ofSource source = .error (.rejected r) ∧ r.token ∈ Source.tokens source ∧
        r.cause.code ∈ Cause.codes) := by
  have hblock := (rejectsOnly_wholeBlock (.ofSource source) .empty).result
  have hprogram := (rejectsOnly_program (.ofSource source) .empty).result
  rw [toList_ofSource] at hblock hprogram
  exact ⟨rejectsOnly_statement q s, rejectsOnly_block q s, rejectsOnly_program q p, hblock,
    hprogram⟩

end Reader

end BL
