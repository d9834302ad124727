import BL.Proofs.Reading.Consumption
import BL.Proofs.Reading.Safety

namespace BL

open TokenQueue

/-!
# Reading comes to an end

Blocks are read in a loop, and within it the blocks inside; definitions are read in another loop.
Both loops are given a number of steps, and the number of tokens is enough of them for every queue.
It follows that the number does not matter: the loops are the only readers that do one round and
then the same again, without any bound.

* `Reader.AgreeUpTo` — two readers do the same with short queues;
* `Reader.itemsStep`, `Reader.definitionsStep` — one round of each loop, given what is done with the
  tokens that are left;
* `Reader.AgreeUpTo.itemsStep`, `Reader.AgreeUpTo.definitionsStep` — a round leaves a shorter queue
  to the rounds behind it and to the blocks inside;
* `Reader.items_agree`, `Reader.definitions_agree` — more steps than tokens change nothing;
* `Reader.eq_itemsStep_iff`, `Reader.eq_definitionsStep_iff` — the loops without a bound;
* `Reader.reading_ends` — how every construct comes to its end, and what is left then.
-/

namespace Reader

variable {τ σ α β : Type} {n : Nat}

/-! ### Readers that do the same with short queues -/

/-- Both readers do the same with every queue of at most so many tokens. -/
def AgreeUpTo (n : Nat) (x y : Reader τ α) : Prop := ∀ st, st.queue.size ≤ n → x st = y st

theorem agreeUpTo_rfl {x : Reader τ α} : AgreeUpTo n x x := fun _ _ => rfl

/-- There is no queue without tokens. -/
theorem agreeUpTo_zero (x y : Reader τ α) : AgreeUpTo 0 x y := by
  intro st h
  exact absurd h (by simp [TokenQueue.size])

theorem AgreeUpTo.symm {x y : Reader τ α} (h : AgreeUpTo n x y) : AgreeUpTo n y x :=
  fun st hst => (h st hst).symm

/-- Readers that do the same with all queues are equal. -/
theorem eq_of_agreeUpTo {x y : Reader τ α} (h : ∀ n, AgreeUpTo n x y) : x = y :=
  funext fun st => h st.queue.size st (Nat.le_refl _)

theorem AgreeUpTo.bind {x y : Reader τ α} {g k : α → Reader τ β} (h : AgreeUpTo n x y)
    (hx : Consumes x) (hg : ∀ a, AgreeUpTo n (g a) (k a)) : AgreeUpTo n (x >>= g) (y >>= k) := by
  intro st hst
  rw [bind_eq, bind_eq, ← h st hst]
  cases hres : x st with
  | ok a st' => exact hg a st' (Nat.le_trans (hx.size_le hres) hst)
  | error f st' => rfl

/-- Behind a reader that shortens the queue, it is enough to do the same with shorter queues. -/
theorem AgreeUpTo.bind_of_shortens {x y : Reader τ α} {g k : α → Reader τ β}
    (h : AgreeUpTo (n + 1) x y) (hx : Shortens x) (hg : ∀ a, AgreeUpTo n (g a) (k a)) :
    AgreeUpTo (n + 1) (x >>= g) (y >>= k) := by
  intro st hst
  rw [bind_eq, bind_eq, ← h st hst]
  cases hres : x st with
  | ok a st' =>
    have hlt := hx.size_lt hres
    exact hg a st' (by omega)
  | error f st' => rfl

theorem AgreeUpTo.ite {c : Prop} [Decidable c] {x y x' y' : Reader τ α} (h : AgreeUpTo n x x')
    (h' : AgreeUpTo n y y') : AgreeUpTo n (if c then x else y) (if c then x' else y') := by
  split
  · exact h
  · exact h'

theorem AgreeUpTo.fresh {start : σ} {x y : Reader σ α} (h : AgreeUpTo n x y) :
    AgreeUpTo n (fresh start x : Reader τ (α × σ)) (fresh start y) := by
  intro st hst
  unfold Reader.fresh
  rw [h ⟨st.queue, start⟩ hst]

theorem Shortens.fresh {start : σ} {x : Reader σ α} (hx : Shortens x) :
    Shortens (fresh start x : Reader τ (α × σ)) where
  consumes := consumes_fresh hx.consumes
  size_lt := by
    rintro st ⟨a, t⟩ st' h
    obtain ⟨h, -⟩ := fresh_eq_ok_iff.1 h
    exact hx.size_lt h

/-! ### Constructs, given how the statements of a block are read -/

section

variable {R R' : Reader Statement Unit} {c : Condition} {body : Statement}

theorem AgreeUpTo.newBlock (h : AgreeUpTo n R R') :
    AgreeUpTo n (newBlock R : Reader τ Statement) (newBlock R') := by
  have hblock : AgreeUpTo n (blockOf R) (blockOf R') :=
    agreeUpTo_rfl.bind (consumes_put _) fun _ => h
  intro st hst
  unfold Reader.newBlock
  rw [bind_eq, bind_eq, hblock.fresh st hst]

theorem AgreeUpTo.alternativeOf (h : AgreeUpTo n R R') (hR : Consumes R) :
    AgreeUpTo n (alternativeOf R c body) (alternativeOf R' c body) :=
  agreeUpTo_rfl.bind consumes_peek fun _ => .ite
    (agreeUpTo_rfl.bind (consumes_expect _) fun _ => h.newBlock.bind hR.newBlock fun _ =>
      agreeUpTo_rfl) agreeUpTo_rfl

/-- The opening of a conditional takes a token, so that the branches are read from fewer. -/
theorem AgreeUpTo.conditionalOf (h : AgreeUpTo n R R') (hR : Consumes R) :
    AgreeUpTo (n + 1) (conditionalOf R) (conditionalOf R') :=
  agreeUpTo_rfl.bind_of_shortens shortens_conditionalOpening fun _ =>
    h.newBlock.bind hR.newBlock fun _ => (h.alternativeOf hR).bind hR.alternativeOf fun _ =>
      agreeUpTo_rfl

theorem AgreeUpTo.loopOf (h : AgreeUpTo n R R') (hR : Consumes R) :
    AgreeUpTo (n + 1) (loopOf R) (loopOf R') :=
  agreeUpTo_rfl.bind_of_shortens shortens_loopOpening fun _ =>
    h.newBlock.bind hR.newBlock fun _ => agreeUpTo_rfl

theorem AgreeUpTo.statementOf (h : AgreeUpTo n R R') (hR : Consumes R) :
    AgreeUpTo (n + 1) (statementOf R) (statementOf R') :=
  agreeUpTo_rfl.bind consumes_peek fun _ => .ite (h.conditionalOf hR) (.ite (h.loopOf hR)
    agreeUpTo_rfl)

end

/-! ### The loop of a block -/

/-- One round of reading the statements of a block: none if the block ends, and otherwise one, with
    the given reader for the blocks inside and for the statements behind. -/
def itemsStep (R : Reader Statement Unit) : Reader Statement Unit := do
  let t ← peek
  if endsBlock t then return
  else do
    let (_, child) ← fresh .empty (statementOf R)
    append child
    R

theorem items_succ (n : Nat) : items (n + 1) = itemsStep (items n) := rfl

/-- **One round.** The statement that is read takes a token, and so does the opening of each
    construct inside: whatever a round leaves to the given reader is a shorter queue. -/
theorem AgreeUpTo.itemsStep {R R' : Reader Statement Unit} (h : AgreeUpTo n R R')
    (hR : Consumes R) : AgreeUpTo (n + 1) (itemsStep R) (itemsStep R') := by
  refine agreeUpTo_rfl.bind consumes_peek fun t => .ite agreeUpTo_rfl ?_
  refine (h.statementOf hR).fresh.bind_of_shortens hR.shortens_statementOf.fresh fun b => ?_
  exact agreeUpTo_rfl.bind (consumes_append _) fun _ => h

/-- **Enough steps.** With as many steps as tokens or more the same is read. -/
theorem items_agree {m : Nat} (h : n ≤ m) : AgreeUpTo n (items n) (items m) := by
  induction n generalizing m with
  | zero => exact agreeUpTo_zero _ _
  | succ n ih =>
    obtain ⟨m, rfl⟩ := Nat.exists_eq_succ_of_ne_zero (show m ≠ 0 by omega)
    rw [Nat.succ_eq_add_one, items_succ, items_succ]
    exact (ih (by omega)).itemsStep (consumes_items n)

theorem items_agree_allItems (n : Nat) : AgreeUpTo n (items n) allItems :=
  fun st hst => (items_agree hst st (Nat.le_refl _)).symm

/-- The loop does a round, and then the same again. -/
theorem allItems_eq_step : allItems = itemsStep allItems := by
  funext st
  -- A queue has a token at least, so that there is a first step.
  have hstep : allItems st = itemsStep (items st.queue.ahead.length) st := rfl
  rw [hstep]
  exact (items_agree_allItems _).itemsStep (consumes_items _) st (Nat.le_refl _)

/-- **The loop without a bound.** The only reader that does a round and then the same again. -/
theorem eq_itemsStep_iff {R : Reader Statement Unit} : R = itemsStep R ↔ R = allItems := by
  constructor
  · intro hR
    refine eq_of_agreeUpTo fun n => ?_
    induction n with
    | zero => exact agreeUpTo_zero _ _
    | succ n ih =>
      rw [hR, allItems_eq_step]
      exact (ih.symm.itemsStep consumes_allItems).symm
  · rintro rfl
    exact allItems_eq_step

/-! ### The loop of the definitions -/

/-- One round of reading definitions: none in front of `BEGIN`, and otherwise one, which has to
    define a new name; the given reader goes on with the larger table. -/
def definitionsStep (D : Context → Reader τ Context) (c : Context) : Reader τ Context := do
  let start ← peek
  if start.text = "BEGIN" then return c
  else if start.text = "INSTRUCTION" then do
    let (name, body) ← fresh .empty instruction
    if c.contains name then reject .definedTwice start
    else D (c.insert name body)
  else reject (.missingKeyword "BEGIN") start

theorem definitions_succ (n : Nat) :
    (definitions (n + 1) : Context → Reader τ Context) = definitionsStep (definitions n) := rfl

/-- The definitions up to `BEGIN`, behind those of a table. -/
def definitionsFrom (c : Context) : Reader τ Context := fun st => definitions st.queue.size c st

theorem allDefinitions_eq : (allDefinitions : Reader τ Context) = definitionsFrom .empty := rfl

theorem AgreeUpTo.definitionsStep {D D' : Context → Reader τ Context}
    (h : ∀ c, AgreeUpTo n (D c) (D' c)) (c : Context) :
    AgreeUpTo (n + 1) (definitionsStep D c) (definitionsStep D' c) := by
  refine agreeUpTo_rfl.bind consumes_peek fun t => .ite agreeUpTo_rfl (.ite ?_ agreeUpTo_rfl)
  exact agreeUpTo_rfl.bind_of_shortens shortens_instruction.fresh fun b => .ite agreeUpTo_rfl (h _)

/-- **Enough steps**, also for definitions. -/
theorem definitions_agree {m : Nat} (h : n ≤ m) (c : Context) :
    AgreeUpTo n (definitions n c : Reader τ Context) (definitions m c) := by
  induction n generalizing m c with
  | zero => exact agreeUpTo_zero _ _
  | succ n ih =>
    obtain ⟨m, rfl⟩ := Nat.exists_eq_succ_of_ne_zero (show m ≠ 0 by omega)
    rw [Nat.succ_eq_add_one, definitions_succ, definitions_succ]
    exact .definitionsStep (fun c => ih (by omega) c) c

theorem definitionsFrom_eq_step :
    (definitionsFrom : Context → Reader τ Context) = definitionsStep definitionsFrom := by
  funext c st
  have hstep : definitionsFrom c st = definitionsStep (definitions st.queue.ahead.length) c st :=
    rfl
  rw [hstep]
  refine AgreeUpTo.definitionsStep (fun c' st' hst => ?_) c st (Nat.le_refl _)
  exact (definitions_agree hst c' st' (Nat.le_refl _)).symm

/-- **The loop without a bound**, also for definitions. -/
theorem eq_definitionsStep_iff {D : Context → Reader τ Context} :
    D = definitionsStep D ↔ D = definitionsFrom := by
  constructor
  · intro hD
    refine funext fun c => eq_of_agreeUpTo fun n => ?_
    induction n generalizing c with
    | zero => exact agreeUpTo_zero _ _
    | succ n ih =>
      rw [hD, definitionsFrom_eq_step]
      exact .definitionsStep ih c
  · rintro rfl
    exact definitionsFrom_eq_step

/-! ### Ends of reading -/

/-- The reader comes to an end before its steps are used up.  What is left then is left of the queue
    that it began with, and a success ends in a certain way. -/
def Ends (x : Reader τ α) (st : ReaderState τ) (P : ReaderState τ → Prop) : Prop :=
  (∃ a st', x st = .ok a st' ∧ st'.queue.IsLeftOf st.queue ∧ P st') ∨
    ∃ f st', x st = .error f st' ∧ st'.queue.IsLeftOf st.queue ∧ f ≠ .exhausted

/-- The queue is shorter than the other one. -/
def Shorter (q : TokenQueue) (st : ReaderState τ) : Prop := st.queue.size < q.size

theorem Consumes.ends {x : Reader τ α} (hx : Consumes x) {st : ReaderState τ}
    {P : ReaderState τ → Prop} (hP : ∀ a st', x st = .ok a st' → P st')
    (hf : ¬ Fails x st .exhausted) : Ends x st P := by
  cases hres : x st with
  | ok a st' => exact .inl ⟨a, st', hres, isLeftOf_of_suffix (hx.suffix_of_ok hres), hP a st' hres⟩
  | error f st' =>
    refine .inr ⟨f, st', hres, isLeftOf_of_suffix (hx.suffix_of_error hres), ?_⟩
    rintro rfl
    exact hf ⟨st', hres⟩

theorem Shortens.ends {x : Reader τ α} (hx : Shortens x) {q : TokenQueue} {t : τ}
    (hf : ¬ Fails x ⟨q, t⟩ .exhausted) : Ends x ⟨q, t⟩ (Shorter q) :=
  hx.consumes.ends (fun _ _ h => hx.size_lt h) hf

/-- A token is rejected for a cause, and not because steps are missing. -/
theorem not_rejects_exhausted {q : TokenQueue} : ¬ q.Rejects .exhausted := by
  rintro ⟨r, h, -⟩
  cases h

/-- **Reading ends**, from every queue and with every target.  What is left is a part of the queue
    that stands at its end, and a success makes the queue shorter; only an empty block takes no
    token.  The loops do not depend on the number of their steps: they are the only readers that
    do one round and then the same again. -/
theorem reading_ends (q : TokenQueue) (s : Statement) (p : Program) :
    Ends statement ⟨q, s⟩ (Shorter q) ∧ Ends conditional ⟨q, s⟩ (Shorter q) ∧
    Ends loop ⟨q, s⟩ (Shorter q) ∧ Ends call ⟨q, s⟩ (Shorter q) ∧
    Ends instruction ⟨q, s⟩ (Shorter q) ∧ Ends program ⟨q, p⟩ (Shorter q) ∧
    Ends block ⟨q, s⟩ (fun st => Shorter q st ∨ st = ⟨q, .empty⟩) ∧
    (∀ R, R = itemsStep R ↔ R = allItems) ∧
    (∀ D : Context → Reader Program Context, D = definitionsStep D ↔ D = definitionsFrom) ∧
    (allDefinitions : Reader Program Context) = definitionsFrom .empty := by
  refine ⟨?statement, ?conditional, ?loop, ?call, ?instruction, ?program, ?block,
    fun _ => eq_itemsStep_iff, fun _ => eq_definitionsStep_iff, allDefinitions_eq⟩
  case statement =>
    refine consumes_allItems.shortens_statementOf.ends fun h => ?_
    exact not_rejects_exhausted (statement_fails_iff.1 h).rejects
  case conditional =>
    refine consumes_allItems.shortens_conditionalOf.ends fun h => ?_
    rcases conditional_fails h with h | ⟨-, h⟩
    · exact not_rejects_exhausted h.rejects
    · cases h
  case loop =>
    refine consumes_allItems.shortens_loopOf.ends fun h => ?_
    rcases loop_fails h with h | ⟨-, h⟩
    · exact not_rejects_exhausted h.rejects
    · cases h
  case call => exact shortens_call.ends fun h => by cases call_fails h
  case instruction =>
    refine shortens_instruction.ends fun h => ?_
    rcases instruction_fails h with h | ⟨-, h⟩
    · exact not_rejects_exhausted h.rejects
    · cases h
  case program =>
    refine shortens_program.ends fun h => ?_
    rcases program_fails_iff.1 h with h | h
    · exact not_rejects_exhausted h.rejects
    · exact not_rejects_exhausted h.rejects
  case block =>
    refine consumes_block.ends (fun _ st h => ?_) fun h => ?_
    · -- A block without statements leaves the queue as it is.
      rcases size_lt_or_eq_of_block h with hlt | ⟨hq, ht⟩
      · exact .inl hlt
      · obtain ⟨r, t⟩ := st
        exact .inr (by rw [← hq, ← ht])
    · exact not_rejects_exhausted (block_fails_iff.1 h).rejects

end Reader

end BL
