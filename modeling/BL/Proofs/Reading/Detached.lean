import BL.Reading.Untargeted

namespace BL.Reader

/-!
# Steps without regard to the target

Tokens are read beside the target: what a step gives and leaves depends on the tokens alone, and
whatever the target is, it stays.

* `Reader.Detached` — a step that neither looks at the target nor changes it;
* `Reader.Detached.bind`, `Reader.Detached.ite`, `Reader.detached_fresh` — how such steps are put
  together; what is read into a new target is one;
* `Reader.detached_definitions`, `Reader.detached_wholeEmptyBlock` — the definitions of a program,
  and a block that nothing can be put into.
-/

variable {τ σ α β : Type}

/-- The tokens alone tell whether the step succeeds, what it gives and what it leaves; the target
    stays. -/
def Detached (x : Reader τ α) : Prop :=
  ∀ q, (∃ a m, ∀ t, x ⟨q, t⟩ = .ok a ⟨m, t⟩) ∨ ∃ f m, ∀ t, x ⟨q, t⟩ = .error f ⟨m, t⟩

theorem detached_pure (a : α) : Detached (pure a : Reader τ α) :=
  fun q => .inl ⟨a, q, fun _ => rfl⟩

theorem detached_throw (f : Fault) : Detached (throw f : Reader τ α) :=
  fun q => .inr ⟨f, q, fun _ => rfl⟩

theorem detached_reject (k : Cause) (e : Token) : Detached (reject k e : Reader τ α) :=
  detached_throw _

theorem detached_peek : Detached (peek : Reader τ Token) :=
  fun q => .inl ⟨q.front, q, fun _ => rfl⟩

theorem detached_next : Detached (next : Reader τ Token) :=
  fun q => .inl ⟨q.front, q.rest, fun _ => rfl⟩

/-- Steps one after the other. -/
theorem Detached.bind {x : Reader τ α} {g : α → Reader τ β} (hx : Detached x)
    (hg : ∀ a, Detached (g a)) : Detached (x >>= g) := by
  intro q
  simp only [bind_eq]
  rcases hx q with ⟨a, m, hx⟩ | ⟨f, m, hx⟩
  · simp only [hx]
    exact hg a m
  · simp only [hx]
    exact .inr ⟨f, m, fun _ => rfl⟩

theorem Detached.ite {c : Prop} [Decidable c] {x y : Reader τ α} (hx : Detached x)
    (hy : Detached y) : Detached (if c then x else y) := by
  split
  · exact hx
  · exact hy

/-- What is read into a new target leaves the present one alone, whatever is read. -/
theorem detached_fresh (start : σ) (x : Reader σ α) :
    Detached (fresh start x : Reader τ (α × σ)) := by
  intro q
  simp only [fresh]
  cases x ⟨q, start⟩ with
  | ok a st => exact .inl ⟨(a, st.target), st.queue, fun _ => rfl⟩
  | error f st => exact .inr ⟨f, st.queue, fun _ => rfl⟩

/-! ### Tokens -/

theorem detached_expect (k : String) : Detached (expect k : Reader τ Token) :=
  detached_next.bind fun _ => .ite (detached_pure _) (detached_reject _ _)

theorem detached_identifier : Detached (identifier : Reader τ Token) :=
  detached_next.bind fun _ => .ite (detached_pure _) (detached_reject _ _)

theorem detached_condition : Detached (condition : Reader τ Condition) := by
  refine detached_next.bind fun t => .ite ?_ (detached_reject _ _)
  -- Looking up the condition gives a result or a fault, and touches nothing.
  cases Condition.named t.text with
  | ok c => exact detached_pure c
  | error f => exact detached_throw f

theorem detached_opening (k : String) : Detached (opening k : Reader τ Unit) :=
  detached_peek.bind fun _ => .ite (detached_pure _) (detached_throw _)

theorem detached_definedName : Detached (definedName : Reader τ String) :=
  detached_next.bind fun _ => .ite (detached_reject _ _) (.ite (detached_reject _ _)
    (.ite (detached_reject _ _) (.ite (detached_reject _ _) (detached_pure _))))

theorem detached_closing (name : String) : Detached (closing name : Reader τ Unit) :=
  detached_next.bind fun _ => .ite (detached_pure _) (detached_reject _ _)

theorem detached_ending : Detached (ending : Reader τ Unit) :=
  detached_peek.bind fun _ => .ite (detached_pure _) (detached_reject _ _)

/-! ### Openings -/

theorem detached_conditionalOpening : Detached (conditionalOpening : Reader τ Condition) :=
  (detached_opening _).bind fun _ => (detached_expect _).bind fun _ =>
    detached_condition.bind fun _ => (detached_expect _).bind fun _ => detached_pure _

theorem detached_loopOpening : Detached (loopOpening : Reader τ Condition) :=
  (detached_opening _).bind fun _ => (detached_expect _).bind fun _ =>
    detached_condition.bind fun _ => (detached_expect _).bind fun _ => detached_pure _

theorem detached_instructionOpening : Detached (instructionOpening : Reader τ String) :=
  (detached_opening _).bind fun _ => (detached_expect _).bind fun _ =>
    detached_definedName.bind fun _ => (detached_expect _).bind fun _ => detached_pure _

theorem detached_programOpening : Detached (programOpening : Reader τ String) :=
  (detached_expect _).bind fun _ => detached_identifier.bind fun _ =>
    (detached_expect _).bind fun _ => detached_pure _

/-! ### Blocks and definitions of their own -/

/-- A block of its own. -/
theorem detached_newBlock (R : Reader Statement Unit) :
    Detached (newBlock R : Reader τ Statement) :=
  (detached_fresh _ _).bind fun _ => detached_pure _

/-- **Definitions** are collected beside the target, however many steps are allowed. -/
theorem detached_definitions (n : Nat) (c : Context) :
    Detached (definitions n c : Reader τ Context) := by
  induction n generalizing c with
  | zero => exact detached_throw _
  | succ n ih =>
    have hnext : ∀ (start : Token) (e : String × Statement),
        Detached (if c.contains e.1 then reject .definedTwice start
          else definitions n (c.insert e.1 e.2) : Reader τ Context) :=
      fun start e => .ite (detached_reject _ _) (ih _)
    exact detached_peek.bind fun start => .ite (detached_pure _) (.ite
      ((detached_fresh _ _).bind (hnext start)) (detached_reject _ _))

theorem detached_allDefinitions : Detached (allDefinitions : Reader τ Context) :=
  fun q => detached_definitions q.size .empty q

/-! ### Constructs that are not written -/

variable {inner : Reader τ Bool}

theorem detached_callHead : Detached (callHead : Reader τ Unit) :=
  detached_identifier.bind fun _ => detached_pure _

theorem Detached.conditionalHead (h : Detached inner) : Detached (conditionalHead inner) := by
  refine detached_conditionalOpening.bind fun _ => h.bind fun ended => .ite ?_ (detached_pure _)
  exact detached_peek.bind fun _ =>
    .ite ((detached_expect _).bind fun _ => h.bind fun _ => detached_pure _) (detached_pure _)

theorem Detached.loopHead (h : Detached inner) : Detached (loopHead inner) :=
  detached_loopOpening.bind fun _ => h.bind fun _ => .ite
    ((detached_expect _).bind fun _ => (detached_expect _).bind fun _ => detached_pure _)
    (detached_pure _)

theorem Detached.statementHead (h : Detached inner) : Detached (statementHead inner) :=
  detached_peek.bind fun _ => .ite h.conditionalHead (.ite h.loopHead
    (.ite detached_callHead (detached_reject _ _)))

/-- **Blocks that nothing can be put into**, however many steps are allowed. -/
theorem detached_emptyBlock (n : Nat) : Detached (emptyBlock n : Reader τ Bool) := by
  induction n with
  | zero => exact detached_throw _
  | succ n ih =>
    exact detached_peek.bind fun _ => .ite (detached_pure _)
      (ih.statementHead.bind fun _ => detached_pure _)

theorem detached_wholeEmptyBlock : Detached (wholeEmptyBlock : Reader τ Bool) :=
  fun q => detached_emptyBlock q.size q

end BL.Reader
