import BL.Proofs.Keeps
import BL.Proofs.Reading.Program

namespace BL

open TokenQueue

/-!
# Reading takes tokens from the front

Whether a reader succeeds or fails, all that it does to its queue is to take tokens from the front,
one by one, and the last token is never taken.  So the number of tokens need not go down with every
token that is handed out; but the words of the language are no text that ends the input, and where
one of them is read the queue gets shorter:

* `TokenQueue.IsLeftOf` — what can be left of a queue;
* `Reader.Consumes`, `Reader.Shortens` — readers that take tokens, and those that take one at least
  if they succeed;
* `Reader.Consumes.bind`, `Reader.Shortens.bind`, … — how such readers are put together;
* `Reader.consumes_items`, `Reader.consumes_definitions` — the loops, by induction on the number of
  steps;
* `Reader.Consumes.shortens_statementOf`, `Reader.shortens_program`, … — the constructs.
-/

namespace TokenQueue

variable {q r : TokenQueue}

/-- The queue is what is left of the other one when tokens are taken from its front: its tokens
    stand at the end of the other ones, there is one at least, and the last one ends the input. -/
structure IsLeftOf (r q : TokenQueue) : Prop where
  suffix : r.toList <:+ q.toList
  nonempty : r.toList ≠ []
  ends : ∃ e, r.toList.getLast? = some e ∧ e.isEnd = true

/-- The tokens of a queue always end with one that ends the input. -/
theorem isLeftOf_of_suffix (h : r.toList <:+ q.toList) : r.IsLeftOf q where
  suffix := h
  nonempty := by simp [toList]
  ends := ⟨r.last, by simp [toList], r.isEnd_last⟩

theorem rest_suffix (q : TokenQueue) : q.rest.toList <:+ q.toList := by
  rw [toList_rest]
  split
  · exact List.suffix_rfl
  · exact List.tail_suffix _

theorem size_le_of_suffix (h : r.toList <:+ q.toList) : r.size ≤ q.size := by
  have hlen := h.length_le
  rwa [length_toList, length_toList] at hlen

end TokenQueue

namespace Reader

variable {τ σ α β : Type}

/-! ### Readers that take tokens -/

/-- The tokens that are left stand at the end of the list. -/
def LeftIn (ts : List Token) (st : ReaderState τ) : Prop := st.queue.toList <:+ ts

/-- The reader takes tokens from the front of the queue and does nothing else to it, whether it
    succeeds or not. -/
def Consumes (x : Reader τ α) : Prop := ∀ ts, Keeps (LeftIn ts) x fun _ => True

theorem consumes_pure (a : α) : Consumes (pure a : Reader τ α) := fun _ => keeps_pure trivial

theorem consumes_throw (f : Fault) : Consumes (throw f : Reader τ α) := fun _ => keeps_throw

theorem consumes_reject (k : Cause) (e : Token) : Consumes (reject k e : Reader τ α) :=
  consumes_throw _

theorem consumes_peek : Consumes (peek : Reader τ Token) := fun _ _ h => ⟨h, trivial⟩

theorem consumes_next : Consumes (next : Reader τ Token) :=
  fun _ st h => ⟨st.queue.rest_suffix.trans h, trivial⟩

theorem consumes_put (t : τ) : Consumes (put t) := fun _ _ h => ⟨h, trivial⟩

theorem consumes_update (f : τ → Except Violation τ) : Consumes (update f) := by
  intro ts st h
  unfold update
  cases f st.target with
  | ok t => exact ⟨h, trivial⟩
  | error v => exact h

/-- Readers one after the other. -/
theorem Consumes.bind {x : Reader τ α} {g : α → Reader τ β} (hx : Consumes x)
    (hg : ∀ a, Consumes (g a)) : Consumes (x >>= g) :=
  fun ts => (hx ts).bind fun a _ => hg a ts

theorem Consumes.ite {c : Prop} [Decidable c] {x y : Reader τ α} (hx : Consumes x)
    (hy : Consumes y) : Consumes (if c then x else y) :=
  fun ts => .ite (hx ts) (hy ts)

/-- Reading into a new target takes the tokens that are read. -/
theorem consumes_fresh {start : σ} {x : Reader σ α} (hx : Consumes x) :
    Consumes (fresh start x : Reader τ (α × σ)) := by
  intro ts st h
  have hst := hx ts ⟨st.queue, start⟩ h
  unfold fresh
  cases hres : x ⟨st.queue, start⟩ with
  | ok a st' =>
    rw [hres] at hst
    exact ⟨hst.1, trivial⟩
  | error f st' =>
    rw [hres] at hst
    exact hst

/-- What is left behind a success. -/
theorem Consumes.suffix_of_ok {x : Reader τ α} (hx : Consumes x) {st st' : ReaderState τ} {a : α}
    (h : x st = .ok a st') : st'.queue.toList <:+ st.queue.toList := by
  have hst := hx st.queue.toList st List.suffix_rfl
  rw [h] at hst
  exact hst.1

/-- What is left behind a failure. -/
theorem Consumes.suffix_of_error {x : Reader τ α} (hx : Consumes x) {st st' : ReaderState τ}
    {f : Fault} (h : x st = .error f st') : st'.queue.toList <:+ st.queue.toList := by
  have hst := hx st.queue.toList st List.suffix_rfl
  rw [h] at hst
  exact hst

theorem Consumes.size_le {x : Reader τ α} (hx : Consumes x) {st st' : ReaderState τ} {a : α}
    (h : x st = .ok a st') : st'.queue.size ≤ st.queue.size :=
  size_le_of_suffix (hx.suffix_of_ok h)

/-! ### Readers that shorten the queue -/

/-- The reader takes tokens, and if it succeeds, then one of them was not the last one. -/
structure Shortens (x : Reader τ α) : Prop where
  consumes : Consumes x
  size_lt : ∀ ⦃st a st'⦄, x st = .ok a st' → st'.queue.size < st.queue.size

theorem shortens_throw (f : Fault) : Shortens (throw f : Reader τ α) where
  consumes := consumes_throw f
  size_lt st a st' h := by cases h

theorem Shortens.bind {x : Reader τ α} {g : α → Reader τ β} (hx : Shortens x)
    (hg : ∀ a, Consumes (g a)) : Shortens (x >>= g) where
  consumes := hx.consumes.bind hg
  size_lt st b st' h := by
    obtain ⟨a, m, t, ha, hb⟩ := bind_eq_ok_iff.1 h
    exact Nat.lt_of_le_of_lt ((hg a).size_le hb) (hx.size_lt ha)

/-- The first of two readers need not shorten the queue if the second one does. -/
theorem Consumes.bind_shortens {x : Reader τ α} {g : α → Reader τ β} (hx : Consumes x)
    (hg : ∀ a, Shortens (g a)) : Shortens (x >>= g) where
  consumes := hx.bind fun a => (hg a).consumes
  size_lt st b st' h := by
    obtain ⟨a, m, t, ha, hb⟩ := bind_eq_ok_iff.1 h
    exact Nat.lt_of_lt_of_le ((hg a).size_lt hb) (hx.size_le ha)

theorem Shortens.ite {c : Prop} [Decidable c] {x y : Reader τ α} (hx : Shortens x)
    (hy : Shortens y) : Shortens (if c then x else y) := by
  split
  · exact hx
  · exact hy

/-! ### Tokens and openings -/

theorem consumes_expect (k : String) : Consumes (expect k : Reader τ Token) :=
  consumes_next.bind fun _ => .ite (consumes_pure _) (consumes_reject _ _)

/-- A keyword is not the text that ends the input. -/
theorem shortens_expect {k : String} (hk : k ≠ Token.endText) :
    Shortens (expect k : Reader τ Token) where
  consumes := consumes_expect k
  size_lt st t st' h := by
    obtain ⟨hg, -, -⟩ := (expect_eq_ok_iff hk).1 h
    exact hg.size_lt

/-- Neither is an identifier. -/
theorem shortens_identifier : Shortens (identifier : Reader τ Token) where
  consumes := consumes_next.bind fun _ => .ite (consumes_pure _) (consumes_reject _ _)
  size_lt st t st' h := by
    obtain ⟨-, hg, -, -⟩ := identifier_eq_ok_iff.1 h
    exact hg.size_lt

theorem consumes_condition : Consumes (condition : Reader τ Condition) := by
  refine consumes_next.bind fun t => .ite ?_ (consumes_reject _ _)
  cases Condition.named t.text with
  | ok c => exact consumes_pure c
  | error f => exact consumes_throw f

theorem consumes_opening (k : String) : Consumes (opening k : Reader τ Unit) :=
  consumes_peek.bind fun _ => .ite (consumes_pure _) (consumes_throw _)

theorem consumes_ending : Consumes (ending : Reader τ Unit) :=
  consumes_peek.bind fun _ => .ite (consumes_pure _) (consumes_reject _ _)

theorem consumes_closing (name : String) : Consumes (closing name : Reader τ Unit) :=
  consumes_next.bind fun _ => .ite (consumes_pure _) (consumes_reject _ _)

theorem consumes_definedName : Consumes (definedName : Reader τ String) :=
  consumes_next.bind fun _ => .ite (consumes_reject _ _) (.ite (consumes_reject _ _)
    (.ite (consumes_reject _ _) (.ite (consumes_reject _ _) (consumes_pure _))))

/-- **Openings** take their first keyword at least. -/
theorem Consumes.shortens_opening {x : Reader τ α} (hx : Consumes x) {k : String}
    (hk : k ≠ Token.endText) (k' : String) :
    Shortens (do opening k
                 let _ ← expect k
                 let a ← x
                 let _ ← expect k'
                 return a : Reader τ α) :=
  (consumes_opening k).bind_shortens fun _ => (shortens_expect hk).bind fun _ => hx.bind fun _ =>
    (consumes_expect k').bind fun _ => consumes_pure _

theorem shortens_conditionalOpening : Shortens (conditionalOpening : Reader τ Condition) :=
  consumes_condition.shortens_opening (by decide) "THEN"

theorem shortens_loopOpening : Shortens (loopOpening : Reader τ Condition) :=
  consumes_condition.shortens_opening (by decide) "DO"

theorem shortens_instructionOpening : Shortens (instructionOpening : Reader τ String) :=
  consumes_definedName.shortens_opening (by decide) "IS"

theorem shortens_programOpening : Shortens (programOpening : Reader τ String) :=
  (shortens_expect (by decide)).bind fun _ => shortens_identifier.consumes.bind fun _ =>
    (consumes_expect _).bind fun _ => consumes_pure _

/-! ### Constructs, given how the statements of a block are read -/

section

variable {R : Reader Statement Unit} {c : Condition} {body : Statement}

theorem Consumes.blockOf (hR : Consumes R) : Consumes (blockOf R) :=
  (consumes_put _).bind fun _ => hR

theorem Consumes.newBlock (hR : Consumes R) : Consumes (newBlock R : Reader τ Statement) :=
  (consumes_fresh hR.blockOf).bind fun _ => consumes_pure _

theorem Consumes.alternativeOf (hR : Consumes R) : Consumes (alternativeOf R c body) :=
  consumes_peek.bind fun _ => .ite
    ((consumes_expect _).bind fun _ => hR.newBlock.bind fun _ => consumes_update _)
    (consumes_update _)

theorem Consumes.shortens_conditionalOf (hR : Consumes R) : Shortens (conditionalOf R) :=
  shortens_conditionalOpening.bind fun _ => hR.newBlock.bind fun _ => hR.alternativeOf.bind fun _ =>
    (consumes_expect _).bind fun _ => (consumes_expect _).bind fun _ => consumes_pure _

theorem Consumes.shortens_loopOf (hR : Consumes R) : Shortens (loopOf R) :=
  shortens_loopOpening.bind fun _ => hR.newBlock.bind fun _ => (consumes_expect _).bind fun _ =>
    (consumes_expect _).bind fun _ => consumes_update _

theorem shortens_call : Shortens call :=
  shortens_identifier.bind fun _ => consumes_update _

/-- **Statements** take a token at least, however the blocks inside are read. -/
theorem Consumes.shortens_statementOf (hR : Consumes R) : Shortens (statementOf R) :=
  consumes_peek.bind_shortens fun _ => .ite hR.shortens_conditionalOf (.ite hR.shortens_loopOf
    (.ite shortens_call (shortens_throw _)))

end

/-! ### The statements of a block -/

theorem consumes_append (child : Statement) : Consumes (append child) := consumes_update _

/-- **The statements of a block**, in however many steps. -/
theorem consumes_items (n : Nat) : Consumes (items n) := by
  induction n with
  | zero => exact consumes_throw _
  | succ n ih =>
    refine consumes_peek.bind fun _ => .ite (consumes_pure _) ?_
    exact (consumes_fresh ih.shortens_statementOf.consumes).bind fun _ =>
      (consumes_append _).bind fun _ => ih

theorem consumes_allItems : Consumes allItems :=
  fun ts st => consumes_items st.queue.size ts st

theorem consumes_block : Consumes block := consumes_allItems.blockOf

/-- A block that takes no token is empty. -/
theorem size_lt_or_eq_of_block {q r : TokenQueue} {s t : Statement} {u : Unit}
    (h : block ⟨q, s⟩ = .ok u ⟨r, t⟩) : r.size < q.size ∨ (r = q ∧ t = .empty) := by
  obtain ⟨ts, hts, -, rfl⟩ := block_eq_ok_iff.1 h
  cases ts with
  | nil => exact .inr ⟨givesBlock_nil_iff.1 hts, rfl⟩
  | cons s ts =>
    obtain ⟨m, hs, hrest⟩ := givesBlock_cons_iff.1 hts
    exact .inl (Nat.lt_of_le_of_lt hrest.size_le hs.size_lt)

/-! ### Definitions and programs -/

theorem shortens_instruction : Shortens instruction :=
  shortens_instructionOpening.bind fun _ => consumes_block.bind fun _ =>
    (consumes_expect _).bind fun _ => (consumes_closing _).bind fun _ => consumes_pure _

/-- **Definitions**, in however many steps and behind whatever was defined before. -/
theorem consumes_definitions (n : Nat) (c : Context) :
    Consumes (definitions n c : Reader τ Context) := by
  induction n generalizing c with
  | zero => exact consumes_throw _
  | succ n ih =>
    refine consumes_peek.bind fun _ => .ite (consumes_pure _) (.ite ?_ (consumes_reject _ _))
    exact (consumes_fresh shortens_instruction.consumes).bind fun b =>
      .ite (consumes_reject _ _) (ih _)

theorem consumes_allDefinitions : Consumes (allDefinitions : Reader τ Context) :=
  fun ts st => consumes_definitions st.queue.size .empty ts st

/-- **Programs** take a token at least. -/
theorem shortens_program : Shortens program :=
  shortens_programOpening.bind fun _ => consumes_allDefinitions.bind fun _ =>
    (consumes_expect _).bind fun _ => consumes_allItems.newBlock.bind fun _ =>
      (consumes_expect _).bind fun _ => (consumes_closing _).bind fun _ =>
        consumes_ending.bind fun _ => (consumes_update _).bind fun _ =>
          (consumes_update _).bind fun _ => consumes_update _

end Reader

end BL
