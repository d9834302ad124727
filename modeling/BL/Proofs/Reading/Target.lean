import BL.Proofs.Keeps
import BL.Proofs.Reading.Commit

namespace BL

/-!
# Readers keep their targets well formed

A reader that stops halfway leaves its target as far as it was written.  The target is written by
the operations that build statements, one after the other, and so it is well formed at any time:

* `Reader.OnTarget` — a property of the target as one of the whole state of a reader;
* `Reader.Detached.keeps`, `Reader.keeps_update`, `Reader.keeps_fresh` — steps without regard to the
  target, changes of the target, and what is read into a new one;
* `Reader.keeps_items` — reading the statements of a block, by induction on the number of steps;
* `Reader.keeps_statement`, `Reader.keeps_block`, … — the constructs;
* `Program.Shaped`, `Reader.keeps_program` — the same for programs.
-/

namespace Reader

variable {τ σ α β : Type} {P : τ → Prop} {Q : α → Prop}

/-! ### Properties of targets -/

/-- The property of the target, whatever tokens are left. -/
def OnTarget (P : τ → Prop) (st : ReaderState τ) : Prop := P st.target

/-- A step without regard to the target keeps every property. -/
theorem Detached.keeps {x : Reader τ α} (h : Detached x) : Keeps (OnTarget P) x fun _ => True := by
  intro st hP
  obtain ⟨q, t⟩ := st
  rcases h q with ⟨a, m, h⟩ | ⟨f, m, h⟩
  · rw [h]
    exact ⟨hP, trivial⟩
  · rw [h]
    exact hP

/-- A step behind one without regard to the target. -/
theorem Detached.bind_keeps {x : Reader τ α} {g : α → Reader τ β} {R : β → Prop} (hx : Detached x)
    (hg : ∀ a, Keeps (OnTarget P) (g a) R) : Keeps (OnTarget P) (x >>= g) R :=
  hx.keeps.bind fun a _ => hg a

theorem keeps_put {t : τ} (h : P t) : Keeps (OnTarget P) (put t) fun _ => True :=
  fun _ _ => ⟨h, trivial⟩

/-- A change that fails leaves the target as it is. -/
theorem keeps_update {f : τ → Except Violation τ} (h : ∀ t t', P t → f t = .ok t' → P t') :
    Keeps (OnTarget P) (update f) fun _ => True := by
  intro st hP
  unfold update
  cases hf : f st.target with
  | ok t => exact ⟨h _ t hP hf, trivial⟩
  | error v => exact hP

/-- What is read into a new target has the property that the new target had. -/
theorem keeps_fresh {P' : σ → Prop} {start : σ} {x : Reader σ α} (hx : Keeps (OnTarget P') x Q)
    (hs : P' start) :
    Keeps (OnTarget P) (fresh start x : Reader τ (α × σ)) fun b => P' b.2 := by
  intro st hP
  have h := hx ⟨st.queue, start⟩ hs
  unfold fresh
  cases hst : x ⟨st.queue, start⟩ with
  | ok a st' =>
    rw [hst] at h
    exact ⟨hP, h.1⟩
  | error f st' => exact hP

/-! ### Constructs, given how the statements of a block are read -/

section

variable {R : Reader Statement Unit} {c : Condition} {body : Statement}

/-- A block of its own is well formed. -/
theorem keeps_newBlock (hR : Keeps (OnTarget Statement.WellFormed) R fun _ => True) :
    Keeps (OnTarget P) (newBlock R) Statement.WellFormed := by
  have hblock : Keeps (OnTarget Statement.WellFormed) (blockOf R) fun _ => True :=
    (keeps_put Statement.wellFormed_empty).bind fun _ _ => hR
  exact (keeps_fresh hblock Statement.wellFormed_empty).bind fun b hb => keeps_pure hb

theorem keeps_alternativeOf (hR : Keeps (OnTarget Statement.WellFormed) R fun _ => True)
    (hbody : body.WellFormed) :
    Keeps (OnTarget Statement.WellFormed) (alternativeOf R c body) fun _ => True := by
  refine detached_peek.bind_keeps fun t => .ite ?_ ?_
  · refine (detached_expect _).bind_keeps fun _ => (keeps_newBlock hR).bind fun alternative ha => ?_
    exact keeps_update fun _ _ _ h => Statement.assembleIfElse_wellFormed hbody ha h
  · exact keeps_update fun _ _ _ h => Statement.assembleIf_wellFormed hbody h

/-- The target is written before the conditional is closed, but as a whole. -/
theorem keeps_conditionalOf (hR : Keeps (OnTarget Statement.WellFormed) R fun _ => True) :
    Keeps (OnTarget Statement.WellFormed) (conditionalOf R) fun _ => True := by
  refine detached_conditionalOpening.bind_keeps fun c => ?_
  refine (keeps_newBlock hR).bind fun body hbody => ?_
  refine (keeps_alternativeOf hR hbody).bind fun _ _ => ?_
  exact (detached_expect _).bind_keeps fun _ =>
    (detached_expect _).bind_keeps fun _ => keeps_pure trivial

theorem keeps_loopOf (hR : Keeps (OnTarget Statement.WellFormed) R fun _ => True) :
    Keeps (OnTarget Statement.WellFormed) (loopOf R) fun _ => True := by
  refine detached_loopOpening.bind_keeps fun c => (keeps_newBlock hR).bind fun body hbody => ?_
  refine (detached_expect _).bind_keeps fun _ => (detached_expect _).bind_keeps fun _ => ?_
  exact keeps_update fun _ _ _ h => Statement.assembleWhile_wellFormed hbody h

theorem keeps_call : Keeps (OnTarget Statement.WellFormed) call fun _ => True :=
  detached_identifier.bind_keeps fun _ =>
    keeps_update fun _ _ _ h => Statement.assembleCall_wellFormed h

theorem keeps_statementOf (hR : Keeps (OnTarget Statement.WellFormed) R fun _ => True) :
    Keeps (OnTarget Statement.WellFormed) (statementOf R) fun _ => True :=
  detached_peek.bind_keeps fun _ => .ite (keeps_conditionalOf hR) (.ite (keeps_loopOf hR)
    (.ite keeps_call (detached_reject _ _).keeps))

end

/-! ### The statements of a block -/

/-- A statement goes into the block that was read so far. -/
theorem keeps_append {child : Statement} (hc : child.WellFormed) :
    Keeps (OnTarget Statement.WellFormed) (append child) fun _ => True := by
  refine keeps_update fun s t hs h => ?_
  obtain ⟨n, -, hins⟩ := exists_of_bind_eq_ok h
  exact Statement.insertChild_wellFormed hs hc hins

/-- **The statements of a block** are put into the target one by one; where reading stops, those
    before are in it. -/
theorem keeps_items (n : Nat) : Keeps (OnTarget Statement.WellFormed) (items n) fun _ => True := by
  induction n with
  | zero => exact (detached_throw _).keeps
  | succ n ih =>
    refine detached_peek.bind_keeps fun t => .ite (keeps_pure trivial) ?_
    -- The next statement is built apart from the block, and joins it as a whole.
    refine (keeps_fresh (keeps_statementOf ih) Statement.wellFormed_empty).bind fun b hb => ?_
    exact (keeps_append hb).bind fun _ _ => ih

theorem keeps_allItems : Keeps (OnTarget Statement.WellFormed) allItems fun _ => True :=
  fun st => keeps_items st.queue.size st

/-! ### Constructs -/

theorem keeps_block : Keeps (OnTarget Statement.WellFormed) block fun _ => True :=
  (keeps_put Statement.wellFormed_empty).bind fun _ _ => keeps_allItems

theorem keeps_conditional : Keeps (OnTarget Statement.WellFormed) conditional fun _ => True :=
  keeps_conditionalOf keeps_allItems

theorem keeps_loop : Keeps (OnTarget Statement.WellFormed) loop fun _ => True :=
  keeps_loopOf keeps_allItems

theorem keeps_statement : Keeps (OnTarget Statement.WellFormed) statement fun _ => True :=
  keeps_statementOf keeps_allItems

theorem keeps_instruction : Keeps (OnTarget Statement.WellFormed) instruction fun _ => True :=
  detached_instructionOpening.bind_keeps fun _ => keeps_block.bind fun _ _ =>
    (detached_expect _).bind_keeps fun _ => (detached_closing _).bind_keeps fun _ =>
      keeps_pure trivial

end Reader

/-! ### Programs -/

/-- All statements of the program are well formed. -/
structure Program.Shaped (p : Program) : Prop where
  entries : ∀ e ∈ p.context.entries, e.2.WellFormed
  body : p.body.WellFormed

theorem Program.WellFormed.shaped {p : Program} (h : p.WellFormed) : p.Shaped :=
  ⟨fun e he => (h.entries e he).2.2, h.body.2⟩

theorem Program.shaped_empty : Program.empty.Shaped :=
  ⟨List.forall_mem_nil _, Statement.wellFormed_empty⟩

/-- The checked changes of a program exchange its parts for others. -/
theorem Program.Shaped.setName {p q : Program} {name : Option String} (hp : p.Shaped)
    (h : p.setName name = .ok q) : q.Shaped := by
  unfold Program.setName at h
  split at h
  · cases h
    exact ⟨hp.entries, hp.body⟩
  · cases h

theorem Program.Shaped.swapContext {p : Program} {c : Context} {b : Program × Context}
    (hp : p.Shaped) (hc : ∀ e ∈ c.entries, e.2.WellFormed) (h : p.swapContext c = .ok b) :
    b.1.Shaped ∧ ∀ e ∈ b.2.entries, e.2.WellFormed := by
  unfold Program.swapContext at h
  split at h
  · cases h
    exact ⟨⟨hc, hp.body⟩, hp.entries⟩
  · cases h

theorem Program.Shaped.swapBody {p : Program} {s : Statement} {b : Program × Statement}
    (hp : p.Shaped) (hs : s.WellFormed) (h : p.swapBody s = .ok b) :
    b.1.Shaped ∧ b.2.WellFormed := by
  unfold Program.swapBody at h
  split at h
  · cases h
    exact ⟨⟨hp.entries, hs⟩, hp.body⟩
  · cases h

/-- **Programs.** What is read is well formed, and what is not read as a whole is not written. -/
theorem Reader.keeps_program {P : Program → Prop} (hP : ∀ p, p.WellFormed → P p) :
    Keeps (Reader.OnTarget P) Reader.program fun _ => True := by
  intro st hp
  obtain ⟨q, p⟩ := st
  rcases Reader.program_outcome q with ⟨parts, m, h⟩ | ⟨f, m, h⟩
  · obtain ⟨ws, -, hw⟩ := (Reader.program_eq_ok_iff.1 (h p)).1
    rw [h]
    exact ⟨hP _ (Grammar.isProgram_iff.1 hw).1, trivial⟩
  · rw [h]
    exact hp

end BL
