import BL.Proofs.Reading.Detached
import BL.Proofs.Reading.Failure

namespace BL

open Grammar TokenQueue

/-!
# What stays in the target when reading fails

A block goes into its target statement by statement, a conditional when its branches are read, and
every other statement as a whole.  Everything inside a statement is read into targets of its own, so
that a failure further down says nothing about the target outside:

* `TokenQueue.StopsAtClosing` — the queue begins with a conditional that is refused where it should
  be closed;
* `Reader.Leaves`, `Reader.Restores` — what a failure leaves in the target, and steps whose failures
  leave it as it was;
* `Reader.restores_loopOf`, `Reader.restores_alternativeOf` — every construct writes its target in
  its last step, except that a conditional closes behind it;
* `Reader.ReadsItems.statementOf_leaves_iff` — what a statement leaves;
* `Reader.items_leaves_iff` — what a block leaves, by induction on the number of steps;
* `Reader.target_of_failure` — the same for statements and blocks of any tokens.
-/

/-! ### Statements in front of a refused one -/

namespace TokenQueue

variable {q m m' : TokenQueue} {s s' : Statement} {ss ts : List Statement} {f : Fault}

/-- The queue begins with the conditional `t`, as far as its branches go, and where it should be
    closed a token is refused. -/
def StopsAtClosing (q : TokenQueue) (f : Fault) (t : Statement) : Prop :=
  ∃ c ss m m', q.Gives ["IF", Condition.spelling c, "THEN"] m ∧ m.GivesBlock ss m' ∧
    ((t = .ifThen c (.block ss) ∧
        m'.StopsWith (RefusesClosing [Token.endText] "IF" (.missingKeyword "IF")) f) ∨
      ∃ ts l l', m'.Gives ["ELSE"] l ∧ l.GivesBlock ts l' ∧
        t = .ifElse c (.block ss) (.block ts) ∧
        l'.StopsWith (RefusesClosing [Token.endText, "ELSE"] "IF" (.missingKeyword "IF")) f)

/-- A queue begins with at most one statement. -/
theorem GivesStatement.unique (h : q.GivesStatement s m) (h' : q.GivesStatement s' m') :
    s = s' ∧ m = m' := by
  have hread := (Reader.statement_eq_ok_iff (s := .empty) (u := ())).2 h
  have hread' := (Reader.statement_eq_ok_iff (s := .empty) (u := ())).2 h'
  obtain ⟨-, rfl, rfl⟩ := Reader.ok_eq_ok_iff.1 (hread.symm.trans hread')
  exact ⟨rfl, rfl⟩

/-- Where a statement is refused, none begins. -/
theorem GivesStatement.not_stopsWith (h : q.GivesStatement s m) :
    ¬ q.StopsWith (Refuses .statement) f := by
  intro hs
  have hread := (Reader.statement_eq_ok_iff (s := .empty) (u := ())).2 h
  exact Reader.not_fails_of_eq_ok hread (Reader.statement_fails_iff.2 hs)

/-- **Complete statements.** Those in front of a refused one are all that the queue begins with. -/
theorem GivesBlock.prefix_of_stopsWith (h : q.GivesBlock ss m)
    (hm : m.StopsWith (Refuses .statement) f) (h' : q.GivesBlock ts m') : ts <+: ss := by
  induction ts generalizing q ss with
  | nil => exact List.nil_prefix
  | cons t ts ih =>
    obtain ⟨l, ht, hts⟩ := givesBlock_cons_iff.1 h'
    cases ss with
    | nil =>
      obtain rfl := givesBlock_nil_iff.1 h
      exact absurd hm ht.not_stopsWith
    | cons s ss =>
      obtain ⟨l', hs, hss⟩ := givesBlock_cons_iff.1 h
      obtain ⟨rfl, rfl⟩ := ht.unique hs
      exact List.cons_prefix_cons.2 ⟨rfl, ih hss hts⟩

end TokenQueue

namespace Reader

variable {τ α β : Type} {q m : TokenQueue} {s t : τ} {f : Fault}

/-! ### What a failure leaves -/

/-- The step fails with the fault, and the target is left as `t`. -/
def Leaves (x : Reader τ α) (q : TokenQueue) (s : τ) (f : Fault) (t : τ) : Prop :=
  ∃ r, x ⟨q, s⟩ = .error f ⟨r, t⟩

theorem Leaves.fails {x : Reader τ α} (h : Leaves x q s f t) : Fails x ⟨q, s⟩ f := by
  obtain ⟨r, h⟩ := h
  exact ⟨_, h⟩

/-- Every failure leaves some target. -/
theorem Fails.exists_leaves {x : Reader τ α} (h : Fails x ⟨q, s⟩ f) : ∃ t, Leaves x q s f t := by
  obtain ⟨⟨r, t⟩, h⟩ := h
  exact ⟨t, r, h⟩

theorem Leaves.unique {x : Reader τ α} {t' : τ} (h : Leaves x q s f t) (h' : Leaves x q s f t') :
    t = t' := by
  obtain ⟨r, h⟩ := h
  obtain ⟨r', h'⟩ := h'
  cases h.symm.trans h'
  rfl

/-- Two steps leave what the first one leaves, or the second one behind it. -/
theorem bind_leaves_iff {x : Reader τ α} {g : α → Reader τ β} :
    Leaves (x >>= g) q s f t ↔
      Leaves x q s f t ∨ ∃ a m u, x ⟨q, s⟩ = .ok a ⟨m, u⟩ ∧ Leaves (g a) m u f t := by
  unfold Leaves
  rw [bind_eq]
  cases x ⟨q, s⟩ with
  | ok a st =>
    constructor
    · intro h
      exact .inr ⟨a, st.queue, st.target, rfl, h⟩
    · rintro (⟨r, h⟩ | ⟨a, m, u, h, h'⟩)
      · cases h
      · cases h
        exact h'
  | error e st => simp

theorem peek_bind_leaves_iff {g : Token → Reader τ β} :
    Leaves (peek >>= g) q s f t ↔ Leaves (g q.front) q s f t := by
  rw [Leaves, peek_bind]
  rfl

theorem not_pure_leaves {a : α} : ¬ Leaves (pure a : Reader τ α) q s f t :=
  fun h => not_pure_fails h.fails

/-! ### Steps whose failures leave the target as it was -/

/-- If the step fails, then the target is as it was. -/
def Restores (x : Reader τ α) : Prop := ∀ ⦃q s f t⦄, Leaves x q s f t → t = s

theorem Restores.leaves_iff {x : Reader τ α} (hx : Restores x) :
    Leaves x q s f t ↔ Fails x ⟨q, s⟩ f ∧ t = s := by
  constructor
  · intro h
    exact ⟨h.fails, hx h⟩
  · rintro ⟨h, rfl⟩
    obtain ⟨u, hu⟩ := h.exists_leaves
    exact hx hu ▸ hu

theorem Detached.restores {x : Reader τ α} (hx : Detached x) : Restores x := by
  rintro q s f t ⟨r, h⟩
  rcases hx q with ⟨a, m, hx⟩ | ⟨e, m, hx⟩
  · rw [hx] at h
    cases h
  · rw [hx] at h
    cases h
    rfl

/-- Steps without regard to the target may come in front. -/
theorem Detached.bind_restores {x : Reader τ α} {g : α → Reader τ β} (hx : Detached x)
    (hg : ∀ a, Restores (g a)) : Restores (x >>= g) := by
  intro q s f t h
  rcases bind_leaves_iff.1 h with h | ⟨a, m, u, ha, h⟩
  · exact hx.restores h
  · -- The step in front gives the same target as it was given.
    rcases hx q with ⟨b, l, hb⟩ | ⟨e, l, he⟩
    · cases (hb s).symm.trans ha
      exact hg a h
    · cases (he s).symm.trans ha

theorem Restores.ite {c : Prop} [Decidable c] {x y : Reader τ α} (hx : Restores x)
    (hy : Restores y) : Restores (if c then x else y) := by
  split
  · exact hx
  · exact hy

/-- A change of the target that fails has changed nothing. -/
theorem restores_update (g : τ → Except Violation τ) : Restores (update g) := by
  rintro q s f t ⟨r, h⟩
  unfold update at h
  cases hg : g s with
  | ok u =>
    rw [hg] at h
    cases h
  | error v =>
    rw [hg] at h
    cases h
    rfl

/-! ### Constructs, given how the statements of a block are read -/

theorem restores_call : Restores call :=
  detached_identifier.bind_restores fun _ => restores_update _

/-- **Loops** write their target in the last step. -/
theorem restores_loopOf (R : Reader Statement Unit) : Restores (loopOf R) :=
  detached_loopOpening.bind_restores fun _ => (detached_newBlock R).bind_restores fun _ =>
    (detached_expect _).bind_restores fun _ => (detached_expect _).bind_restores fun _ =>
      restores_update _

/-- So do conditionals, up to the words that close them. -/
theorem restores_alternativeOf (R : Reader Statement Unit) (c : Condition) (body : Statement) :
    Restores (alternativeOf R c body) :=
  detached_peek.bind_restores fun _ => .ite
    ((detached_expect _).bind_restores fun _ => (detached_newBlock R).bind_restores fun _ =>
      restores_update _)
    (restores_update _)

/-- The words that close a conditional are read beside the target. -/
theorem detached_ifClosers :
    Detached (do let _ ← expect "END"
                 let _ ← expect "IF" : Reader τ Unit) :=
  (detached_expect _).bind fun _ => (detached_expect _).bind fun _ => detached_pure _

section

variable {n : Nat} {R : Reader Statement Unit} {s t : Statement}

/-- Where a conditional fails, the target is as it was, unless the closing words are refused. -/
theorem ReadsItems.eq_or_stopsAtClosing (hR : ReadsItems n R) (hq : q.size ≤ n + 1)
    (h : Leaves (conditionalOf R) q s f t) : t = s ∨ q.StopsAtClosing f t := by
  rcases bind_leaves_iff.1 h with ho | ⟨c, m, _, ho, h₁⟩
  · exact .inl (detached_conditionalOpening.restores ho)
  obtain ⟨hc, rfl⟩ := conditionalOpening_eq_ok_iff.1 ho
  have hm := hc.size_lt
  rcases bind_leaves_iff.1 h₁ with hb | ⟨_, m', _, hb, h₂⟩
  · exact .inl ((detached_newBlock R).restores hb)
  obtain ⟨ss, hss, he, rfl, rfl⟩ := (hR.newBlock_eq_ok_iff (by omega)).1 hb
  have hm' := hss.size_le
  rcases bind_leaves_iff.1 h₂ with ha | ⟨_, l', _, ha, h₃⟩
  · exact .inl (restores_alternativeOf R c _ ha)
  · -- The target is written, and the closing words are all that is left to read.
    obtain ⟨hfails, rfl⟩ := detached_ifClosers.restores.leaves_iff.1 h₃
    exact .inr ⟨c, ss, m, m', hc, hss, (hR.unclosed_iff (by omega) c ss).1 ⟨he, l', ha, hfails⟩⟩

/-- Where the closing words are refused, the target is the conditional. -/
theorem ReadsItems.leaves_of_stopsAtClosing (hR : ReadsItems n R) (hq : q.size ≤ n + 1)
    (h : q.StopsAtClosing f t) : Leaves (conditionalOf R) q s f t := by
  obtain ⟨c, ss, m, m', hc, hss, h⟩ := h
  have hm := hc.size_lt
  have hm' := hss.size_le
  obtain ⟨he, l', ha, hfails⟩ := (hR.unclosed_iff (t := s) (by omega) c ss).2 h
  -- The steps in their order, up to the one that fails.
  have hopen : conditionalOpening ⟨q, s⟩ = .ok c ⟨m, s⟩ :=
    conditionalOpening_eq_ok_iff.2 ⟨hc, rfl⟩
  have hbranch : newBlock R ⟨m, s⟩ = .ok (.block ss) ⟨m', s⟩ :=
    (hR.newBlock_eq_ok_iff (by omega)).2 ⟨ss, hss, he, rfl, rfl⟩
  have hclose := detached_ifClosers.restores.leaves_iff.2 ⟨hfails, rfl⟩
  refine bind_leaves_iff.2 (.inr ⟨c, m, s, hopen, ?_⟩)
  refine bind_leaves_iff.2 (.inr ⟨_, m', s, hbranch, ?_⟩)
  exact bind_leaves_iff.2 (.inr ⟨(), l', t, ha, hclose⟩)

/-- Only conditionals are closed behind their branches. -/
theorem front_of_stopsAtClosing (h : q.StopsAtClosing f t) : q.front.text = "IF" := by
  obtain ⟨c, ss, m, m', hc, -⟩ := h
  exact hc.front_text

/-- **Statements.** Where the closing words of a conditional are refused, the target is this
    conditional.  At any other failure the target is as it was. -/
theorem ReadsItems.statementOf_leaves_iff (hR : ReadsItems n R) (hq : q.size ≤ n + 1) :
    Leaves (statementOf R) q s f t ↔ q.StopsAtClosing f t ∨
      (Fails (statementOf R) ⟨q, s⟩ f ∧ (∀ u, ¬ q.StopsAtClosing f u) ∧ t = s) := by
  have hwritten : ∀ u, q.StopsAtClosing f u → Leaves (statementOf R) q s f u := by
    intro u hu
    rw [statementOf, peek_bind_leaves_iff, if_pos (front_of_stopsAtClosing hu)]
    exact hR.leaves_of_stopsAtClosing hq hu
  have hkept : ∀ u, Leaves (statementOf R) q s f u → u = s ∨ q.StopsAtClosing f u := by
    intro u hu
    rw [statementOf, peek_bind_leaves_iff] at hu
    split at hu
    · exact hR.eq_or_stopsAtClosing hq hu
    · exact .inl ((restores_loopOf R).ite (restores_call.ite (detached_reject _ _).restores) hu)
  constructor
  · intro h
    by_cases hstops : q.StopsAtClosing f t
    · exact .inl hstops
    · refine .inr ⟨h.fails, fun u hu => hstops ?_, (hkept t h).resolve_right hstops⟩
      -- A failure leaves one target only.
      rwa [h.unique (hwritten u hu)]
  · rintro (h | ⟨hfails, hnone, rfl⟩)
    · exact hwritten t h
    · obtain ⟨u, hu⟩ := hfails.exists_leaves
      obtain rfl := (hkept u hu).resolve_right (hnone u)
      exact hu

/-! ### The statements of a block -/

/-- One step of reading the statements of a block: a refused statement leaves those before it, and
    any other one is among those before when a later one is refused. -/
theorem ReadsItems.items_succ_leaves_iff (hR : ReadsItems n (items n))
    (hF : RefusesItems n (items n)) (hq : q.size ≤ n + 1) {ss : List Statement} :
    Leaves (items (n + 1)) q (.block ss) f t ↔
      (endsBlock q.front = false ∧ q.StopsWith (Refuses .statement) f ∧ t = .block ss) ∨
        ∃ child m, q.GivesStatement child m ∧
          Leaves (items n) m (.block (ss ++ [child])) f t := by
  rw [items, peek_bind_leaves_iff]
  by_cases he : endsBlock q.front = true
  · -- Where a block ends no step fails, and no statement begins there either.
    rw [if_pos he]
    simp only [not_pure_leaves, he, Bool.true_eq_false, false_and, false_or, false_iff]
    rintro ⟨child, m, hchild, -⟩
    exact absurd he (by simp [hchild.endsBlock_eq_false])
  · rw [if_neg he, bind_leaves_iff, (detached_fresh _ _).restores.leaves_iff, fresh_fails_iff,
      hF.statementOf_fails_iff hR hq]
    simp only [he, true_and]
    refine or_congr_right ?_
    constructor
    · rintro ⟨⟨_, child⟩, m, _, hf, h⟩
      obtain ⟨hs, rfl⟩ := fresh_eq_ok_iff.1 hf
      have hchild := (hR.statementOf_eq_ok_iff hq).1 hs
      have happend : append child ⟨m, .block ss⟩ = .ok () ⟨m, .block (ss ++ [child])⟩ :=
        (append_eq_ok_iff hchild.kind_ne_block).2 ⟨rfl, rfl⟩
      rw [Leaves, bind_eq, happend] at h
      exact ⟨child, m, hchild, h⟩
    · rintro ⟨child, m, hchild, h⟩
      have hs : statementOf (items n) ⟨q, .empty⟩ = .ok () ⟨m, child⟩ :=
        (hR.statementOf_eq_ok_iff hq).2 hchild
      have happend : append child ⟨m, .block ss⟩ = .ok () ⟨m, .block (ss ++ [child])⟩ :=
        (append_eq_ok_iff hchild.kind_ne_block).2 ⟨rfl, rfl⟩
      exact ⟨((), child), m, .block ss, fresh_eq_ok_iff.2 ⟨hs, rfl⟩,
        bind_leaves_iff.2 (.inr ⟨(), m, _, happend, h⟩)⟩

end

/-- **The statements of a block.** A failure leaves the statements read before, and behind them the
    complete ones in front of the refused one. -/
theorem items_leaves_iff {n : Nat} (hq : q.size ≤ n) (ss : List Statement) {t : Statement} :
    Leaves (items n) q (.block ss) f t ↔
      ∃ ts m, q.GivesBlock ts m ∧ endsBlock m.front = false ∧
        m.StopsWith (Refuses .statement) f ∧ t = .block (ss ++ ts) := by
  -- The induction is over all statements that were read before: each step puts one behind them.
  induction n generalizing q ss with
  | zero => exact absurd hq (by simp [TokenQueue.size])
  | succ n ih =>
    rw [(readsItems_items n).items_succ_leaves_iff (refusesItems_items n) hq]
    constructor
    · rintro (⟨he, hs, rfl⟩ | ⟨child, m, hchild, h⟩)
      · exact ⟨[], q, givesBlock_nil_iff.2 rfl, he, hs, by rw [List.append_nil]⟩
      · have hm := hchild.size_lt
        obtain ⟨ts, l, hts, he, hs, rfl⟩ := (ih (by omega) _).1 h
        exact ⟨child :: ts, l, givesBlock_cons_iff.2 ⟨m, hchild, hts⟩, he, hs, by simp⟩
    · rintro ⟨ts, l, hts, he, hs, rfl⟩
      cases ts with
      | nil =>
        obtain rfl := givesBlock_nil_iff.1 hts
        exact .inl ⟨he, hs, by rw [List.append_nil]⟩
      | cons child ts =>
        obtain ⟨m, hchild, hts⟩ := givesBlock_cons_iff.1 hts
        have hm := hchild.size_lt
        exact .inr ⟨child, m, hchild, (ih (by omega) _).2 ⟨ts, l, hts, he, hs, by simp⟩⟩

/-! ### Statements and blocks -/

section

variable {s t : Statement}

/-- A block is emptied before anything is read. -/
theorem block_leaves_iff :
    Leaves block q s f t ↔ ∃ ss m, q.GivesBlock ss m ∧ endsBlock m.front = false ∧
      m.StopsWith (Refuses .statement) f ∧ t = .block ss := by
  rw [block, blockOf, Leaves, bind_eq]
  exact items_leaves_iff (Nat.le_refl q.size) []

theorem statement_leaves_iff :
    Leaves statement q s f t ↔ q.StopsAtClosing f t ∨
      (Fails statement ⟨q, s⟩ f ∧ (∀ u, ¬ q.StopsAtClosing f u) ∧ t = s) :=
  (readsItems_allItems q.size).statementOf_leaves_iff (Nat.le_succ _)

end

/-- **What a failure leaves in the target**, whatever the tokens are and whatever the target was.  A
    block leaves the complete statements in front of the one that is refused, which are all that the
    tokens begin with, and nothing of the refused one.  A statement leaves the target as it was,
    unless it is a conditional that is refused where it should be closed: then the target is this
    conditional, with its condition and its complete branches. -/
theorem target_of_failure (q : TokenQueue) (s : Statement) (f : Fault) (t : Statement) :
    ((∃ r, block ⟨q, s⟩ = .error f ⟨r, t⟩) ↔
      ∃ ss m, q.GivesBlock ss m ∧ endsBlock m.front = false ∧
        m.StopsWith (Refuses .statement) f ∧ (∀ ts l, q.GivesBlock ts l → ts <+: ss) ∧
        t = .block ss) ∧
    ((∃ r, statement ⟨q, s⟩ = .error f ⟨r, t⟩) ↔
      q.StopsAtClosing f t ∨
        (q.StopsWith (Refuses .statement) f ∧ (∀ u, ¬ q.StopsAtClosing f u) ∧ t = s)) := by
  constructor
  · refine block_leaves_iff.trans (exists₂_congr fun ss m => and_congr_right fun hss =>
      and_congr_right fun _ => and_congr_right fun hs => ?_)
    rw [iff_and_self]
    exact fun _ ts l hts => hss.prefix_of_stopsWith hs hts
  · rw [← statement_fails_iff (t := s)]
    exact statement_leaves_iff

/-- A conditional and a loop that both lack the word behind `END`. -/
example :
    (∃ r, statement ⟨ofWords ["IF", "random", "THEN", "move", "END"], .empty⟩ =
      .error (.rejected ⟨.missingKeyword "IF", .endOfInput 1⟩)
        ⟨r, .ifThen .random (.block [.call "move"])⟩) ∧
    ∃ r, statement ⟨ofWords ["WHILE", "random", "DO", "move", "END"], .empty⟩ =
      .error (.rejected ⟨.missingKeyword "WHILE", .endOfInput 1⟩) ⟨r, .empty⟩ :=
  ⟨⟨_, rfl⟩, ⟨_, rfl⟩⟩

end Reader

end BL
