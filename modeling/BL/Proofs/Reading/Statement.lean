import BL.Grammar
import BL.Proofs.Reading.Success
import BL.Reading.Source

namespace BL

open Grammar TokenQueue

/-!
# Reading statements recognises the grammar

The reader of a statement succeeds exactly if the queue begins with the words of one; it then leaves
the tree of these words in its target and the rest in the queue.  The reader of a block does the
same for statements in a row, up to a token that ends a block.

* `TokenQueue.GivesStatement`, `TokenQueue.GivesBlock` — the queue begins with such words;
* `Reader.TakesWord` — what the step between the two keywords of an opening has to do;
* `Reader.ReadsItems` — what a reader for the statements of a block has to do, on queues up to some
  size; it is what the constructs ask of the reader they are given;
* `Reader.ReadsItems.statementOf_eq_ok_iff`, `Reader.readsItems_items` — the constructs do their
  part, and so, by induction on the number of steps, does the reader of a whole block;
* `Reader.statement_eq_ok_iff`, `Reader.block_eq_ok_iff`, `Statement.ofSource_eq_ok_iff` — when
  reading succeeds, and what it gives.
-/

/-! ### Statements and blocks at the front of a queue -/

namespace TokenQueue

variable {q r m : TokenQueue} {s : Statement} {ss : List Statement}

/-- The queue begins with the words of the statement; the other queue is what follows. -/
def GivesStatement (q : TokenQueue) (s : Statement) (r : TokenQueue) : Prop :=
  ∃ ws, q.Gives ws r ∧ IsStatement ws s

/-- The queue begins with the words of the statements; the other queue is what follows. -/
def GivesBlock (q : TokenQueue) (ss : List Statement) (r : TokenQueue) : Prop :=
  ∃ ws, q.Gives ws r ∧ IsBlock ws ss

/-- The tokens of the statement may be named. -/
theorem givesStatement_iff_tokens :
    q.GivesStatement s r ↔ ∃ w, q.toList = w ++ r.toList ∧ IsStatement (w.map Token.text) s := by
  constructor
  · rintro ⟨_, ⟨w, rfl, hw⟩, h⟩
    exact ⟨w, hw, h⟩
  · rintro ⟨w, hw, h⟩
    exact ⟨_, ⟨w, rfl, hw⟩, h⟩

theorem givesBlock_iff_tokens :
    q.GivesBlock ss r ↔ ∃ w, q.toList = w ++ r.toList ∧ IsBlock (w.map Token.text) ss := by
  constructor
  · rintro ⟨_, ⟨w, rfl, hw⟩, h⟩
    exact ⟨w, hw, h⟩
  · rintro ⟨w, hw, h⟩
    exact ⟨_, ⟨w, rfl, hw⟩, h⟩

theorem givesBlock_nil_iff : q.GivesBlock [] r ↔ r = q := by
  constructor
  · rintro ⟨ws, hg, h⟩
    cases h
    exact gives_nil_iff.1 hg
  · intro h
    exact ⟨[], gives_nil_iff.2 h, .nil⟩

theorem givesBlock_cons_iff :
    q.GivesBlock (s :: ss) r ↔ ∃ m, q.GivesStatement s m ∧ m.GivesBlock ss r := by
  constructor
  · rintro ⟨_, hg, h⟩
    cases h with
    | @cons ws vs _ _ hs hss =>
      obtain ⟨m, hm, hr⟩ := gives_append_iff.1 hg
      exact ⟨m, ⟨ws, hm, hs⟩, vs, hr, hss⟩
  · rintro ⟨m, ⟨ws, hm, hs⟩, vs, hr, hss⟩
    exact ⟨ws ++ vs, hm.append hr, .cons hs hss⟩

theorem givesStatement_call_iff {n : String} :
    q.GivesStatement (.call n) r ↔ Word.isIdentifier n = true ∧ q.Gives [n] r := by
  constructor
  · rintro ⟨ws, hg, h⟩
    cases h with
    | call h => exact ⟨h, hg⟩
  · rintro ⟨hn, hg⟩
    exact ⟨[n], hg, .call hn⟩

theorem givesStatement_ifThen_iff {c : Condition} :
    q.GivesStatement (.ifThen c s) r ↔
      ∃ ss m m', s = .block ss ∧ q.Gives ["IF", c.spelling, "THEN"] m ∧ m.GivesBlock ss m' ∧
        m'.Gives ["END", "IF"] r := by
  constructor
  · rintro ⟨_, hg, h⟩
    cases h with
    | @ifThen ws ss _ h =>
      obtain ⟨m, hm, hg⟩ := gives_opening_iff.1 hg
      obtain ⟨m', hm', hr⟩ := gives_append_iff.1 hg
      exact ⟨ss, m, m', rfl, hm, ⟨ws, hm', h⟩, hr⟩
  · rintro ⟨ss, m, m', rfl, hm, ⟨ws, hm', h⟩, hr⟩
    exact ⟨_, hm.append (hm'.append hr), .ifThen c h⟩

theorem givesStatement_ifElse_iff {c : Condition} {t : Statement} :
    q.GivesStatement (.ifElse c s t) r ↔
      ∃ ss ts m m' l l', s = .block ss ∧ t = .block ts ∧
        q.Gives ["IF", c.spelling, "THEN"] m ∧ m.GivesBlock ss m' ∧ m'.Gives ["ELSE"] l ∧
        l.GivesBlock ts l' ∧ l'.Gives ["END", "IF"] r := by
  constructor
  · rintro ⟨_, hg, h⟩
    cases h with
    | @ifElse ws vs ss ts _ h h' =>
      obtain ⟨m, hm, hg⟩ := gives_opening_iff.1 hg
      obtain ⟨m', hm', hg⟩ := gives_append_iff.1 hg
      obtain ⟨l, hl, hg⟩ := gives_cons_iff.1 hg
      obtain ⟨l', hl', hr⟩ := gives_append_iff.1 hg
      exact ⟨ss, ts, m, m', l, l', rfl, rfl, hm, ⟨ws, hm', h⟩, hl, ⟨vs, hl', h'⟩, hr⟩
  · rintro ⟨ss, ts, m, m', l, l', rfl, rfl, hm, ⟨ws, hm', h⟩, hl, ⟨vs, hl', h'⟩, hr⟩
    exact ⟨_, hm.append (hm'.append (hl.append (hl'.append hr))), .ifElse c h h'⟩

theorem givesStatement_whileDo_iff {c : Condition} :
    q.GivesStatement (.whileDo c s) r ↔
      ∃ ss m m', s = .block ss ∧ q.Gives ["WHILE", c.spelling, "DO"] m ∧ m.GivesBlock ss m' ∧
        m'.Gives ["END", "WHILE"] r := by
  constructor
  · rintro ⟨_, hg, h⟩
    cases h with
    | @whileDo ws ss _ h =>
      obtain ⟨m, hm, hg⟩ := gives_opening_iff.1 hg
      obtain ⟨m', hm', hr⟩ := gives_append_iff.1 hg
      exact ⟨ss, m, m', rfl, hm, ⟨ws, hm', h⟩, hr⟩
  · rintro ⟨ss, m, m', rfl, hm, ⟨ws, hm', h⟩, hr⟩
    exact ⟨_, hm.append (hm'.append hr), .whileDo c h⟩

/-- The first token tells which construct the statement is. -/
theorem GivesStatement.front_text (h : q.GivesStatement s r) :
    (q.front.text = "IF" ∧ (s.kind = .ifThen ∨ s.kind = .ifElse)) ∨
      (q.front.text = "WHILE" ∧ s.kind = .whileDo) ∨
      (Word.isIdentifier q.front.text = true ∧ s = .call q.front.text) := by
  obtain ⟨ws, hg, h⟩ := h
  cases h with
  | call h => exact .inr (.inr ⟨by rwa [hg.front_text], by rw [hg.front_text]⟩)
  | ifThen c h => exact .inl ⟨hg.front_text, .inl rfl⟩
  | ifElse c h h' => exact .inl ⟨hg.front_text, .inr rfl⟩
  | whileDo c h => exact .inr (.inl ⟨hg.front_text, rfl⟩)

/-- A statement that begins with `IF` is a conditional. -/
theorem GivesStatement.kind_of_if (h : q.GivesStatement s r) (hif : q.front.text = "IF") :
    s.kind = .ifThen ∨ s.kind = .ifElse := by
  rcases h.front_text with ⟨-, hk⟩ | ⟨hw, -⟩ | ⟨hi, -⟩
  · exact hk
  · exact absurd (hif.symm.trans hw) (by decide)
  · exact absurd (hif ▸ hi) (by decide)

/-- A statement that begins with `WHILE` is a loop. -/
theorem GivesStatement.kind_of_while (h : q.GivesStatement s r) (hwhile : q.front.text = "WHILE") :
    s.kind = .whileDo := by
  rcases h.front_text with ⟨hi, -⟩ | ⟨-, hk⟩ | ⟨hi, -⟩
  · exact absurd (hwhile.symm.trans hi) (by decide)
  · exact hk
  · exact absurd (hwhile ▸ hi) (by decide)

/-- A statement that begins with neither keyword is a call. -/
theorem GivesStatement.eq_call (h : q.GivesStatement s r) (hif : q.front.text ≠ "IF")
    (hwhile : q.front.text ≠ "WHILE") :
    Word.isIdentifier q.front.text = true ∧ s = .call q.front.text := by
  rcases h.front_text with ⟨hi, -⟩ | ⟨hw, -⟩ | hcall
  · exact absurd hi hif
  · exact absurd hw hwhile
  · exact hcall

theorem GivesStatement.kind_ne_block (h : q.GivesStatement s r) : s.kind ≠ .block := by
  obtain ⟨ws, -, h⟩ := h
  exact (isStatement_iff.1 h).2.1

/-- A statement takes at least one token. -/
theorem GivesStatement.size_lt (h : q.GivesStatement s r) : r.size < q.size := by
  obtain ⟨ws, hg, h⟩ := h
  cases h <;> exact hg.size_lt

/-- No statement begins with a token that ends a block. -/
theorem GivesStatement.endsBlock_eq_false (h : q.GivesStatement s r) :
    Reader.endsBlock q.front = false := by
  rcases h.front_text with ⟨ht, -⟩ | ⟨ht, -⟩ | ⟨hi, -⟩
  · rw [Reader.endsBlock, Token.isEnd, ht]
    decide
  · rw [Reader.endsBlock, Token.isEnd, ht]
    decide
  · -- The three texts that end a block are no identifiers.
    by_contra he
    simp only [Reader.endsBlock, Token.isEnd, Bool.not_eq_false, Bool.or_eq_true,
      beq_iff_eq] at he
    rcases he with (he | he) | he <;> exact absurd (he ▸ hi) (by decide)

/-- The keyword that closes every construct ends a block. -/
theorem Gives.endsBlock_of_end {ws : List String} (h : q.Gives ("END" :: ws) r) :
    Reader.endsBlock q.front = true := by
  rw [Reader.endsBlock, h.front_text]
  simp

/-- So does the keyword before an alternative. -/
theorem Gives.endsBlock_of_else {ws : List String} (h : q.Gives ("ELSE" :: ws) r) :
    Reader.endsBlock q.front = true := by
  rw [Reader.endsBlock, h.front_text]
  simp

theorem GivesBlock.size_le (h : q.GivesBlock ss r) : r.size ≤ q.size := by
  obtain ⟨ws, hg, -⟩ := h
  rw [hg.size_eq]
  omega

end TokenQueue

namespace Reader

variable {τ : Type} {q r : TokenQueue} {s t : Statement} {u : Unit} {n : Nat}
  {R : Reader Statement Unit}

/-! ### The end of a block -/

/-- The token that ends a block, by its text. -/
theorem endsBlock_iff {e : Token} :
    endsBlock e = true ↔ e.text ∈ [Token.endText, "ELSE", "END"] := by
  simp [endsBlock, Token.isEnd, or_assoc]

/-! ### Openings -/

/-- The step takes one word, which its result spells and which satisfies a condition; it leaves the
    target. -/
def TakesWord {α : Type} (R : Reader τ α) (word : α → String) (P : α → Prop) : Prop :=
  ∀ ⦃q r : TokenQueue⦄ ⦃x y : τ⦄ ⦃a : α⦄,
    R ⟨q, x⟩ = .ok a ⟨r, y⟩ ↔ P a ∧ q.Gives [word a] r ∧ y = x

theorem TakesWord.iff {α : Type} {R : Reader τ α} {word : α → String} {P : α → Prop}
    (hR : TakesWord R word P) {x y : τ} {a : α} :
    R ⟨q, x⟩ = .ok a ⟨r, y⟩ ↔ P a ∧ q.Gives [word a] r ∧ y = x :=
  @hR q r x y a

/-- **Openings.** Each construct but a call opens with one word between two keywords. -/
theorem TakesWord.opening_eq_ok_iff {α : Type} {R : Reader τ α} {word : α → String} {P : α → Prop}
    (hR : TakesWord R word P) {k k' : String} (hk : k ≠ Token.endText) (hk' : k' ≠ Token.endText)
    {x y : τ} {a : α} :
    (do opening k
        let _ ← expect k
        let a ← R
        let _ ← expect k'
        return a : Reader τ α) ⟨q, x⟩ = .ok a ⟨r, y⟩ ↔
      P a ∧ q.Gives [k, word a, k'] r ∧ y = x := by
  simp only [bind_eq_ok_iff, Reader.opening_eq_ok_iff, expect_eq_ok_iff hk, expect_eq_ok_iff hk',
    hR.iff, pure_eq_ok_iff]
  constructor
  · rintro ⟨_, _, _, ⟨-, rfl, rfl⟩, _, m, _, ⟨hm, -, rfl⟩, _, l, _, ⟨ha, hl, rfl⟩, _, r, _,
      ⟨hr, -, rfl⟩, rfl, rfl, rfl⟩
    exact ⟨ha, hm.cons (hl.cons hr), rfl⟩
  · rintro ⟨ha, hg, rfl⟩
    obtain ⟨m, hm, hg⟩ := gives_cons_iff.1 hg
    obtain ⟨l, hl, hr⟩ := gives_cons_iff.1 hg
    exact ⟨(), q, _, ⟨hm.front_text, rfl, rfl⟩, _, m, _, ⟨hm, rfl, rfl⟩, a, l, _, ⟨ha, hl, rfl⟩, _,
      r, _, ⟨hr, rfl, rfl⟩, rfl, rfl, rfl⟩

/-- A condition is one word. -/
theorem takesWord_condition :
    TakesWord (condition : Reader τ Condition) Condition.spelling fun _ => True := by
  intro q r x y c
  rw [condition_eq_ok_iff, true_and]

theorem conditionalOpening_eq_ok_iff {x y : τ} {c : Condition} :
    conditionalOpening ⟨q, x⟩ = .ok c ⟨r, y⟩ ↔ q.Gives ["IF", c.spelling, "THEN"] r ∧ y = x := by
  rw [← true_and (_ ∧ _)]
  exact takesWord_condition.opening_eq_ok_iff (by decide) (by decide)

theorem loopOpening_eq_ok_iff {x y : τ} {c : Condition} :
    loopOpening ⟨q, x⟩ = .ok c ⟨r, y⟩ ↔ q.Gives ["WHILE", c.spelling, "DO"] r ∧ y = x := by
  rw [← true_and (_ ∧ _)]
  exact takesWord_condition.opening_eq_ok_iff (by decide) (by decide)

/-! ### Constructs, given how the statements of a block are read -/

/-- The reader puts the statements that a queue of at most `n` tokens begins with behind those in
    its target, up to the token that ends the block; it succeeds only if there is one. -/
def ReadsItems (n : Nat) (R : Reader Statement Unit) : Prop :=
  ∀ ⦃q : TokenQueue⦄, q.size ≤ n → ∀ (ss : List Statement) (r : TokenQueue) (t : Statement),
    R ⟨q, .block ss⟩ = .ok () ⟨r, t⟩ ↔
      ∃ ts, q.GivesBlock ts r ∧ endsBlock r.front = true ∧ t = .block (ss ++ ts)

/-- A block of its own leaves the present target as it is. -/
theorem ReadsItems.newBlock_eq_ok_iff (hR : ReadsItems n R) (hq : q.size ≤ n) {x y : τ} :
    newBlock R ⟨q, x⟩ = .ok t ⟨r, y⟩ ↔
      ∃ ts, q.GivesBlock ts r ∧ endsBlock r.front = true ∧ t = .block ts ∧ y = x := by
  have hput : ∀ v, blockOf R ⟨q, .empty⟩ = .ok () ⟨r, v⟩ ↔ R ⟨q, .block []⟩ = .ok () ⟨r, v⟩ := by
    intro v
    rw [blockOf, bind_eq]
    rfl
  rw [newBlock, bind_eq_ok_iff]
  constructor
  · rintro ⟨⟨_, v⟩, m, z, hf, hp⟩
    obtain ⟨hb, rfl⟩ := fresh_eq_ok_iff.1 hf
    obtain ⟨rfl, rfl, rfl⟩ := pure_eq_ok_iff.1 hp
    obtain ⟨ts, hts, he, rfl⟩ := (hR hq [] r t).1 ((hput t).1 hb)
    exact ⟨ts, hts, he, rfl, rfl⟩
  · rintro ⟨ts, hts, he, rfl, rfl⟩
    have hf := (hput (.block ts)).2 ((hR hq [] r (.block ts)).2 ⟨ts, hts, he, rfl⟩)
    exact ⟨((), .block ts), r, _, fresh_eq_ok_iff.2 ⟨hf, rfl⟩, pure_eq_ok_iff.2 ⟨rfl, rfl, rfl⟩⟩

/-- Two keywords close a conditional or a loop. -/
theorem closers_eq_ok_iff {x y : τ} {k k' : String} (hk : k ≠ Token.endText)
    (hk' : k' ≠ Token.endText) :
    (do let _ ← expect k
        let _ ← expect k' : Reader τ Unit) ⟨q, x⟩ = .ok u ⟨r, y⟩ ↔ q.Gives [k, k'] r ∧ y = x := by
  simp only [expect_bind_eq_ok_iff hk, expect_bind_eq_ok_iff hk', pure_eq_ok_iff]
  constructor
  · rintro ⟨m, hm, l, hl, -, rfl, rfl⟩
    exact ⟨hm.cons hl, rfl⟩
  · rintro ⟨hg, rfl⟩
    obtain ⟨m, hm, hr⟩ := gives_cons_iff.1 hg
    exact ⟨m, hm, r, hr, trivial, rfl, rfl⟩

/-- Behind the first branch of a conditional: with the keyword there is a second one, without it
    the conditional has only one. -/
theorem ReadsItems.alternativeOf_eq_ok_iff (hR : ReadsItems n R) (hq : q.size ≤ n) {c : Condition}
    {ss : List Statement} :
    alternativeOf R c (.block ss) ⟨q, s⟩ = .ok u ⟨r, t⟩ ↔
      if q.front.text = "ELSE" then
        ∃ ts m, q.Gives ["ELSE"] m ∧ m.GivesBlock ts r ∧ endsBlock r.front = true ∧
          t = .ifElse c (.block ss) (.block ts)
      else r = q ∧ t = .ifThen c (.block ss) := by
  rw [alternativeOf, peek_bind]
  by_cases h : q.front.text = "ELSE"
  · rw [if_pos h, if_pos h, expect_bind_eq_ok_iff (by decide)]
    constructor
    · rintro ⟨m, hm, hb⟩
      obtain ⟨v, l, y, hv, hu⟩ := bind_eq_ok_iff.1 hb
      have hsize := hm.size_lt
      obtain ⟨ts, hts, he, rfl, rfl⟩ := (hR.newBlock_eq_ok_iff (by omega)).1 hv
      obtain ⟨ha, rfl⟩ := update_eq_ok_iff.1 hu
      rw [Statement.assembleIfElse_some rfl rfl] at ha
      cases ha
      exact ⟨ts, m, hm, hts, he, rfl⟩
    · rintro ⟨ts, m, hm, hts, he, rfl⟩
      have hsize := hm.size_lt
      have hbranch : newBlock R ⟨m, s⟩ = .ok (.block ts) ⟨r, s⟩ :=
        (hR.newBlock_eq_ok_iff (by omega)).2 ⟨ts, hts, he, rfl, rfl⟩
      have hwrite : Statement.assembleIfElse (some c) (.block ss) (.block ts)
          = .ok (.ifElse c (.block ss) (.block ts)) := Statement.assembleIfElse_some rfl rfl
      exact ⟨m, hm, bind_eq_ok_iff.2 ⟨.block ts, r, s, hbranch,
        update_eq_ok_iff.2 ⟨hwrite, rfl⟩⟩⟩
  · rw [if_neg h, if_neg h, update_eq_ok_iff, Statement.assembleIf_some rfl, Except.ok.injEq]
    constructor
    · rintro ⟨rfl, rfl⟩
      exact ⟨rfl, rfl⟩
    · rintro ⟨rfl, rfl⟩
      exact ⟨rfl, rfl⟩

/-- **Conditionals.** They are read exactly if the queue begins with one. -/
theorem ReadsItems.conditionalOf_eq_ok_iff (hR : ReadsItems n R) (hq : q.size ≤ n + 1) :
    conditionalOf R ⟨q, s⟩ = .ok u ⟨r, t⟩ ↔
      q.GivesStatement t r ∧ (t.kind = .ifThen ∨ t.kind = .ifElse) := by
  -- The opening takes tokens, so that the branches are read from a shorter queue.
  constructor
  · intro h
    obtain ⟨c, m, _, ho, hbody⟩ := bind_eq_ok_iff.1 h
    obtain ⟨hc, rfl⟩ := conditionalOpening_eq_ok_iff.1 ho
    have hm := hc.size_lt
    obtain ⟨_, m', _, hb, hafter⟩ := bind_eq_ok_iff.1 hbody
    obtain ⟨ss, hss, -, rfl, rfl⟩ := (hR.newBlock_eq_ok_iff (by omega)).1 hb
    have hm' := hss.size_le
    obtain ⟨_, l', _, ha, hclose⟩ := bind_eq_ok_iff.1 hafter
    obtain ⟨hend, rfl⟩ := (closers_eq_ok_iff (by decide) (by decide)).1 hclose
    rw [hR.alternativeOf_eq_ok_iff (by omega)] at ha
    split at ha
    · obtain ⟨ts, l, hl, hts, -, rfl⟩ := ha
      exact ⟨givesStatement_ifElse_iff.2
        ⟨ss, ts, m, m', l, l', rfl, rfl, hc, hss, hl, hts, hend⟩, .inr rfl⟩
    · obtain ⟨rfl, rfl⟩ := ha
      exact ⟨givesStatement_ifThen_iff.2 ⟨ss, m, l', rfl, hc, hss, hend⟩, .inl rfl⟩
  · rintro ⟨h, hk⟩
    cases t with
    | block _ | whileDo _ _ | call _ => simp at hk
    | ifThen c b =>
      obtain ⟨ss, m, m', rfl, hc, hss, hend⟩ := givesStatement_ifThen_iff.1 h
      have hm := hc.size_lt
      have hm' := hss.size_le
      have hopen : conditionalOpening ⟨q, s⟩ = .ok c ⟨m, s⟩ :=
        conditionalOpening_eq_ok_iff.2 ⟨hc, rfl⟩
      have hbranch : newBlock R ⟨m, s⟩ = .ok (.block ss) ⟨m', s⟩ :=
        (hR.newBlock_eq_ok_iff (by omega)).2 ⟨ss, hss, hend.endsBlock_of_end, rfl, rfl⟩
      -- The branch ends before `END`, and no second one begins there.
      have hnone : alternativeOf R c (.block ss) ⟨m', s⟩ = .ok () ⟨m', .ifThen c (.block ss)⟩ := by
        rw [hR.alternativeOf_eq_ok_iff (by omega), if_neg (by rw [hend.front_text]; decide)]
        exact ⟨rfl, rfl⟩
      exact bind_eq_ok_iff.2 ⟨c, m, s, hopen, bind_eq_ok_iff.2 ⟨.block ss, m', s, hbranch,
        bind_eq_ok_iff.2 ⟨(), m', _, hnone,
          (closers_eq_ok_iff (by decide) (by decide)).2 ⟨hend, rfl⟩⟩⟩⟩
    | ifElse c b b' =>
      obtain ⟨ss, ts, m, m', l, l', rfl, rfl, hc, hss, hl, hts, hend⟩ :=
        givesStatement_ifElse_iff.1 h
      have hm := hc.size_lt
      have hm' := hss.size_le
      have hopen : conditionalOpening ⟨q, s⟩ = .ok c ⟨m, s⟩ :=
        conditionalOpening_eq_ok_iff.2 ⟨hc, rfl⟩
      -- The first branch ends before `ELSE`, the second one before `END`.
      have hbranch : newBlock R ⟨m, s⟩ = .ok (.block ss) ⟨m', s⟩ :=
        (hR.newBlock_eq_ok_iff (by omega)).2 ⟨ss, hss, hl.endsBlock_of_else, rfl, rfl⟩
      have hother : alternativeOf R c (.block ss) ⟨m', s⟩
          = .ok () ⟨l', .ifElse c (.block ss) (.block ts)⟩ := by
        rw [hR.alternativeOf_eq_ok_iff (by omega), if_pos hl.front_text]
        exact ⟨ts, l, hl, hts, hend.endsBlock_of_end, rfl⟩
      exact bind_eq_ok_iff.2 ⟨c, m, s, hopen, bind_eq_ok_iff.2 ⟨.block ss, m', s, hbranch,
        bind_eq_ok_iff.2 ⟨(), l', _, hother,
          (closers_eq_ok_iff (by decide) (by decide)).2 ⟨hend, rfl⟩⟩⟩⟩

/-- **Loops.** They are read exactly if the queue begins with one. -/
theorem ReadsItems.loopOf_eq_ok_iff (hR : ReadsItems n R) (hq : q.size ≤ n + 1) :
    loopOf R ⟨q, s⟩ = .ok u ⟨r, t⟩ ↔ q.GivesStatement t r ∧ t.kind = .whileDo := by
  constructor
  · intro h
    obtain ⟨c, m, _, ho, hbody⟩ := bind_eq_ok_iff.1 h
    obtain ⟨hc, rfl⟩ := loopOpening_eq_ok_iff.1 ho
    have hm := hc.size_lt
    obtain ⟨_, m', _, hb, hafter⟩ := bind_eq_ok_iff.1 hbody
    obtain ⟨ss, hss, -, rfl, rfl⟩ := (hR.newBlock_eq_ok_iff (by omega)).1 hb
    obtain ⟨l, hl, hafter⟩ := (expect_bind_eq_ok_iff (by decide)).1 hafter
    obtain ⟨l', hl', hafter⟩ := (expect_bind_eq_ok_iff (by decide)).1 hafter
    obtain ⟨ha, rfl⟩ := update_eq_ok_iff.1 hafter
    rw [Statement.assembleWhile_some rfl] at ha
    cases ha
    exact ⟨givesStatement_whileDo_iff.2 ⟨ss, m, m', rfl, hc, hss, hl.cons hl'⟩, rfl⟩
  · rintro ⟨h, hk⟩
    cases t with
    | block _ | ifThen _ _ | ifElse _ _ _ | call _ => simp at hk
    | whileDo c b =>
      obtain ⟨ss, m, m', rfl, hc, hss, hend⟩ := givesStatement_whileDo_iff.1 h
      have hm := hc.size_lt
      obtain ⟨l, hl, hl'⟩ := gives_cons_iff.1 hend
      have hopen : loopOpening ⟨q, s⟩ = .ok c ⟨m, s⟩ := loopOpening_eq_ok_iff.2 ⟨hc, rfl⟩
      have hbody : newBlock R ⟨m, s⟩ = .ok (.block ss) ⟨m', s⟩ :=
        (hR.newBlock_eq_ok_iff (by omega)).2 ⟨ss, hss, hend.endsBlock_of_end, rfl, rfl⟩
      have hwrite : Statement.assembleWhile (some c) (.block ss) = .ok (.whileDo c (.block ss)) :=
        Statement.assembleWhile_some rfl
      exact bind_eq_ok_iff.2 ⟨c, m, s, hopen, bind_eq_ok_iff.2 ⟨.block ss, m', s, hbody,
        (expect_bind_eq_ok_iff (by decide)).2 ⟨l, hl, (expect_bind_eq_ok_iff (by decide)).2
          ⟨r, hl', update_eq_ok_iff.2 ⟨hwrite, rfl⟩⟩⟩⟩⟩

/-- **Calls.** They are read exactly if the queue begins with one. -/
theorem call_eq_ok_iff :
    call ⟨q, s⟩ = .ok u ⟨r, t⟩ ↔ q.GivesStatement t r ∧ t.kind = .call := by
  constructor
  · intro h
    obtain ⟨a, m, _, hi, hu⟩ := bind_eq_ok_iff.1 h
    obtain ⟨hn, hg, -, rfl⟩ := identifier_eq_ok_iff.1 hi
    obtain ⟨ha, rfl⟩ := update_eq_ok_iff.1 hu
    rw [Statement.assembleCall_some hn] at ha
    cases ha
    exact ⟨givesStatement_call_iff.2 ⟨hn, hg⟩, rfl⟩
  · rintro ⟨h, hk⟩
    cases t with
    | block _ | ifThen _ _ | ifElse _ _ _ | whileDo _ _ => simp at hk
    | call name =>
      obtain ⟨hn, hg⟩ := givesStatement_call_iff.1 h
      obtain rfl : q.front.text = name := hg.front_text
      have hname : identifier ⟨q, s⟩ = .ok q.front ⟨r, s⟩ :=
        identifier_eq_ok_iff.2 ⟨hn, hg, rfl, rfl⟩
      exact bind_eq_ok_iff.2 ⟨q.front, r, s, hname,
        update_eq_ok_iff.2 ⟨Statement.assembleCall_some hn, rfl⟩⟩

/-- **Statements.** A reader that does its part for the statements of a block makes one that reads
    statements, from queues with one token more. -/
theorem ReadsItems.statementOf_eq_ok_iff (hR : ReadsItems n R) (hq : q.size ≤ n + 1) :
    statementOf R ⟨q, s⟩ = .ok u ⟨r, t⟩ ↔ q.GivesStatement t r := by
  rw [statementOf, peek_bind]
  -- The first token decides, for the reader as for the grammar.
  by_cases hif : q.front.text = "IF"
  · rw [if_pos hif, hR.conditionalOf_eq_ok_iff hq, and_iff_left_iff_imp]
    intro h
    exact h.kind_of_if hif
  rw [if_neg hif]
  by_cases hwhile : q.front.text = "WHILE"
  · rw [if_pos hwhile, hR.loopOf_eq_ok_iff hq, and_iff_left_iff_imp]
    intro h
    exact h.kind_of_while hwhile
  rw [if_neg hwhile]
  by_cases hname : Word.isIdentifier q.front.text = true
  · rw [if_pos hname, call_eq_ok_iff, and_iff_left_iff_imp]
    intro h
    rw [(h.eq_call hif hwhile).2, Statement.kind_call]
  · rw [if_neg hname]
    constructor
    · intro h
      cases h
    · intro h
      exact absurd (h.eq_call hif hwhile).1 hname

/-! ### The statements of a block -/

/-- A statement goes behind the children that are there. -/
theorem append_eq_ok_iff {child : Statement} {ss : List Statement} (hk : child.kind ≠ .block) :
    append child ⟨q, .block ss⟩ = .ok u ⟨r, t⟩ ↔ r = q ∧ t = .block (ss ++ [child]) := by
  have hins : (do
      let n ← (Statement.block ss).blockLength
      (Statement.block ss).insertChild n child) = .ok (.block (ss ++ [child])) := by
    rw [← List.insertIdx_length_self]
    exact Statement.insertChild_block (Nat.le_refl _) hk
  rw [append, update_eq_ok_iff, hins, Except.ok.injEq]
  tauto

/-- One step of reading the statements of a block: it stops in front of a token that ends the block,
    or it takes a statement and puts it behind those read before. -/
theorem ReadsItems.items_succ_eq_ok_iff (hR : ReadsItems n (items n)) (hq : q.size ≤ n + 1)
    {ss : List Statement} :
    items (n + 1) ⟨q, .block ss⟩ = .ok () ⟨r, t⟩ ↔
      (endsBlock q.front = true ∧ r = q ∧ t = .block ss) ∨
        ∃ child m, q.GivesStatement child m ∧
          items n ⟨m, .block (ss ++ [child])⟩ = .ok () ⟨r, t⟩ := by
  rw [items, peek_bind]
  by_cases he : endsBlock q.front = true
  · rw [if_pos he, pure_eq_ok_iff]
    constructor
    · rintro ⟨-, h⟩
      exact .inl ⟨he, h⟩
    · rintro (⟨-, h⟩ | ⟨child, m, hchild, -⟩)
      · exact ⟨rfl, h⟩
      · exact absurd he (by simp [hchild.endsBlock_eq_false])
  · rw [if_neg he]
    constructor
    · intro h
      obtain ⟨⟨_, child⟩, m, _, hf, hrest⟩ := bind_eq_ok_iff.1 h
      obtain ⟨hs, rfl⟩ := fresh_eq_ok_iff.1 hf
      have hchild := (hR.statementOf_eq_ok_iff hq).1 hs
      obtain ⟨_, l, _, ha, hi⟩ := bind_eq_ok_iff.1 hrest
      obtain ⟨rfl, rfl⟩ := (append_eq_ok_iff hchild.kind_ne_block).1 ha
      exact .inr ⟨child, l, hchild, hi⟩
    · rintro (⟨h, -⟩ | ⟨child, m, hchild, hi⟩)
      · exact absurd h he
      · have hs : statementOf (items n) ⟨q, .empty⟩ = .ok () ⟨m, child⟩ :=
          (hR.statementOf_eq_ok_iff hq).2 hchild
        have ha : append child ⟨m, .block ss⟩ = .ok () ⟨m, .block (ss ++ [child])⟩ :=
          (append_eq_ok_iff hchild.kind_ne_block).2 ⟨rfl, rfl⟩
        exact bind_eq_ok_iff.2 ⟨((), child), m, .block ss, fresh_eq_ok_iff.2 ⟨hs, rfl⟩,
          bind_eq_ok_iff.2 ⟨(), m, .block (ss ++ [child]), ha, hi⟩⟩

/-- **The statements of a block.** As many steps as the queue has tokens are enough. -/
theorem readsItems_items (n : Nat) : ReadsItems n (items n) := by
  -- What is read so far grows from step to step; the reader for shorter queues reads both the
  -- blocks inside the next statement and the statements behind it.
  induction n with
  | zero =>
    intro q hq
    exact absurd hq (by simp [TokenQueue.size])
  | succ n ih =>
    intro q hq ss r t
    rw [ih.items_succ_eq_ok_iff hq]
    constructor
    · rintro (⟨he, rfl, rfl⟩ | ⟨child, m, hchild, hi⟩)
      · exact ⟨[], givesBlock_nil_iff.2 rfl, he, by rw [List.append_nil]⟩
      · have hm := hchild.size_lt
        obtain ⟨ts, hts, he, rfl⟩ := (ih (by omega) _ r t).1 hi
        exact ⟨child :: ts, givesBlock_cons_iff.2 ⟨m, hchild, hts⟩, he, by simp⟩
    · rintro ⟨ts, hts, he, rfl⟩
      cases ts with
      | nil =>
        obtain rfl := givesBlock_nil_iff.1 hts
        exact .inl ⟨he, rfl, by rw [List.append_nil]⟩
      | cons child ts =>
        obtain ⟨m, hchild, hts⟩ := givesBlock_cons_iff.1 hts
        have hm := hchild.size_lt
        exact .inr ⟨child, m, hchild, (ih (by omega) _ r _).2 ⟨ts, hts, he, by simp⟩⟩

/-- The number of tokens bounds the number of steps that are needed. -/
theorem readsItems_allItems (n : Nat) : ReadsItems n allItems :=
  fun q _ ss r t => readsItems_items q.size (Nat.le_refl q.size) ss r t

/-! ### Statements and blocks -/

/-- **Reading a statement** succeeds exactly if the queue begins with one, whatever the target was;
    the target becomes its tree, and the rest is left. -/
theorem statement_eq_ok_iff :
    statement ⟨q, s⟩ = .ok u ⟨r, t⟩ ↔ q.GivesStatement t r :=
  (readsItems_allItems q.size).statementOf_eq_ok_iff (Nat.le_succ _)

/-- **Reading a block** succeeds exactly if the queue begins with statements in a row, behind which
    a token ends the block. -/
theorem block_eq_ok_iff :
    block ⟨q, s⟩ = .ok u ⟨r, t⟩ ↔
      ∃ ts, q.GivesBlock ts r ∧ endsBlock r.front = true ∧ t = .block ts := by
  rw [block, blockOf, bind_eq]
  exact readsItems_allItems q.size (Nat.le_refl _) [] r t

/-- The result of a reader is the target that it leaves behind. -/
theorem result_eq_ok_iff {α : Type} {x : Reader τ α} {y z : τ} :
    x.result q y = .ok z ↔ ∃ a r, x ⟨q, y⟩ = .ok a ⟨r, z⟩ := by
  rw [result]
  constructor
  · intro h
    split at h
    · rename_i a st hx
      cases h
      exact ⟨a, st.queue, hx⟩
    · cases h
  · rintro ⟨a, r, hx⟩
    rw [hx]

/-- A block that fills the input. -/
theorem wholeBlock_eq_ok_iff :
    wholeBlock ⟨q, s⟩ = .ok u ⟨r, t⟩ ↔
      ∃ ts, q.GivesBlock ts r ∧ r.front.isEnd = true ∧ t = .block ts := by
  rw [wholeBlock, bind_eq_ok_iff]
  constructor
  · rintro ⟨_, m, _, hb, hend⟩
    obtain ⟨he, rfl, rfl⟩ := ending_eq_ok_iff.1 hend
    obtain ⟨ts, hts, -, rfl⟩ := block_eq_ok_iff.1 hb
    exact ⟨ts, hts, he, rfl⟩
  · rintro ⟨ts, hts, he, rfl⟩
    exact ⟨(), r, .block ts, block_eq_ok_iff.2 ⟨ts, hts, by simp [endsBlock, he], rfl⟩,
      ending_eq_ok_iff.2 ⟨he, rfl, rfl⟩⟩

end Reader

/-- **Reading statements from a source** succeeds exactly if its words are those of statements in a
    row, and gives the block of their trees. -/
theorem Statement.ofSource_eq_ok_iff {source : String} {s : Statement} :
    Statement.ofSource source = .ok s ↔ ∃ ss, s = .block ss ∧ IsBlock (Source.words source) ss := by
  rw [Statement.ofSource, Reader.result_eq_ok_iff]
  simp only [Reader.wholeBlock_eq_ok_iff]
  constructor
  · rintro ⟨-, r, ss, ⟨ws, hg, h⟩, he, rfl⟩
    obtain ⟨rfl, -⟩ := hg.eq_of_isEnd he
    exact ⟨ss, rfl, h⟩
  · rintro ⟨ss, rfl, h⟩
    exact ⟨(), _, ss, ⟨_, gives_words_ofSource source, h⟩, isEnd_last _, rfl⟩

end BL
