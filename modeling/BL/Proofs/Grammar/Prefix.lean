import BL.Proofs.Reading.Statement

namespace BL

open Grammar TokenQueue

/-!
# Unique prefixes

At most one beginning of a sequence of words is a statement, and it has one tree; likewise for
blocks, up to the word that ends them.  The grammar alone does not show this at a glance, because
the same three words end every block; but a reader finds each statement that a queue begins with,
and it finds only one.

* `Grammar.IsStatement.eq_of_append`, `Grammar.IsBlock.eq_of_append`,
  `Grammar.IsDefinitions.eq_of_append` — unique prefixes;
* `Grammar.IsStatement.endText_notMem` — no word of a statement ends the input;
* `Grammar.IsProgramOf.unique` — at most one derivation of a program, also where names are defined
  twice.
-/

namespace Grammar

variable {ws ws' vs vs' : List String}

/-- **Unique prefixes.** The words of a statement are no proper beginning of those of another one,
    and they have one tree: both follow from what a reader does with them. -/
theorem IsStatement.eq_of_append {s s' : Statement} (h : IsStatement ws s)
    (h' : IsStatement ws' s') (e : ws ++ vs = ws' ++ vs') : ws = ws' ∧ vs = vs' ∧ s = s' := by
  -- The same words make the same queue, from which a reader takes only one statement.
  have hr := (Reader.statement_eq_ok_iff (s := .empty) (u := ())).2 ⟨ws, gives_ofWords ws vs, h⟩
  have hr' := (Reader.statement_eq_ok_iff (s := .empty) (u := ())).2
    ⟨ws', gives_ofWords ws' vs', h'⟩
  rw [e] at hr
  obtain ⟨-, hq, rfl⟩ := Reader.ok_eq_ok_iff.1 (hr.symm.trans hr')
  obtain rfl := ofWords_injective hq
  exact ⟨List.append_cancel_right e, rfl, rfl⟩

/-- The same for blocks that end before words that end a block. -/
theorem IsBlock.eq_of_append {ss ss' : List Statement} (h : IsBlock ws ss) (h' : IsBlock ws' ss')
    (hv : Reader.endsBlock (ofWords vs).front = true)
    (hv' : Reader.endsBlock (ofWords vs').front = true) (e : ws ++ vs = ws' ++ vs') :
    ws = ws' ∧ vs = vs' ∧ ss = ss' := by
  have hr := (Reader.block_eq_ok_iff (s := .empty) (u := ())).2
    ⟨ss, ⟨ws, gives_ofWords ws vs, h⟩, hv, rfl⟩
  have hr' := (Reader.block_eq_ok_iff (s := .empty) (u := ())).2
    ⟨ss', ⟨ws', gives_ofWords ws' vs', h'⟩, hv', rfl⟩
  rw [e] at hr
  obtain ⟨-, hq, hs⟩ := Reader.ok_eq_ok_iff.1 (hr.symm.trans hr')
  obtain rfl := ofWords_injective hq
  obtain rfl := Statement.block.inj hs
  exact ⟨List.append_cancel_right e, rfl, rfl⟩

/-- No word of a statement ends the input. -/
theorem IsStatement.endText_notMem {s : Statement} (h : IsStatement ws s) :
    Token.endText ∉ ws := by
  have hk : ∀ k, Word.isKeyword k = true → Token.endText ≠ k := by
    rintro k hk rfl
    exact absurd hk (by decide)
  have hc : ∀ c : Condition, Token.endText ≠ c.spelling :=
    fun c => (Reader.spelling_ne_endText c).symm
  -- One case for each construct: keywords, conditions and names are all other words.
  refine IsStatement.rec (motive_1 := fun ws _ _ => Token.endText ∉ ws)
    (motive_2 := fun ws _ _ => Token.endText ∉ ws) ?_ ?_ ?_ ?_ ?_ ?_ h
  · intro name hn
    simpa using (Reader.ne_endText_of_isIdentifier hn).symm
  · intro ws ss c _ ih
    simp [hk, hc, ih, Word.isKeyword, Word.keywords]
  · intro ws vs ss ts c _ _ ih ih'
    simp [hk, hc, ih, ih', Word.isKeyword, Word.keywords]
  · intro ws ss c _ ih
    simp [hk, hc, ih, Word.isKeyword, Word.keywords]
  · simp
  · intro ws vs s ss _ _ ih ih'
    simp [ih, ih']

/-- **Unique definitions.** Definitions that end before `BEGIN` are unique, since the keyword of a
    definition is another one. -/
theorem IsDefinitions.eq_of_append {es es' : List (String × Statement)} (h : IsDefinitions ws es)
    (h' : IsDefinitions ws' es') (e : ws ++ "BEGIN" :: vs = ws' ++ "BEGIN" :: vs') :
    ws = ws' ∧ vs = vs' ∧ es = es' := by
  induction h generalizing ws' es' with
  | nil =>
    cases h' with
    | nil => exact ⟨rfl, (List.cons.inj e).2, rfl⟩
    | cons hi hp hb hd => simp at e
  | cons hi hp hb hd ih =>
    cases h' with
    | nil => simp at e
    | cons hi' hp' hb' hd' =>
      -- The names are the same word of both sequences.
      simp only [List.cons_append, List.append_assoc, List.cons.injEq, true_and] at e
      obtain ⟨rfl, e⟩ := e
      -- Both blocks end before the keyword that closes the definition.
      obtain ⟨rfl, e', rfl⟩ := hb.eq_of_append hb' rfl rfl e
      simp only [List.cons.injEq, true_and] at e'
      obtain ⟨rfl, e'', rfl⟩ := ih hd' e'
      exact ⟨rfl, e'', rfl⟩

/-- **Unique programs.** Words are those of a program in at most one way. -/
theorem IsProgramOf.unique {n n' : String} {es es' : List (String × Statement)} {s s' : Statement}
    (h : IsProgramOf ws n es s) (h' : IsProgramOf ws n' es' s') : n = n' ∧ es = es' ∧ s = s' := by
  cases h with
  | mk hn hd hb =>
    generalize hws : "PROGRAM" :: n :: _ = ws at h'
    cases h' with
    | mk hn' hd' hb' =>
      simp only [List.cons.injEq, true_and] at hws
      obtain ⟨rfl, e⟩ := hws
      obtain ⟨-, e', rfl⟩ := hd.eq_of_append hd' e
      obtain ⟨-, -, rfl⟩ := hb.eq_of_append hb' rfl rfl e'
      exact ⟨rfl, rfl, rfl⟩

end Grammar

end BL
