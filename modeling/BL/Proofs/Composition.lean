import BL.Proofs.Reading.Failure
import BL.Proofs.RoundTrip
import BL.Proofs.Source.Joining

namespace BL

open Grammar TokenQueue

/-!
# Statements one below the other

Once a source of statements is read, nothing of it is left that matters to a source below it: the
second one is read, refused and printed as it is alone.

* `Grammar.IsBlock.append`, `Grammar.RefusesStatements.behind` — words of statements in front of
  others, and in front of refused ones;
* `Layout.textOrNothing_append` — the printed text of lines, one after the other;
* `TokenQueue.StopsWith.behind`, `Statement.ofSource_append_error` — a source that is refused, below
  another one;
* `Statement.sources_compose` — the outcome for both sources together, from the outcome for the
  second one.
-/

/-! ### Words -/

/-- The children of two well-formed blocks may stand in one block. -/
theorem Statement.wellFormed_append {ss ts : List Statement} (hs : (block ss).WellFormed)
    (ht : (block ts).WellFormed) : (block (ss ++ ts)).WellFormed := by
  rw [wellFormed_block] at hs ht ⊢
  intro s hmem
  exact (List.mem_append.1 hmem).elim (hs s) (ht s)

namespace Grammar

variable {ws vs : List String} {ss ts : List Statement} {w : String} {k : Cause}

/-- Statements in a row, and others behind them. -/
theorem IsBlock.append (h : IsBlock ws ss) (h' : IsBlock vs ts) :
    IsBlock (ws ++ vs) (ss ++ ts) := by
  rw [isBlock_iff] at h h' ⊢
  obtain ⟨hs, rfl⟩ := h
  obtain ⟨ht, rfl⟩ := h'
  exact ⟨Statement.wellFormed_append hs ht, by simp⟩

/-- A word that is refused in a block is refused in the same block behind other statements. -/
theorem Refuses.behind (h : Refuses .block vs w k) (hs : IsBlock ws ss) :
    Refuses .block (ws ++ vs) w k := by
  -- Behind each statement in front the rest of the block is refused.
  induction ss generalizing ws with
  | nil =>
    cases hs
    exact h
  | cons s ss ih =>
    cases hs with
    | cons hfirst hothers =>
      have hrest := ih hothers
      rw [List.append_assoc]
      exact .tail hfirst hrest

/-- **What is refused alone is refused behind other statements**, for the same cause. -/
theorem RefusesStatements.behind (h : RefusesStatements vs w k) (hs : IsBlock ws ss) :
    RefusesStatements (ws ++ vs) w k := by
  cases h with
  | inside h => exact .inside (h.behind hs)
  | trailing h hw => exact .trailing (hs.append h) hw

end Grammar

/-! ### Texts -/

namespace Layout

/-- The text of lines; nothing if there are no lines. -/
def textOrNothing (ls : List String) : String := if ls = [] then "" else textOfLines ls

/-- The text of more lines is that of some, followed by that of the others. -/
theorem textOrNothing_append (ls ms : List String) :
    textOrNothing (ls ++ ms) = textOrNothing ls ++ textOrNothing ms := by
  by_cases hl : ls = []
  · simp [textOrNothing, hl]
  by_cases hm : ms = []
  · simp [textOrNothing, hm]
  have hlm : ls ++ ms ≠ [] := by simp [hl]
  rw [textOrNothing, textOrNothing, textOrNothing, if_neg hl, if_neg hm, if_neg hlm, textOfLines,
    String.intercalate_append_of_ne_nil hl hm]
  simp [textOfLines, String.append_assoc]

end Layout

/-! ### Sources -/

/-- A queue that stops further down stops for the same cause, and at the same token further down. -/
theorem TokenQueue.StopsWith.behind {q m : TokenQueue} {ws : List String} {ss : List Statement}
    {f : Fault} (h : m.StopsWith RefusesStatements f) (n : Nat) (hq : q.Gives ws (m.below n))
    (hs : IsBlock ws ss) :
    ∃ r, f = .rejected r ∧
      q.StopsWith RefusesStatements (.rejected { r with token := r.token.below n }) := by
  obtain ⟨vs, l, k, hg, href, rfl⟩ := h
  have hgives := hq.append (hg.below n)
  have hrefused : RefusesStatements (ws ++ vs) (l.below n).front.text k := by
    rw [front_below, Token.below_text]
    exact href.behind hs
  refine ⟨_, rfl, ws ++ vs, l.below n, k, hgives, hrefused, ?_⟩
  rw [front_below]

namespace Statement

variable {a b : String} {ss ts : List Statement}

/-- Below statements a source adds its own ones. -/
theorem ofSource_append (ha : IsBlock (Source.words a) ss) (hb : IsBlock (Source.words b) ts) :
    ofSource (a ++ "\n" ++ b) = .ok (.block (ss ++ ts)) := by
  refine ofSource_eq_ok_iff.2 ⟨_, rfl, ?_⟩
  rw [Source.words_append_newline]
  exact ha.append hb

/-- Below statements a source is refused as it is alone, further down. -/
theorem ofSource_append_error {f : Fault} (ha : IsBlock (Source.words a) ss)
    (hb : ofSource b = .error f) :
    ∃ r, f = .rejected r ∧ ofSource (a ++ "\n" ++ b) =
      .error (.rejected { r with token := r.token.below (a.toList.count '\n' + 1) }) := by
  have hstop := ofSource_eq_error_iff.1 hb
  obtain ⟨r, hr, hboth⟩ := hstop.behind _ (Source.gives_append_newline a b) ha
  exact ⟨r, hr, ofSource_eq_error_iff.2 hboth⟩

/-- The printed text of statements in a row is that of some, followed by that of the others. -/
theorem pretty_append (hs : (block ss).WellFormed) (ht : (block ts).WellFormed) (offset : Int) :
    ∃ x y, (block ss).pretty offset = .ok (x, .block ss) ∧
      (block ts).pretty offset = .ok (y, .block ts) ∧
      (block (ss ++ ts)).pretty offset = .ok (x ++ y, .block (ss ++ ts)) := by
  have hprint := pretty_eq (wellFormed_append hs ht) offset
  have htext := Layout.textOrNothing_append ((block ss).lines Printer.defaultIndent offset)
    ((block ts).lines Printer.defaultIndent offset)
  have hlines : (block (ss ++ ts)).lines Printer.defaultIndent offset =
      (block ss).lines Printer.defaultIndent offset ++
        (block ts).lines Printer.defaultIndent offset := by
    simp
  rw [hlines] at hprint
  exact ⟨_, _, pretty_eq hs offset, pretty_eq ht offset, htext ▸ hprint⟩

/-- **Sources of statements compose.**  Below a source of statements another source is read exactly
    if it is read alone: then its statements join those of the first one, and the printed text is
    that of the first one followed by that of the second one.  If it is refused, it is refused for
    the same cause at the same token, so many lines further down as the first source has. -/
theorem sources_compose (a : String) (s : Statement) (h : ofSource a = .ok s) (b : String) :
    ((∃ u, ofSource (a ++ "\n" ++ b) = .ok u) ↔ ∃ t, ofSource b = .ok t) ∧
    (∀ t, ofSource b = .ok t → ∃ ss ts, s = .block ss ∧ t = .block ts ∧
      ofSource (a ++ "\n" ++ b) = .ok (.block (ss ++ ts)) ∧
      ∀ offset, ∃ x y, s.pretty offset = .ok (x, s) ∧ t.pretty offset = .ok (y, t) ∧
        (block (ss ++ ts)).pretty offset = .ok (x ++ y, .block (ss ++ ts))) ∧
    ∀ f, ofSource b = .error f → ∃ r, f = .rejected r ∧
      ofSource (a ++ "\n" ++ b) = .error (.rejected { r with
        token := { r.token with line := r.token.line + (a.toList.count '\n' + 1 : Nat) } }) := by
  obtain ⟨ss, rfl, ha⟩ := ofSource_eq_ok_iff.1 h
  refine ⟨⟨?_, ?_⟩, ?_, ?_⟩
  · rintro ⟨u, hu⟩
    cases hb : ofSource b with
    | ok t => exact ⟨t, rfl⟩
    | error f =>
      -- Refused alone, the second source would be refused below the first one.
      obtain ⟨r, -, hboth⟩ := ofSource_append_error ha hb
      cases hu.symm.trans hboth
  · rintro ⟨t, ht⟩
    obtain ⟨ts, rfl, hb⟩ := ofSource_eq_ok_iff.1 ht
    exact ⟨_, ofSource_append ha hb⟩
  · intro t ht
    obtain ⟨ts, rfl, hb⟩ := ofSource_eq_ok_iff.1 ht
    have hprint := pretty_append (isBlock_iff.1 ha).1 (isBlock_iff.1 hb).1
    exact ⟨ss, ts, rfl, rfl, ofSource_append ha hb, hprint⟩
  · intro f hf
    exact ofSource_append_error ha hf

/-- Composition below two lines that end with a comment: with statements, and with a source that is
    refused at its end. -/
theorem sources_compose_sample :
    Statement.ofSource "skip\nmove # on" = .ok (.block [.call "skip", .call "move"]) ∧
    Statement.ofSource ("skip\nmove # on" ++ "\n" ++ Source.sample) =
      .ok (.block [.call "skip", .call "move", .call "move",
        .ifElse .random (.block [.call "skip"]) (.block [])]) ∧
    Statement.ofSource ("skip\nmove # on" ++ "\n" ++ " END") =
      .error (.rejected ⟨.trailing, ⟨.keyword, "END", 3, 1⟩⟩) := by
  have ha : Statement.ofSource "skip\nmove # on" = .ok (.block [.call "skip", .call "move"]) :=
    ofSource_of_words (by decide) rfl (by decide +kernel)
  have hb : Statement.ofSource Source.sample = .ok .sample :=
    ofSource_of_words (by decide) rfl (by decide +kernel)
  have hc : Statement.ofSource " END" =
      .error (.rejected ⟨.trailing, ⟨.keyword, "END", 1, 1⟩⟩) := by
    with_unfolding_all rfl
  obtain ⟨ss, ts, hss, hts, hread, -⟩ := (sources_compose _ _ ha Source.sample).2.1 _ hb
  cases hss
  cases hts
  obtain ⟨r, hr, hrefused⟩ := (sources_compose _ _ ha " END").2.2 _ hc
  cases hr
  exact ⟨ha, hread, hrefused⟩

end Statement

end BL
