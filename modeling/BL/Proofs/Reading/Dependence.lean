import BL.Proofs.Reading.Examination
import BL.Proofs.Reading.Relabelling
import BL.Proofs.Workspace.Effects
import BL.Workspace.Readers

namespace BL

open TokenQueue

/-!
# What reading depends on

A reader depends on the texts of the tokens that it examines, and on nothing else: not on their
kinds, not on where they stand, and not on what follows them.  Up to the last token examined the
tokens may be replaced by others of the same texts, and behind it by anything.

* `TokenQueue.exists_graft` — the tokens of a queue up to a place, and behind it those of another
  one, marked by their line;
* `Reader.Examines.endAlike` — a reader that goes by texts ends alike on queues with the same texts
  up to the last token examined;
* `Reader.GoesByTexts` — a reader examines some tokens, and their texts determine what it does;
* `Reader.reading_goes_by_texts` — this holds for statements, blocks and programs, and so it does
  not matter whether a source is read as a text, as tokens, from a queue or as bare texts.
-/

/-! ### Queues with given texts -/

/-- The token put on a line. -/
def Token.onLine (line : Int) (t : Token) : Token := { t with line := line }

namespace TokenQueue

variable {q r : TokenQueue} {n : Nat}

/-- What ends the input is told by the texts. -/
theorem endsOnce_iff : q.EndsOnce ↔ Token.endText ∉ (q.toList.map Token.text).dropLast := by
  rw [toList, List.map_append, List.map_singleton, List.dropLast_concat, List.mem_map]
  constructor
  · rintro h ⟨t, ht, htext⟩
    exact h t ht htext
  · exact fun h t ht htext => h ⟨t, ht, htext⟩

/-- The queue of a source ends once. -/
theorem endsOnce_ofSource (source : String) : (ofSource source).EndsOnce := by
  rw [endsOnce_iff, toList_ofSource, Source.map_text_tokens, List.dropLast_concat]
  exact Source.endText_notMem_words source

/-- Tokens with the texts of a queue make a queue. -/
theorem exists_toList_of_map_text {ts : List Token}
    (h : ts.map Token.text = r.toList.map Token.text) : ∃ m : TokenQueue, m.toList = ts := by
  rw [toList, List.map_append, List.map_singleton, r.last_text] at h
  obtain ⟨ahead, rest, rfl, -, hrest⟩ := List.map_eq_append_iff.1 h
  obtain ⟨e, rfl, he⟩ := List.map_eq_singleton_iff.1 hrest
  exact ⟨⟨ahead, e, he⟩, rfl⟩

/-- **Grafting.** If two queues have the same texts up to a place, there is one with the tokens of
    the first up to there and the texts of the second throughout; what it has from the second one
    may be put on any line. -/
theorem exists_graft (hn : n ≤ q.size)
    (h : (q.toList.take n).map Token.text = (r.toList.take n).map Token.text) (line : Int) :
    ∃ m : TokenQueue, m.toList.map Token.text = r.toList.map Token.text ∧
      m.toList.take n = q.toList.take n ∧
      ∀ (i : Nat) (t : Token), m.toList[i]? = some t → t.line ≠ line →
        q.toList[i]? = some t := by
  have htexts : (q.toList.take n ++ (r.toList.drop n).map (Token.onLine line)).map Token.text
      = r.toList.map Token.text := by
    have hmarked : ((r.toList.drop n).map (Token.onLine line)).map Token.text =
        (r.toList.drop n).map Token.text := by
      rw [List.map_map]
      rfl
    rw [List.map_append, h, hmarked, ← List.map_append, List.take_append_drop]
  obtain ⟨m, hm⟩ := exists_toList_of_map_text htexts
  have hlen : (q.toList.take n).length = n := by
    rw [List.length_take, length_toList, Nat.min_eq_left hn]
  refine ⟨m, hm ▸ htexts, ?_, fun i t ht hline => ?_⟩
  · rw [hm, List.take_append_of_le_length (Nat.le_of_eq hlen.symm), List.take_take, Nat.min_self]
  · rw [hm] at ht
    by_cases hi : i < n
    · rwa [List.getElem?_append_left (by omega), List.getElem?_take_of_lt hi] at ht
    · -- Behind the place all tokens are on the line.
      rw [List.getElem?_append_right (by omega)] at ht
      obtain ⟨u, -, rfl⟩ := List.mem_map.1 (List.mem_of_getElem? ht)
      exact absurd rfl hline

end TokenQueue

namespace Reader

variable {τ α : Type} {q r : TokenQueue}

/-! ### One reader on two queues -/

/-- A line on which a run shows no token. -/
def otherLine : EStateM.Result Fault (ReaderState τ) α → Int
  | .error (.rejected r) _ => r.token.line + 1
  | _ => 0

/-- Runs beside each other have taken as many tokens as the first of them has. -/
theorem Beside.of_skip {m : TokenQueue} {t : τ} {st : ReaderState τ} {k : Nat}
    (h : Beside m.toList r.toList ⟨m.skip k, t⟩ st) (hm : k < m.size) (hq : k < q.size) :
    Beside q.toList r.toList ⟨q.skip k, t⟩ st := by
  obtain ⟨j, hj, hst⟩ := h.left
  -- Both numbers leave lists of the same length.
  have hlen := congrArg List.length hj
  rw [toList_skip hm, List.length_drop, List.length_drop, length_toList] at hlen
  obtain rfl : j = k := by omega
  exact ⟨h.target, j, toList_skip hq, hst⟩

/-- The tokens that are examined are those that are taken, and at most one more. -/
theorem Examines.exists_skip {x : Reader τ α} {t : τ} {n : Nat} (h : Examines x ⟨q, t⟩ n)
    (hq : q.EndsOnce) :
    ∃ k, (Action.runReader x q t).2.queue = q.skip k ∧ k ≤ n ∧ n ≤ k + 1 := by
  obtain ⟨k, -, -, hkn, hnk, -, hstep⟩ := h.inStep hq hq rfl
  refine ⟨k, ?_, hkn, hnk⟩
  unfold Action.runReader
  rcases hstep with ⟨a, t', ha, -⟩ | ⟨f, t', hf, -⟩
  · rw [ha]
  · rw [hf]

/-- **Texts up to the last token examined** determine what a reader does that goes by texts. -/
theorem Examines.endAlike {x : Reader τ α} {t : τ} {n : Nat} (h : Examines x ⟨q, t⟩ n)
    (hx : ∀ ts us : List Token, ts.map Token.text = us.map Token.text → Alike ts us Eq x x)
    (hq : q.EndsOnce) (hr : r.EndsOnce)
    (htexts : (q.toList.take n).map Token.text = (r.toList.take n).map Token.text) :
    EndAlike q.toList r.toList Eq (x ⟨q, t⟩) (x ⟨r, t⟩) := by
  obtain ⟨-, -, -, -, -, hn, -⟩ := h.inStep hq hq rfl
  -- The queue in between has the tokens of the first one where they are examined.
  obtain ⟨m, hmtexts, hmtake, hmtoken⟩ := exists_graft hn htexts (otherLine (x ⟨q, t⟩))
  have hm : m.EndsOnce := by
    rw [endsOnce_iff, hmtexts, ← endsOnce_iff]
    exact hr
  obtain ⟨k, hkq, hkm, -, -, -, hstep⟩ := h.inStep hq hm hmtake.symm
  have hend := hx m.toList r.toList hmtexts ⟨m, t⟩ ⟨r, t⟩ ⟨rfl, 0, rfl, rfl⟩
  rcases hstep with ⟨a, t', ha, ha'⟩ | ⟨f, t', hf, hf'⟩
  · rw [ha'] at hend
    rw [ha]
    generalize x ⟨r, t⟩ = run at hend ⊢
    cases hend with
    | ok hab hst => exact .ok hab (hst.of_skip hkm hkq)
  · rw [hf'] at hend
    rw [hf] at hmtoken ⊢
    generalize x ⟨r, t⟩ = run at hend ⊢
    cases hend with
    | error hfault hst =>
      refine .error ?_ (hst.of_skip hkm hkq)
      cases hfault with
      | rejected htwin =>
        -- The token is not on the line of those that come from the second queue.
        obtain ⟨i, hi, hi'⟩ := htwin
        refine .rejected ⟨i, hmtoken i _ hi ?_, hi'⟩
        simp only [otherLine]
        omega
      | violated v => exact .violated v
      | unknownCondition label => exact .unknownCondition label
      | exhausted => exact .exhausted

/-! ### Statements, blocks and programs -/

/-- A call is told by its one token, and nothing behind it is examined. -/
theorem examines_statement_of_call {t : Statement} (h : Word.isIdentifier q.front.text = true) :
    Examines statement ⟨q, t⟩ 1 := by
  -- The token is not the last one, since a name is no text that ends the input.
  have hsize : q.size - q.rest.size = 1 := by
    have hg : q.Gives [q.front.text] q.rest :=
      (gives_singleton_iff (ne_endText_of_isIdentifier h)).2 ⟨rfl, rfl⟩
    have hsum := hg.size_eq
    rw [List.length_singleton] at hsum
    omega
  have hname : Examines (identifier : Reader Statement Token) ⟨q, t⟩
      (max 1 (q.size - q.rest.size + 0)) :=
    .bind (.next _) (next_eq _) (by rw [if_pos h]; exact .pure _ _)
  have hok : identifier ⟨q, t⟩ = .ok q.front ⟨q.rest, t⟩ := by rw [identifier_eq, if_pos h]
  have hcall := @Examines.bind _ _ _ _
    (fun name : Token => update fun _ => Statement.assembleCall (some name.text)) _ _ _ _ _ hname
    hok (.update _ _)
  have hif : q.front.text ≠ "IF" := fun e => absurd (e ▸ h) (by decide)
  have hwhile : q.front.text ≠ "WHILE" := fun e => absurd (e ▸ h) (by decide)
  have hstatement := @Examines.bind _ _ _ _
    (fun start : Token =>
      if start.text = "IF" then conditionalOf allItems
      else if start.text = "WHILE" then loopOf allItems
      else if Word.isIdentifier start.text then call
      else reject .noIdentifier start) _ _ _ _ _ (.peek ⟨q, t⟩) (peek_eq _)
    (by rw [if_neg hif, if_neg hwhile, if_pos h]; exact hcall)
  have hcount : max 1 (q.size - q.size + max (max 1 (q.size - q.rest.size + 0))
      (q.size - q.rest.size + 0)) = 1 := by
    omega
  rwa [hcount] at hstatement

/-- The reader examines some tokens of the first queue, those that it takes and at most one more.
    On a second queue with the same texts up to the last of them it ends alike: it takes the same
    number of tokens and gives the same target, or it fails for the same reason at the token with
    the same number. -/
def GoesByTexts (x : Reader τ Unit) (q r : TokenQueue) (t : τ) : Prop :=
  (∃ n, Examines x ⟨q, t⟩ n) ∧ ∀ n, Examines x ⟨q, t⟩ n →
    (∃ k, (Action.runReader x q t).2.queue = q.skip k ∧ k ≤ n ∧ n ≤ k + 1) ∧
    ((q.toList.take n).map Token.text = (r.toList.take n).map Token.text →
      EndAlike q.toList r.toList Eq (x ⟨q, t⟩) (x ⟨r, t⟩))

/-- A reader that goes step by step, on queues with the same texts throughout alike. -/
theorem goesByTexts_of_alike {x : Reader τ Unit} {t : τ} (hexists : ∃ n, Examines x ⟨q, t⟩ n)
    (hx : ∀ ts us : List Token, ts.map Token.text = us.map Token.text → Alike ts us Eq x x)
    (hq : q.EndsOnce) (hr : r.EndsOnce) : GoesByTexts x q r t :=
  ⟨hexists, fun _ h => ⟨h.exists_skip hq, h.endAlike hx hq hr⟩⟩

/-- On both queues all constructs end alike. -/
def ReadAlike (q r : TokenQueue) : Prop :=
  ∀ (s : Statement) (p : Program),
    EndAlike q.toList r.toList Eq (statement ⟨q, s⟩) (statement ⟨r, s⟩) ∧
    EndAlike q.toList r.toList Eq (block ⟨q, s⟩) (block ⟨r, s⟩) ∧
    EndAlike q.toList r.toList Eq (wholeBlock ⟨q, s⟩) (wholeBlock ⟨r, s⟩) ∧
    EndAlike q.toList r.toList Eq (program ⟨q, p⟩) (program ⟨r, p⟩)

/-- Queues with the same texts throughout are read alike. -/
theorem readAlike_of_map_text (h : q.toList.map Token.text = r.toList.map Token.text) :
    ReadAlike q r := by
  have hstart : ∀ {σ : Type} (t : σ), Beside q.toList r.toList ⟨q, t⟩ ⟨r, t⟩ :=
    fun _ => ⟨rfl, 0, rfl, rfl⟩
  intro s p
  exact ⟨alike_statement h _ _ (hstart s), alike_block h _ _ (hstart s),
    alike_wholeBlock h _ _ (hstart s), alike_program h _ _ (hstart p)⟩

/-- The queue of bare texts has these texts, if the last of them ends the input. -/
theorem map_text_ofTexts (ws : List String) :
    (ofTexts (ws ++ [Token.endText])).toList.map Token.text = ws ++ [Token.endText] := by
  rw [toList_ofTexts_concat, textTokens, List.map_map]
  exact List.zipIdx_map_fst 0 _

/-- A queue in a slot is read from as it stands. -/
theorem queueOf_slot {w : Workspace} {n : String} (h : w.content? n = some (.queue q)) :
    Action.queueOf (.slot n) w = .ok q w := by
  simp only [Action.queueOf, Action.queueIn]
  rw [Action.get_bind, h]
  show (get >>= _ : Action TokenQueue) w = _
  rw [Action.get_bind, h]
  rfl

/-- **Reading goes by texts.**  Statements, blocks and programs are read by the texts of the tokens
    that are examined: whatever the kinds and the places of these tokens are, and whatever follows
    them, the outcome is the same, and a report is about the token with the same number.  So it is
    the same to read a source from its text, from its tokens, from a queue in a slot or from the
    texts of its tokens. -/
theorem reading_goes_by_texts :
    (∀ q r : TokenQueue, q.EndsOnce → r.EndsOnce → ∀ (s : Statement) (p : Program),
      GoesByTexts statement q r s ∧ GoesByTexts block q r s ∧ GoesByTexts wholeBlock q r s ∧
      GoesByTexts program q r p) ∧
    ∀ (source slot : String) (w : Workspace),
      w.content? slot = some (.queue (.ofSource source)) → ∃ q r,
        Action.queueOf (.text source) w = .ok q w ∧
        Action.queueOf (.tokens (Source.tokens source)) w = .ok q w ∧
        Action.queueOf (.slot slot) w = .ok q w ∧
        Action.queueOf (.texts ((Source.tokens source).map Token.text)) w = .ok r w ∧
        ReadAlike q r := by
  constructor
  · intro q r hq hr s p
    exact ⟨goesByTexts_of_alike (exists_examines_statement _) (fun _ _ => alike_statement) hq hr,
      goesByTexts_of_alike (exists_examines_block _) (fun _ _ => alike_block) hq hr,
      goesByTexts_of_alike (exists_examines_wholeBlock _) (fun _ _ => alike_wholeBlock) hq hr,
      goesByTexts_of_alike (exists_examines_program _) (fun _ _ => alike_program) hq hr⟩
  · intro source slot w hslot
    refine ⟨ofSource source, ofTexts ((Source.tokens source).map Token.text), rfl, rfl,
      queueOf_slot hslot, rfl, readAlike_of_map_text ?_⟩
    rw [toList_ofSource, Source.map_text_tokens, map_text_ofTexts]

/-- A call in the second line of a source, and the same call as a bare text in front of another one:
    only its token is examined. -/
theorem reading_goes_by_texts_sample :
    (ofSource "\nmove END").EndsOnce ∧ (ofTexts ["move", "go"]).EndsOnce ∧
    Examines statement ⟨ofSource "\nmove END", .empty⟩ 1 ∧
    EndAlike (ofSource "\nmove END").toList (ofTexts ["move", "go"]).toList Eq
      (statement ⟨ofSource "\nmove END", .empty⟩) (statement ⟨ofTexts ["move", "go"], .empty⟩) ∧
    ∃ w : Workspace, w.content? "q" = some (.queue (.ofSource "move END")) ∧ ∃ q r,
      Action.queueOf (.slot "q") w = .ok q w ∧
      Action.queueOf (.texts ((Source.tokens "move END").map Token.text)) w = .ok r w ∧
      ReadAlike q r := by
  have hq : (ofSource "\nmove END").EndsOnce := endsOnce_ofSource _
  have hr : (ofTexts ["move", "go"]).EndsOnce := endsOnce_iff.2 (by decide)
  have hone : Examines statement ⟨ofSource "\nmove END", .empty⟩ 1 :=
    examines_statement_of_call (by decide +kernel)
  have hend := ((reading_goes_by_texts.1 _ _ hq hr .empty .empty).1.2 1 hone).2 (by decide +kernel)
  have hslot : (Workspace.empty.setContent "q" (.queue (.ofSource "move END"))).content? "q" =
      some (.queue (.ofSource "move END")) := by simp
  obtain ⟨q, r, -, -, hfrom, hbare, halike⟩ := reading_goes_by_texts.2 "move END" "q" _ hslot
  exact ⟨hq, hr, hone, hend, _, hslot, q, r, hfrom, hbare, halike⟩

end Reader

end BL
