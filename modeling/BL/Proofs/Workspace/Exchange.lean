import BL.Proofs.Workspace.Violations

namespace BL

/-!
# Exchanges with a program

A program gives up its context or its body only for another one, and hands the former one out.  An
exchange of contexts is checked first and made then.  An exchange of bodies is made by three moves;
only the second one finds out whether the statement is the body of the program itself, and by then
the body has been moved away.

* `Content.SameOutline`, `Workspace.SameOutline` — the same but for statements: names of programs,
  and names in contexts in their order;
* `Workspace.Exchanged` — two places have exchanged their statements, and nothing else has changed;
* `Action.swapContext_eq`, `Action.swapBody_eq`, `Action.swapBody_self` — what the exchanges do;
* `Workspace.TakesContext`, `Workspace.TakesBlock` — what a program can be exchanged with;
* `Workspace.swaps_exchange` — exchanges with a program are exact, or nothing happens;
* `Workspace.swapBody_loses_body` — a run in which a body is lost.
-/

/-! ### Outlines -/

/-- The same content but for its statements. -/
inductive Content.SameOutline : Content → Content → Prop
  | statement (s t : Statement) : SameOutline (.statement s) (.statement t)
  | program {p q : Program} (name : p.name = q.name) (names : p.context.names = q.context.names) :
      SameOutline (.program p) (.program q)
  | context {c d : Context} (names : c.names = d.names) : SameOutline (.context c) (.context d)
  | queue (q : TokenQueue) : SameOutline (.queue q) (.queue q)
  | printer (p : Printer) : SameOutline (.printer p) (.printer p)

theorem Content.sameOutline_refl (c : Content) : c.SameOutline c := by
  cases c with
  | statement s => exact .statement s s
  | program p => exact .program rfl rfl
  | context c => exact .context rfl
  | queue q => exact .queue q
  | printer p => exact .printer p

theorem Content.SameOutline.trans {a b c : Content} (hab : a.SameOutline b)
    (hbc : b.SameOutline c) : a.SameOutline c := by
  cases hab with
  | statement s t => cases hbc with | statement _ u => exact .statement s u
  | program hname hnames =>
    cases hbc with | program hname' hnames' =>
    exact .program (hname.trans hname') (hnames.trans hnames')
  | context hnames => cases hbc with | context hnames' => exact .context (hnames.trans hnames')
  | queue q => exact hbc
  | printer p => exact hbc

theorem Content.SameOutline.rel_trans {x y z : Option Content}
    (hxy : Option.Rel SameOutline x y) (hyz : Option.Rel SameOutline y z) :
    Option.Rel SameOutline x z := by
  cases hxy with
  | some hab => cases hyz with | some hbc => exact .some (hab.trans hbc)
  | none => exact hyz

/-- A name that is in the table already keeps its place. -/
theorem Table.names_insert_of_find? {α : Type} {t : Table α} {name : String} {v : α}
    (h : t.find? name = some v) (u : α) : (t.insert name u).names = t.names := by
  have hmem : name ∈ t.names := List.mem_map_of_mem (t.find?_eq_some_iff.1 h)
  rw [Table.names_insert, if_pos hmem]

namespace Workspace

variable {w w' : Workspace} {a b p : Place} {s t : Statement}

/-- In all slots the same but for statements. -/
def SameOutline (w w' : Workspace) : Prop :=
  ∀ n, Option.Rel Content.SameOutline (w.content? n) (w'.content? n)

theorem SameOutline.trans {w'' : Workspace} (h : w.SameOutline w') (h' : w'.SameOutline w'') :
    w.SameOutline w'' :=
  fun n => Content.SameOutline.rel_trans (h n) (h' n)

/-- Filling a slot with a content of the same outline. -/
theorem sameOutline_setContent {n : String} {c d : Content} (hc : w.content? n = some c)
    (hd : c.SameOutline d) : w.SameOutline (w.setContent n d) := by
  intro m
  rw [content?_setContent]
  split
  · rename_i hm
    rw [hm, hc]
    exact .some hd
  · cases w.content? m with
    | none => exact .none
    | some e => exact .some e.sameOutline_refl

/-- Writing a statement where there is one. -/
theorem sameOutline_setStatement (h : w.statement? p = some t) (s : Statement) :
    w.SameOutline (w.setStatement s p) := by
  cases p with
  | slot n =>
    simp only [statement?] at h
    split at h
    · rename_i u hu
      exact sameOutline_setContent hu (.statement u s)
    · cases h
  | body n =>
    simp only [statement?] at h
    split at h
    · rename_i q hq
      have hsame : Content.SameOutline (.program q) (.program { q with body := s }) :=
        .program rfl rfl
      simpa only [setStatement, hq] using sameOutline_setContent hq hsame
    · cases h
  | entry n m =>
    simp only [statement?] at h
    split at h
    · rename_i q hq
      have hsame : Content.SameOutline (.program q)
          (.program { q with context := q.context.insert m s }) :=
        .program rfl (Table.names_insert_of_find? h s).symm
      simpa only [setStatement, hq] using sameOutline_setContent hq hsame
    · rename_i c hc
      have hsame : Content.SameOutline (.context c) (.context (c.insert m s)) :=
        .context (Table.names_insert_of_find? h s).symm
      simpa only [setStatement, hc] using sameOutline_setContent hc hsame
    · cases h

/-! ### Exchanged statements -/

/-- Two places have exchanged their statements; all else is as it was. -/
structure Exchanged (w w' : Workspace) (a b : Place) : Prop where
  outline : w.SameOutline w'
  statement : ∀ q, w'.statement? q =
    if q = a then w.statement? b else if q = b then w.statement? a else w.statement? q

/-- Reading behind writing. -/
theorem statement?_setStatement (h : w.statement? p = some t) (q : Place) :
    (w.setStatement s p).statement? q = if q = p then some s else w.statement? q := by
  by_cases hq : q = p
  · rw [if_pos hq, hq, statement?_setStatement_self h]
  · rw [if_neg hq, statement?_setStatement_of_ne h hq]

theorem statement?_body {n : String} {q : Program} (h : w.content? n = some (.program q)) :
    w.statement? (.body n) = some q.body := by
  rw [statement?, h]

/-- Both places are emptied and then filled, each with what the other one held. -/
theorem exchanged_of_moves (ha : w.statement? a = some s) (hb : w.statement? b = some t)
    (hne : b ≠ a) :
    w.Exchanged ((((w.setStatement .empty a).setStatement .empty b).setStatement t a).setStatement
      s b) a b := by
  -- There is a statement at each place whenever it is written, so that the writing takes effect.
  have h₁ : (w.setStatement .empty a).statement? b = some t :=
    (statement?_setStatement_of_ne ha hne).trans hb
  have h₂ : ((w.setStatement .empty a).setStatement .empty b).statement? a = some .empty :=
    (statement?_setStatement_of_ne h₁ hne.symm).trans (statement?_setStatement_self ha)
  have h₃ : (((w.setStatement .empty a).setStatement .empty b).setStatement t a).statement? b
      = some .empty :=
    (statement?_setStatement_of_ne h₂ hne).trans (statement?_setStatement_self h₁)
  constructor
  · exact (((sameOutline_setStatement ha _).trans (sameOutline_setStatement h₁ _)).trans
      (sameOutline_setStatement h₂ _)).trans (sameOutline_setStatement h₃ _)
  · intro q
    rw [statement?_setStatement h₃, statement?_setStatement h₂, statement?_setStatement h₁,
      statement?_setStatement ha, ha, hb]
    by_cases hqa : q = a
    · subst hqa
      rw [if_neg hne.symm, if_pos rfl, if_pos rfl]
    · by_cases hqb : q = b
      · simp only [if_neg hqa, if_pos hqb]
      · simp only [if_neg hqa, if_neg hqb]

end Workspace

/-! ### The actions -/

namespace Action

variable {w : Workspace} {n m : String} {p : Program} {place : Place} {r : Reference}
  {s : Statement}

theorem programIn_eq (h : w.content? n = some (.program p)) : programIn n w = .ok p w := by
  unfold programIn
  rw [get_bind, h]
  rfl

theorem contextIn_eq {c : Context} (h : w.content? n = some (.context c)) :
    contextIn n w = .ok c w := by
  unfold contextIn
  rw [get_bind, h]
  rfl

/-- **Contexts** are exchanged if that of the program is replaced by one that it can have. -/
theorem swapContext_eq {c : Context} (hp : w.content? n = some (.program p))
    (hr : w.contextSlot? r = some m) (hc : w.content? m = some (.context c)) :
    swapContext n r w = match Program.checkEntries c.entries with
      | .ok () => .ok () ((w.setContent n (.program { p with context := c })).setContent m
          (.context p.context))
      | .error v => .error (.fault (.violated v)) w := by
  unfold swapContext
  rw [get_bind, hr]
  dsimp only
  rw [bind_ok (programIn_eq hp), bind_ok (contextIn_eq hc), Program.swapContext]
  cases Program.checkEntries c.entries with
  | ok u => rfl
  | error v => rfl

/-- There has to be a context to exchange it with. -/
theorem swapContext_of_none (hr : w.contextSlot? r = none) :
    swapContext n r w = .error (.fault (.violated .notAContext)) w := by
  unfold swapContext
  rw [get_bind, hr]
  rfl

/-- Moving a statement into another place. -/
theorem transfer_eq {target : Place} (hr : w.statementPlace? r = some place)
    (hs : w.statement? place = some s) (hne : place ≠ target) :
    transfer target r w = .ok () ((w.setStatement .empty place).setStatement s target) := by
  unfold transfer
  rw [bind_ok ((take_eq hr hs).trans (if_neg hne))]
  rfl

/-- No statement is moved into itself. -/
theorem transfer_self (hr : w.statementPlace? r = some place) (hs : w.statement? place = some s) :
    transfer place r w = .error (.fault (.violated .sameStatement)) w := by
  unfold transfer
  rw [bind_error ((take_eq hr hs).trans (if_pos rfl))]

/-- A body that may be exchanged with a statement is moved away, whatever comes of it. -/
theorem swapBody_of_block (hp : w.content? n = some (.program p))
    (hr : w.statementPlace? r = some place) (hs : w.statement? place = some s)
    (hk : s.kind = .block) :
    swapBody n r w = (do transfer (.body n) r; setStatement place p.body)
      (w.setStatement .empty (.body n)) := by
  unfold swapBody
  rw [get_bind, hr]
  dsimp only
  rw [bind_ok (programIn_eq hp), bind_ok (statementAt_eq hs), Program.swapBody_of_block hk,
    bind_ok (check_ok _ _)]
  rfl

/-- **Bodies** are exchanged with a block at another place, by three moves. -/
theorem swapBody_eq (hp : w.content? n = some (.program p))
    (hr : w.statementPlace? r = some place) (hs : w.statement? place = some s)
    (hk : s.kind = .block) (hne : place ≠ .body n) :
    swapBody n r w = .ok () ((((w.setStatement .empty (.body n)).setStatement .empty
      place).setStatement s (.body n)).setStatement p.body place) := by
  have hbody := Workspace.statement?_body hp
  have hr' : (w.setStatement .empty (.body n)).statementPlace? r = some place :=
    (Workspace.statementPlace?_setStatement hbody r).trans hr
  have hs' : (w.setStatement .empty (.body n)).statement? place = some s :=
    (Workspace.statement?_setStatement_of_ne hbody hne).trans hs
  rw [swapBody_of_block hp hr hs hk, bind_ok (transfer_eq hr' hs' hne)]
  rfl

/-- The body itself is moved away before it is found to be the same statement. -/
theorem swapBody_self (hp : w.content? n = some (.program p)) (hk : p.body.kind = .block) :
    swapBody n (.place (.body n)) w =
      .error (.fault (.violated .sameStatement)) (w.setStatement .empty (.body n)) := by
  have hbody := Workspace.statement?_body hp
  have hr : w.statementPlace? (.place (.body n)) = some (.body n) :=
    Workspace.statementPlace?_eq_some_iff.2 ⟨rfl, _, hbody⟩
  have hr' : (w.setStatement .empty (.body n)).statementPlace? (.place (.body n))
      = some (.body n) := (Workspace.statementPlace?_setStatement hbody _).trans hr
  have hs' := Workspace.statement?_setStatement_self (s := .empty) hbody
  rw [swapBody_of_block hp hr hbody hk, bind_error (transfer_self hr' hs')]

/-- There has to be a statement to exchange the body with. -/
theorem swapBody_of_none (hr : w.statementPlace? r = none) :
    swapBody n r w = .error (.fault (.violated .bodyNotAStatement)) w := by
  unfold swapBody
  rw [get_bind, hr]
  rfl

/-- It has to be a block. -/
theorem swapBody_of_not_block (hp : w.content? n = some (.program p))
    (hr : w.statementPlace? r = some place) (hs : w.statement? place = some s)
    (hk : s.kind ≠ .block) :
    swapBody n r w = .error (.fault (.violated .newBodyNotBlock)) w := by
  unfold swapBody
  rw [get_bind, hr]
  dsimp only
  rw [bind_ok (programIn_eq hp), bind_ok (statementAt_eq hs), Program.swapBody, if_neg hk,
    bind_error (check_error _ _)]

end Action

/-! ### The operations -/

namespace Workspace

variable {w w' : Workspace} {n : String} {p : Program} {r : Reference}

/-- The reference leads to a context that a program can have: all names are identifiers and stand
    for blocks. -/
def TakesContext (w : Workspace) (r : Reference) (m : String) (c : Context) : Prop :=
  r = .place (.slot m) ∧ w.content? m = some (.context c) ∧
    ∀ e ∈ c.entries, Word.isIdentifier e.1 = true ∧ e.2.kind = .block

/-- The reference leads to a block. -/
def TakesBlock (w : Workspace) (r : Reference) (place : Place) (s : Statement) : Prop :=
  r = .place place ∧ w.statement? place = some s ∧ s.kind = .block

/-- A reference leads to a context only if it is a slot that holds one. -/
theorem contextSlot?_eq_some_iff {m : String} :
    w.contextSlot? r = some m ↔ r = .place (.slot m) ∧ ∃ c, w.content? m = some (.context c) := by
  constructor
  · intro h
    unfold contextSlot? at h
    split at h
    · split at h
      · rename_i c hc
        cases h
        exact ⟨rfl, c, hc⟩
      · cases h
    · cases h
  · rintro ⟨rfl, c, hc⟩
    simp [contextSlot?, hc]

/-- An operation on a program is an action on its slot. -/
theorem step_of_program {op : Operation} {x : String → Action Unit}
    (hop : op.perform = do x (← Action.programSlot (.place (.slot n))); return .nothing)
    (hp : w.content? n = some (.program p)) :
    w.step op = match x n w with
      | .ok _ w' => (.ok .nothing, w')
      | .error e w' => (.error e, w') := by
  unfold step
  rw [hop, Action.bind_ok (programSlot_eq hp), Action.bind_eq]
  cases x n w <;> rfl

theorem swapContext_exchanges {m : String} {c : Context} (hp : w.content? n = some (.program p))
    (h : w.TakesContext r m c) :
    ∃ w', w.step (.swapContext (.place (.slot n)) r) = (.ok .nothing, w') ∧
      ∀ k, w'.content? k = if k = n then some (.program { p with context := c })
        else if k = m then some (.context p.context) else w.content? k := by
  obtain ⟨hr, hc, hentries⟩ := h
  have hslot : w.contextSlot? r = some m := contextSlot?_eq_some_iff.2 ⟨hr, c, hc⟩
  -- One slot does not hold a program and a context.
  have hnm : n ≠ m := by
    rintro rfl
    rw [hp] at hc
    cases hc
  refine ⟨(w.setContent n (.program { p with context := c })).setContent m (.context p.context),
    ?_, fun k => ?_⟩
  · rw [step_of_program rfl hp, Action.swapContext_eq hp hslot hc,
      Program.checkEntries_eq_ok_iff.2 hentries]
  · rw [content?_setContent, content?_setContent]
    by_cases hk : k = m
    · rw [if_pos hk, if_neg (fun e => hnm (e.symm.trans hk)), if_pos hk]
    · simp only [if_neg hk]

theorem swapContext_refuses (hp : w.content? n = some (.program p))
    (h : ∀ m c, ¬ w.TakesContext r m c) :
    ∃ v, w.step (.swapContext (.place (.slot n)) r) = (.error (.fault (.violated v)), w) := by
  rw [step_of_program rfl hp]
  cases hslot : w.contextSlot? r with
  | none => exact ⟨_, by rw [Action.swapContext_of_none hslot]⟩
  | some m =>
    obtain ⟨hr, c, hc⟩ := contextSlot?_eq_some_iff.1 hslot
    rw [Action.swapContext_eq hp hslot hc]
    cases hentries : Program.checkEntries c.entries with
    | ok _ => exact absurd ⟨hr, hc, Program.checkEntries_eq_ok_iff.1 hentries⟩ (h m c)
    | error v => exact ⟨v, rfl⟩

theorem swapBody_exchanges {place : Place} {s : Statement} (hp : w.content? n = some (.program p))
    (h : w.TakesBlock r place s) (hne : place ≠ .body n) :
    ∃ w', w.step (.swapBody (.place (.slot n)) r) = (.ok .nothing, w') ∧
      w.Exchanged w' (.body n) place := by
  obtain ⟨hr, hs, hk⟩ := h
  have hplace : w.statementPlace? r = some place := statementPlace?_eq_some_iff.2 ⟨hr, s, hs⟩
  refine ⟨_, ?_, exchanged_of_moves (statement?_body hp) hs hne⟩
  rw [step_of_program rfl hp, Action.swapBody_eq hp hplace hs hk hne]

theorem swapBody_refuses (hp : w.content? n = some (.program p))
    (h : ∀ place s, ¬ w.TakesBlock r place s) :
    ∃ v, w.step (.swapBody (.place (.slot n)) r) = (.error (.fault (.violated v)), w) := by
  rw [step_of_program rfl hp]
  cases hplace : w.statementPlace? r with
  | none => exact ⟨_, by rw [Action.swapBody_of_none hplace]⟩
  | some place =>
    obtain ⟨hr, s, hs⟩ := statementPlace?_eq_some_iff.1 hplace
    have hk : s.kind ≠ .block := fun hk => h place s ⟨hr, hs, hk⟩
    exact ⟨_, by rw [Action.swapBody_of_not_block hp hplace hs hk]⟩

/-- The body is gone when it is found to be its own exchange. -/
theorem swapBody_own {s : Statement} (hp : w.content? n = some (.program p))
    (h : w.TakesBlock r (.body n) s) :
    w.step (.swapBody (.place (.slot n)) r) =
      (.error (.fault (.violated .sameStatement)), w.setStatement .empty (.body n)) := by
  obtain ⟨rfl, hs, hk⟩ := h
  rw [statement?_body hp] at hs
  cases hs
  rw [step_of_program rfl hp, Action.swapBody_self hp hk]

/-- **Exchanges with a program.** A program and a context, or the body of a program and a block at
    any other place, exchange exactly what they hold, and nothing else changes.  What cannot be
    exchanged is found out before anything is changed.  Only the body of the program itself is
    emptied when it is offered in exchange. -/
theorem swaps_exchange (hp : w.content? n = some (.program p)) (r : Reference) :
    (∀ m c, w.TakesContext r m c →
        ∃ w', w.step (.swapContext (.place (.slot n)) r) = (.ok .nothing, w') ∧
          ∀ k, w'.content? k = if k = n then some (.program { p with context := c })
            else if k = m then some (.context p.context) else w.content? k) ∧
      ((∀ m c, ¬ w.TakesContext r m c) →
        ∃ v, w.step (.swapContext (.place (.slot n)) r) = (.error (.fault (.violated v)), w)) ∧
      (∀ place s, w.TakesBlock r place s → place ≠ .body n →
        ∃ w', w.step (.swapBody (.place (.slot n)) r) = (.ok .nothing, w') ∧
          w.Exchanged w' (.body n) place) ∧
      ((∀ place s, ¬ w.TakesBlock r place s) →
        ∃ v, w.step (.swapBody (.place (.slot n)) r) = (.error (.fault (.violated v)), w)) ∧
      ∀ s, w.TakesBlock r (.body n) s → w.step (.swapBody (.place (.slot n)) r) =
        (.error (.fault (.violated .sameStatement)), w.setStatement .empty (.body n)) :=
  ⟨fun _ _ => swapContext_exchanges hp, swapContext_refuses hp, fun _ _ => swapBody_exchanges hp,
    swapBody_refuses hp, fun _ => swapBody_own hp⟩

/-- A workspace with a program, with a context that it can have, and with a call. -/
def oneProgram : Workspace :=
  let p : Program := { Program.empty with body := .block [.call "move"] }
  let c : Context := Table.empty.insert "turn" .empty
  ((Workspace.empty.setContent "p" (.program p)).setContent "c" (.context c)).setContent "s"
    (.statement (.call "move"))

/-- An exchange of contexts, one of bodies, what is refused for them, and the body itself. -/
theorem swaps_exchange_sample :
    (∃ w', oneProgram.step (.swapContext (.place (.slot "p")) (.place (.slot "c"))) =
        (.ok .nothing, w') ∧ w'.content? "c" = some (.context .empty)) ∧
      (∃ v, oneProgram.step (.swapContext (.place (.slot "p")) (.place (.slot "s"))) =
        (.error (.fault (.violated v)), oneProgram)) ∧
      (∃ w', oneProgram.step (.swapBody (.place (.slot "p")) (.place (.entry "c" "turn"))) =
        (.ok .nothing, w') ∧ oneProgram.Exchanged w' (.body "p") (.entry "c" "turn")) ∧
      (∃ v, oneProgram.step (.swapBody (.place (.slot "p")) (.place (.slot "s"))) =
        (.error (.fault (.violated v)), oneProgram)) ∧
      oneProgram.step (.swapBody (.place (.slot "p")) (.place (.body "p"))) =
        (.error (.fault (.violated .sameStatement)),
          oneProgram.setStatement .empty (.body "p")) := by
  have hp : oneProgram.content? "p" =
      some (.program { Program.empty with body := .block [.call "move"] }) := rfl
  have hc : oneProgram.TakesContext (.place (.slot "c")) "c" (Table.empty.insert "turn" .empty) :=
    ⟨rfl, rfl, by decide⟩
  have hs : ∀ m c, ¬ oneProgram.TakesContext (.place (.slot "s")) m c := by
    rintro m c ⟨h, hm, -⟩
    cases h
    cases hm
  have ht : ∀ place t, ¬ oneProgram.TakesBlock (.place (.slot "s")) place t := by
    rintro place t ⟨h, ht, hk⟩
    cases h
    cases ht
    cases hk
  refine ⟨?_, (swaps_exchange hp _).2.1 hs, ?_, (swaps_exchange hp _).2.2.2.1 ht, ?_⟩
  · obtain ⟨w', hstep, hw⟩ := (swaps_exchange hp _).1 "c" _ hc
    exact ⟨w', hstep, hw "c"⟩
  · exact (swaps_exchange hp _).2.2.1 (.entry "c" "turn") .empty ⟨rfl, rfl, rfl⟩ nofun
  · exact (swaps_exchange hp _).2.2.2.2 (.block [.call "move"]) ⟨rfl, rfl, rfl⟩

/-- **A lost body.** A program is to exchange its body with this very body.  It is refused, but the
    body is gone. -/
theorem swapBody_loses_body :
    ∃ w', oneProgram.step (.swapBody (.place (.slot "p")) (.place (.body "p"))) =
        (.error (.fault (.violated .sameStatement)), w') ∧
      oneProgram.statement? (.body "p") = some (.block [.call "move"]) ∧
      w'.statement? (.body "p") = some .empty ∧ w' ≠ oneProgram := by
  refine ⟨_, rfl, rfl, rfl, fun h => ?_⟩
  have hbody := congrArg (Workspace.statement? · (.body "p")) h
  cases hbody

end Workspace

end BL
