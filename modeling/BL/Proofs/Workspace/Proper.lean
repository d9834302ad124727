import BL.Proofs.Workspace.Exchange
import BL.Proofs.Workspace.Outcomes
import BL.Proofs.Workspace.Sound

namespace BL

/-!
# Actions that keep programs proper

The name of a program and the names in its context are identifiers, and its definitions and its body
are blocks.  A program checks this when it is given one of these parts.  But its statements can also
be reached one by one, as statements among others, and be made into something else.  What is kept
is therefore said with regard to a demand: a choice of places where blocks have to be.

* `Program.Proper`, `Workspace.Proper` — identifiers as names, and blocks where they are demanded;
* `Workspace.Proper.setContent`, `Workspace.Proper.setStatement` — writing contents and statements;
* `Action.behind` — the workspace that an action leaves behind, whatever comes of it;
* `Action.proper_insertChild`, `Action.proper_transfer`, … — the operations on statements;
* `Action.proper_swapContext`, `Action.proper_swapBody`, … — the operations on programs.
-/

/-! ### Proper programs -/

/-- All names are identifiers; where there is a demand, definitions and body are blocks. -/
structure Program.Proper (D : Place → Prop) (n : String) (p : Program) : Prop where
  name : Word.isIdentifier p.name = true
  entries : ∀ e ∈ p.context.entries,
    Word.isIdentifier e.1 = true ∧ (D (.entry n e.1) → e.2.kind = .block)
  body : D (.body n) → p.body.kind = .block

/-- The same for a content, if it is a program. -/
def Content.Proper (D : Place → Prop) (n : String) : Content → Prop
  | program p => p.Proper D n
  | _ => True

variable {D D' : Place → Prop} {n : String}

theorem Program.Proper.mono {p : Program} (hp : p.Proper D n) (h : ∀ q, D' q → D q) :
    p.Proper D' n where
  name := hp.name
  entries e he := ⟨(hp.entries e he).1, fun hd => (hp.entries e he).2 (h _ hd)⟩
  body hd := hp.body (h _ hd)

theorem Program.WellFormed.proper {p : Program} (hp : p.WellFormed) : p.Proper D n where
  name := hp.name
  entries e he := ⟨(hp.entries e he).1, fun _ => (hp.entries e he).2.1⟩
  body _ := hp.body.1

theorem Program.proper_empty : Program.empty.Proper D n where
  name := by decide
  entries := List.forall_mem_nil _
  body _ := rfl

theorem Program.Proper.setName {p q : Program} {name : Option String} (hp : p.Proper D n)
    (h : p.setName name = .ok q) : q.Proper D n := by
  unfold Program.setName at h
  split at h
  · rename_i m hm
    cases h
    exact ⟨(Option.filter_eq_some_iff.1 hm).2, hp.entries, hp.body⟩
  · cases h

theorem Content.Proper.mono {c : Content} (hc : c.Proper D n) (h : ∀ q, D' q → D q) :
    c.Proper D' n := by
  cases c with
  | program p => exact Program.Proper.mono hc h
  | _ => trivial

/-- A value in a table with a new entry is the new one, or it was there under another name. -/
theorem Table.mem_entries_insert {α : Type} {t : Table α} {name : String} {v : α}
    {e : String × α} (he : e ∈ (t.insert name v).entries) :
    e = (name, v) ∨ e.1 ≠ name ∧ e ∈ t.entries := by
  obtain ⟨m, u⟩ := e
  rw [← Table.find?_eq_some_iff, Table.find?_insert] at he
  split at he
  · rename_i hm
    exact .inl (by rw [hm, Option.some.inj he])
  · rename_i hm
    exact .inr ⟨hm, t.find?_eq_some_iff.1 he⟩

namespace Workspace

variable {w : Workspace} {p : Place} {s t : Statement} {c : Content}

/-- All programs are proper with regard to the demand. -/
def Proper (D : Place → Prop) (w : Workspace) : Prop :=
  ∀ n c, w.content? n = some c → c.Proper D n

theorem proper_empty : Workspace.empty.Proper D := by
  intro n c h
  cases h

theorem Proper.mono (hw : w.Proper D) (h : ∀ q, D' q → D q) : w.Proper D' :=
  fun n c hc => (hw n c hc).mono h

theorem Proper.setContent (hw : w.Proper D) (hc : c.Proper D n) :
    (w.setContent n c).Proper D := by
  intro m d hd
  rw [content?_setContent] at hd
  split at hd
  · rename_i hm
    subst hm
    exact Option.some.inj hd ▸ hc
  · exact hw m d hd

/-- **Writing** a statement keeps programs proper, if no block is replaced that is demanded. -/
theorem Proper.setStatement (hw : w.Proper D) (hp : w.statement? p = some t)
    (hs : D p → t.kind = .block → s.kind = .block) : (w.setStatement s p).Proper D := by
  cases p with
  | slot n => exact hw.setContent trivial
  | body n =>
    simp only [statement?] at hp
    split at hp
    · rename_i q hq
      cases hp
      have hold : q.Proper D n := hw n _ hq
      simp only [Workspace.setStatement, hq]
      exact hw.setContent ⟨hold.name, hold.entries, fun hd => hs hd (hold.body hd)⟩
    · cases hp
  | entry n m =>
    simp only [statement?] at hp
    split at hp
    · rename_i q hq
      have hold : q.Proper D n := hw n _ hq
      have hentry := hold.entries _ (q.context.find?_eq_some_iff.1 hp)
      simp only [Workspace.setStatement, hq]
      refine hw.setContent ⟨hold.name, fun e he => ?_, hold.body⟩
      rcases Table.mem_entries_insert he with rfl | ⟨-, he⟩
      · exact ⟨hentry.1, fun hd => hs hd (hentry.2 hd)⟩
      · exact hold.entries e he
    · rename_i d hd
      simp only [Workspace.setStatement, hd]
      exact hw.setContent trivial
    · cases hp

/-- Wherever there is a statement, there may be a block. -/
theorem Proper.setBlock (hw : w.Proper D) (hp : w.statement? p = some t)
    (hs : s.kind = .block) : (w.setStatement s p).Proper D :=
  hw.setStatement hp fun _ _ => hs

/-- What stands under a name in a context that belongs to no program is not demanded. -/
theorem Proper.setEntry {d : Context} (hw : w.Proper D) (hd : w.content? n = some (.context d))
    (m : String) : (w.setStatement s (.entry n m)).Proper D := by
  simp only [Workspace.setStatement, hd]
  exact hw.setContent trivial

/-- A statement is still there when another one is written. -/
theorem exists_statement?_setStatement {q : Place} {u : Statement} (hp : w.statement? p = some t)
    (hq : w.statement? q = some u) : ∃ v, (w.setStatement s p).statement? q = some v := by
  rw [statement?_setStatement hp]
  split
  · exact ⟨s, rfl⟩
  · exact ⟨u, hq⟩

end Workspace

namespace Action

open Workspace

variable {α β : Type} {x : Action α} {f : α → Action β} {w w' : Workspace} {P : Workspace → Prop}
  {target : Place} {r : Reference} {s t : Statement}

/-! ### Behind an action -/

/-- The workspace that is reached, also by an action that fails. -/
def reached : EStateM.Result Failure Workspace α → Workspace
  | .ok _ w | .error _ w => w

/-- The workspace behind an action, whatever comes of it. -/
def behind (x : Action α) (w : Workspace) : Workspace := reached (x w)

theorem behind_eq {res : EStateM.Result Failure Workspace α} (h : x w = res) :
    behind x w = reached res := by
  rw [behind, h]

theorem Looks.behind (hx : Looks x) (w : Workspace) : Action.behind x w = w := by
  rcases hx w with ⟨a, h⟩ | ⟨e, h⟩
  · exact behind_eq h
  · exact behind_eq h

theorem behind_bind_ok {a : α} (h : x w = .ok a w') (f : α → Action β) :
    behind (x >>= f) w = behind (f a) w' :=
  behind_eq (bind_ok h f)

/-- Steps that only look are not seen behind an action. -/
theorem behind_bind_looks (x : Action α) (hf : ∀ a, Looks (f a)) (w : Workspace) :
    behind (x >>= f) w = behind x w := by
  cases hx : x w with
  | ok a u => rw [behind_bind_ok hx, (hf a).behind, behind_eq hx, reached]
  | error e u => rw [behind_eq (bind_error hx f), behind_eq hx, reached, reached]

/-- Whatever is made of the result. -/
theorem behind_result (x : Action α) (g : α → β) (w : Workspace) :
    behind (x >>= fun a => pure (g a)) w = behind x w :=
  behind_bind_looks x (fun _ => looks_pure _) w

/-- Behind a step that only looks it goes on in the same workspace. -/
theorem Looks.behind_bind (hx : Looks x) (hw : P w)
    (h : ∀ a, x w = .ok a w → P (Action.behind (f a) w)) : P (Action.behind (x >>= f) w) := by
  rcases hx w with ⟨a, ha⟩ | ⟨e, he⟩
  · rw [behind_bind_ok ha]
    exact h a ha
  · rw [behind_eq (bind_error he f)]
    exact hw

/-- An action at a place where there is a statement. -/
theorem behind_statementPlace_bind {f : Place → Action β} (hw : P w)
    (h : ∀ p s, r = .place p → w.statement? p = some s → P (behind (f p) w)) :
    P (behind (statementPlace r >>= f) w) := by
  refine (looks_locate _ _).behind_bind hw fun p hp => ?_
  obtain ⟨hr, s, hs⟩ := statementPlace?_eq_some_iff.1 (locate_eq_ok hp)
  exact h p s hr hs

/-- An action on a program in a slot. -/
theorem behind_programSlot_bind {f : String → Action β} (hw : P w)
    (h : ∀ n p, w.content? n = some (.program p) → P (behind (f n) w)) :
    P (behind (programSlot r >>= f) w) := by
  refine (looks_locate _ _).behind_bind hw fun n hn => ?_
  have hslot := locate_eq_ok hn
  unfold programSlot? at hslot
  split at hslot
  · split at hslot
    · rename_i m p hp
      cases hslot
      exact h _ p hp
    · cases hslot
  · cases hslot

/-! ### Moving statements -/

/-- A statement is moved away, and another one is written to the target. -/
theorem proper_moveInto {q : Place} {u : Statement} (hw : w.Proper D)
    (hs : w.statement? q = some s) (ht : w.statement? target = some t)
    (hu : D target → u.kind = .block) :
    ((w.setStatement .empty q).setStatement u target).Proper D := by
  obtain ⟨v, hv⟩ := exists_statement?_setStatement (s := .empty) hs ht
  exact (hw.setBlock hs rfl).setStatement hv fun hd _ => hu hd

theorem proper_insertChild {index : Int} (hw : w.Proper D) :
    (behind (insertChild target index r) w).Proper D := by
  rcases insertChild_cases rfl with ⟨e, he⟩ | ⟨ss, q, s, ht, -, -, hs, -, hres⟩
  · rwa [behind_eq he]
  · rw [behind_eq hres]
    exact proper_moveInto hw hs ht fun _ => rfl

theorem proper_removeChild {index : Int} {slot : String} (hw : w.Proper D) :
    (behind (removeChild target index slot) w).Proper D := by
  rcases removeChild_cases rfl with ⟨e, he⟩ | ⟨ss, s, ht, -, hres⟩
  · rwa [behind_eq he]
  · rw [behind_eq hres]
    exact (hw.setBlock ht rfl).setContent trivial

/-- What is made of the target is no block, so that none may be demanded there. -/
theorem proper_assembleIf {c : Option Condition} (hw : w.Proper D)
    (ht : w.statement? target = some t) (hd : ¬ D target) :
    (behind (assembleIf target c r) w).Proper D := by
  rcases assembleIf_cases rfl with ⟨e, he⟩ | ⟨d, q, s, -, -, hs, -, hres⟩
  · rwa [behind_eq he]
  · rw [behind_eq hres]
    exact proper_moveInto hw hs ht fun h => absurd h hd

theorem proper_assembleWhile {c : Option Condition} (hw : w.Proper D)
    (ht : w.statement? target = some t) (hd : ¬ D target) :
    (behind (assembleWhile target c r) w).Proper D := by
  rcases assembleWhile_cases rfl with ⟨e, he⟩ | ⟨d, q, s, -, -, hs, -, hres⟩
  · rwa [behind_eq he]
  · rw [behind_eq hres]
    exact proper_moveInto hw hs ht fun h => absurd h hd

theorem proper_transfer (hw : w.Proper D) (ht : w.statement? target = some t) (hd : ¬ D target) :
    (behind (transfer target r) w).Proper D := by
  rcases transfer_cases rfl with ⟨e, he⟩ | ⟨q, s, -, hs, -, hres⟩
  · rwa [behind_eq he]
  · rw [behind_eq hres]
    exact proper_moveInto hw hs ht fun h => absurd h hd

theorem proper_assembleIfElse {c : Option Condition} {r' : Reference} (hw : w.Proper D)
    (ht : w.statement? target = some t) (hd : ¬ D target) :
    (behind (assembleIfElse target c r r') w).Proper D := by
  rcases assembleIfElse_cases rfl with ⟨e, he⟩ | ⟨e, q, s, hs, hres⟩ |
    ⟨d, q, q', s, s', -, -, -, hs, hs', -, -, -, hres⟩
  · rwa [behind_eq he]
  · rw [behind_eq hres]
    exact hw.setBlock hs rfl
  · rw [behind_eq hres]
    obtain ⟨v, hv⟩ := exists_statement?_setStatement (s := .empty) hs hs'
    obtain ⟨u, hu⟩ := exists_statement?_setStatement (s := .empty) hs ht
    exact proper_moveInto (hw.setBlock hs rfl) hv hu fun h => absurd h hd

theorem proper_assembleCall {name : Option String} (hw : w.Proper D)
    (ht : w.statement? target = some t) (hd : ¬ D target) :
    (behind (assembleCall target name) w).Proper D := by
  rcases assembleCall_cases rfl with ⟨e, he⟩ | ⟨n, -, hres⟩
  · rwa [behind_eq he]
  · rw [behind_eq hres]
    exact hw.setStatement ht fun h => absurd h hd

/-- What is handed out is a block, wherever it goes. -/
theorem proper_handed (hw : w.Proper D) (hs : s.kind = .block) (h : Handed r s w w') :
    w'.Proper D := by
  rcases h with ⟨q, t, -, ht, rfl⟩ | ⟨-, rfl⟩
  · exact hw.setBlock ht hs
  · exact hw

/-- A part is handed out, and the target becomes an empty block. -/
theorem proper_handOut (hw : w.Proper D) (ht : w.statement? target = some t)
    (hs : s.kind = .block) (hne : r ≠ .place target) (h : Handed r s w w') :
    (w'.setStatement .empty target).Proper D :=
  (proper_handed hw hs h).setBlock ((h.statement?_of_ne hne).trans ht) rfl

/-- A part is gone from a construct that is no block, nor has to be one. -/
theorem proper_hollow {hollow : Statement} (hw : w.Proper D) (ht : w.statement? target = some t)
    (hk : t.kind ≠ .block) : (w.setStatement hollow target).Proper D :=
  hw.setStatement ht fun _ h => absurd h hk

theorem proper_disassembleIf (hshaped : w.Shaped) (hw : w.Proper D) :
    (behind (disassembleIf target r) w).Proper D := by
  rcases disassembleIf_cases rfl with ⟨e, he⟩ | ⟨c, s, ht, hne, ⟨e, hres⟩ | ⟨w', hhand, hres⟩⟩
  · rwa [behind_eq he]
  · rw [behind_eq hres]
    exact proper_hollow hw ht nofun
  · rw [behind_eq hres]
    have hbranch := Statement.wellFormed_ifThen.1 (hshaped.statement? ht)
    exact proper_handOut hw ht hbranch.1 hne hhand

theorem proper_disassembleWhile (hshaped : w.Shaped) (hw : w.Proper D) :
    (behind (disassembleWhile target r) w).Proper D := by
  rcases disassembleWhile_cases rfl with ⟨e, he⟩ | ⟨c, s, ht, hne, ⟨e, hres⟩ | ⟨w', hhand, hres⟩⟩
  · rwa [behind_eq he]
  · rw [behind_eq hres]
    exact proper_hollow hw ht nofun
  · rw [behind_eq hres]
    have hbody := Statement.wellFormed_whileDo.1 (hshaped.statement? ht)
    exact proper_handOut hw ht hbody.1 hne hhand

theorem proper_disassembleIfElse {r' : Reference} (hshaped : w.Shaped) (hw : w.Proper D) :
    (behind (disassembleIfElse target r r') w).Proper D := by
  rcases disassembleIfElse_cases rfl with ⟨e, he⟩ | ⟨c, s, s', ht, hne, hne', -, hres⟩
  · rwa [behind_eq he]
  have hbranches := Statement.wellFormed_ifElse.1 (hshaped.statement? ht)
  rcases hres with ⟨e, hres⟩ | ⟨w₁, hfirst, hres⟩
  · rw [behind_eq hres]
    exact proper_hollow hw ht nofun
  -- The target is as it was when the first branch is handed out.
  have hw₁ := proper_handed hw hbranches.1.1 hfirst
  have ht₁ := (hfirst.statement?_of_ne hne).trans ht
  rcases hres with ⟨e, hres⟩ | ⟨w₂, hsecond, hres⟩
  · rw [behind_eq hres]
    exact proper_hollow hw₁ ht₁ nofun
  · rw [behind_eq hres]
    exact proper_handOut hw₁ ht₁ hbranches.2.1 hne' hsecond

theorem proper_disassembleCall (hw : w.Proper D) :
    (behind (disassembleCall target) w).Proper D := by
  rcases disassembleCall_cases rfl with ⟨e, he⟩ | ⟨n, ht, hres⟩
  · rwa [behind_eq he]
  · rw [behind_eq hres]
    exact hw.setBlock ht rfl

theorem proper_clear (hw : w.Proper D) (ht : w.statement? target = some t) :
    (behind (clear target) w).Proper D :=
  hw.setBlock ht rfl

/-! ### Programs and contexts -/

theorem programIn_eq_ok {p : Program} (h : programIn n w = .ok p w') :
    w.content? n = some (.program p) := by
  unfold programIn at h
  rw [get_bind] at h
  cases hc : w.content? n with
  | none =>
    rw [hc] at h
    cases h
  | some c =>
    rw [hc] at h
    cases c with
    | program q =>
      cases h
      rfl
    | _ => cases h

theorem proper_setProgram {p : Program} (hw : w.Proper D) (hp : p.Proper D n) :
    (behind (setProgram n p) w).Proper D :=
  hw.setContent hp

theorem proper_clearProgram (hw : w.Proper D) : (behind (clearProgram n) w).Proper D :=
  proper_setProgram hw Program.proper_empty

theorem proper_setName {name : Option String} (hw : w.Proper D) :
    (behind (setName n name) w).Proper D := by
  refine (looks_programIn n).behind_bind hw fun p hp => ?_
  refine (looks_check _).behind_bind hw fun q hq => proper_setProgram hw ?_
  exact Program.Proper.setName (hw n _ (programIn_eq_ok hp)) (eq_ok_of_check hq)

/-- **Contexts** are checked before a program gets them. -/
theorem proper_swapContext {p : Program} (hw : w.Proper D)
    (hp : w.content? n = some (.program p)) : (behind (swapContext n r) w).Proper D := by
  cases hslot : w.contextSlot? r with
  | none => rwa [behind_eq (swapContext_of_none hslot)]
  | some m =>
    obtain ⟨-, c, hc⟩ := contextSlot?_eq_some_iff.1 hslot
    have hstep := swapContext_eq hp hslot hc
    cases hentries : Program.checkEntries c.entries with
    | error v =>
      rw [hentries] at hstep
      rwa [behind_eq hstep]
    | ok u =>
      rw [hentries] at hstep
      rw [behind_eq hstep]
      have hold : p.Proper D n := hw n _ hp
      have hnew := Program.checkEntries_eq_ok_iff.1 hentries
      have hprogram : (Content.program { p with context := c }).Proper D n :=
        ⟨hold.name, fun e he => ⟨(hnew e he).1, fun _ => (hnew e he).2⟩, hold.body⟩
      exact (hw.setContent hprogram).setContent trivial

section

-- Programs, and bodies of programs, go where the demand may be another one.
variable {b : Prop}

theorem proper_transferProgram (hw : w.Proper fun _ => b) :
    (behind (transferProgram n r) w).Proper fun _ => b := by
  refine looks_get.behind_bind hw fun u hu => ?_
  split
  · exact hw
  · rename_i m _
    refine (looks_refuse _ _).behind_bind hw fun _ _ => ?_
    refine (looks_programIn m).behind_bind hw fun p hp => ?_
    have hmoved : p.Proper (fun _ => b) m := hw m _ (programIn_eq_ok hp)
    exact (hw.setContent (c := .program .empty) Program.proper_empty).setContent
      (c := .program p) ⟨hmoved.name, hmoved.entries, hmoved.body⟩

/-- **Bodies** are checked before a program gets them, and what comes out of it may go into another
    program. -/
theorem proper_swapBody {p : Program} (hw : w.Proper fun _ => b)
    (hp : w.content? n = some (.program p)) :
    (behind (swapBody n r) w).Proper fun _ => b := by
  have hold : p.Proper (fun _ => b) n := hw n _ hp
  have hbody := statement?_body hp
  cases hplace : w.statementPlace? r with
  | none => rwa [behind_eq (swapBody_of_none hplace)]
  | some place =>
    obtain ⟨rfl, s, hs⟩ := statementPlace?_eq_some_iff.1 hplace
    by_cases hk : s.kind = .block
    · by_cases hne : place = .body n
      · subst hne
        obtain rfl := Option.some.inj (hbody.symm.trans hs)
        rw [behind_eq (swapBody_self hp hk)]
        exact hw.setBlock hbody rfl
      · rw [behind_eq (swapBody_eq hp hplace hs hk hne)]
        -- Each place is still there when it is written.
        obtain ⟨s₁, h₁⟩ := exists_statement?_setStatement (s := .empty) hbody hs
        obtain ⟨s₂, h₂⟩ := exists_statement?_setStatement (s := .empty) hbody hbody
        obtain ⟨s₃, h₃⟩ := exists_statement?_setStatement (s := .empty) h₁ h₂
        obtain ⟨s₄, h₄⟩ := exists_statement?_setStatement (s := .empty) h₁ h₁
        obtain ⟨s₅, h₅⟩ := exists_statement?_setStatement (s := s) h₃ h₄
        exact (((hw.setBlock hbody rfl).setBlock h₁ rfl).setBlock h₃ hk).setStatement h₅
          fun hb _ => hold.body hb
    · rwa [behind_eq (swapBody_of_not_block hp hplace hs hk)]

end

theorem proper_clearContext (hw : w.Proper D) : (behind (clearContext n) w).Proper D :=
  hw.setContent trivial

/-- **Entries** of a context are not checked, but the context belongs to no program. -/
theorem proper_putEntry {m : String} {c : Context} (hw : w.Proper D)
    (hc : w.content? n = some (.context c)) : (behind (putEntry n m r) w).Proper D := by
  unfold putEntry
  rw [behind_bind_ok (contextIn_eq hc)]
  refine looks_get.behind_bind hw fun u hu => ?_
  cases hu
  split
  · exact hw
  · rename_i q hq
    refine (looks_statementAt q).behind_bind hw fun s hs => ?_
    have hs' := statementAt_eq_ok hs
    -- What is written first leaves the context a context.
    have hrel := sameOutline_setStatement hs' .empty n
    rw [hc] at hrel
    cases hd : (w.setStatement .empty q).content? n with
    | none =>
      rw [hd] at hrel
      cases hrel
    | some d =>
      rw [hd] at hrel
      cases hrel with
      | some hsame =>
        cases hsame with
        | context _ => exact (hw.setBlock hs' rfl).setEntry hd m

end Action

end BL
