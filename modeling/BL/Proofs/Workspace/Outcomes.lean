import BL.Proofs.Workspace.Violations

namespace BL.Action

/-!
# What the operations on statements can do

Each operation that builds statements, takes them apart or moves them has few outcomes: it is
refused before anything is written, or it is done, and where two statements are moved away or a part
is handed out there are points between.  This file lists the outcomes of each of them, with all that
was found out on the way, so that nothing else has to be known about the operations.

* `Action.Refused` — the action failed and left the workspace as it was;
* `Action.Looks.bind_cases` — a step that only looks is passed, or refuses;
* `Action.Handed` — what becomes of a statement that is handed out;
* `Action.take_bind_cases`, `Action.insertChild_cases`, … — the outcomes of each operation.
-/

variable {α β : Type} {x : Action α} {f : α → Action β} {w w' : Workspace} {target p : Place}
  {r : Reference} {s : Statement}

/-! ### Passing steps that only look -/

/-- The action failed and left the workspace as it was. -/
def Refused (w : Workspace) (res : EStateM.Result Failure Workspace α) : Prop :=
  ∃ e, res = .error e w

/-- A step that only looks refuses, or what follows starts in the same workspace. -/
theorem Looks.bind_cases {res : EStateM.Result Failure Workspace β} (hx : Looks x)
    (h : (x >>= f) w = res) : Refused w res ∨ ∃ a, x w = .ok a w ∧ f a w = res := by
  rcases hx w with ⟨a, ha⟩ | ⟨e, he⟩
  · exact .inr ⟨a, ha, (bind_ok ha f).symm.trans h⟩
  · exact .inl ⟨e, h.symm.trans (bind_error he f)⟩

/-- The statement at a place is there. -/
theorem statementAt_eq_ok (h : statementAt p w = .ok s w') : w.statement? p = some s := by
  unfold statementAt at h
  rw [get_bind] at h
  cases hs : w.statement? p with
  | none =>
    rw [hs] at h
    cases h
  | some t =>
    rw [hs] at h
    cases h
    rfl

/-- The statement that a reference leads to is at the place that it names. -/
theorem exists_place_of_statementOf (h : Action.statementOf r w = .ok s w') :
    ∃ q, r = .place q ∧ w.statement? q = some s := by
  obtain ⟨q, hq, hs⟩ := statementOf_eq_ok h
  exact ⟨q, (Workspace.statementPlace?_eq_some_iff.1 hq).1, hs⟩

theorem not_of_refuse_eq_ok {c : Prop} [Decidable c] {v : Violation} {u : Unit}
    (h : refuse c v w = .ok u w') : ¬ c := by
  intro hc
  rw [refuse_of hc] at h
  cases h

theorem sameAs_place_iff : r.sameAs (.place p) = true ↔ r = .place p := by
  cases r with
  | nothing => simp [Reference.sameAs]
  | place q => simp [Reference.sameAs]
  | contextOf n => simp [Reference.sameAs]

/-! ### Moving in -/

/-- **Taking.** A statement is moved away only from another place than the target, and what follows
    starts where an empty block is left. -/
theorem take_bind_cases {f : Statement → Action β} {res : EStateM.Result Failure Workspace β}
    (h : (take target r >>= f) w = res) : Refused w res ∨ ∃ q s, r = .place q ∧
      w.statement? q = some s ∧ q ≠ target ∧ f s (w.setStatement .empty q) = res := by
  cases hq : w.statementPlace? r with
  | none =>
    have htake : take target r w = .error (.fault (.violated .notAStatement)) w := by
      unfold take
      rw [get_bind, hq]
      rfl
    exact .inl ⟨_, h.symm.trans (bind_error htake f)⟩
  | some q =>
    obtain ⟨rfl, s, hs⟩ := Workspace.statementPlace?_eq_some_iff.1 hq
    rw [bind_eq, take_eq hq hs] at h
    by_cases hne : q = target
    · rw [if_pos hne] at h
      exact .inl ⟨_, h.symm⟩
    · rw [if_neg hne] at h
      exact .inr ⟨q, s, rfl, hs, hne, h⟩

/-- **Moving in.** A statement is moved away from its place, and what is made of it is written to
    the target. -/
theorem moveInto_cases {g : Statement → Statement} {res : EStateM.Result Failure Workspace Unit}
    (h : (do let s ← take target r; setStatement target (g s) : Action Unit) w = res) :
    Refused w res ∨ ∃ q s, r = .place q ∧ w.statement? q = some s ∧ q ≠ target ∧
      res = .ok () ((w.setStatement .empty q).setStatement (g s) target) := by
  rcases take_bind_cases h with hw | ⟨q, s, hr, hs, hne, h⟩
  · exact .inl hw
  · exact .inr ⟨q, s, hr, hs, hne, h.symm⟩

/-- **Whole statements** are moved as they are. -/
theorem transfer_cases {res : EStateM.Result Failure Workspace Unit}
    (h : transfer target r w = res) : Refused w res ∨ ∃ q s, r = .place q ∧
      w.statement? q = some s ∧ q ≠ target ∧
      res = .ok () ((w.setStatement .empty q).setStatement s target) :=
  moveInto_cases (g := id) h

/-- What is to be written is built first, and then the statement is moved away. -/
theorem buildFrom_cases {build : Statement → Except Violation Statement}
    {res : EStateM.Result Failure Workspace Unit}
    (h : (do let s ← check (build (← Action.statementOf r))
             let _ ← take target r
             setStatement target s : Action Unit) w = res) :
    Refused w res ∨ ∃ q s u, r = .place q ∧ w.statement? q = some s ∧ q ≠ target ∧
      build s = .ok u ∧ res = .ok () ((w.setStatement .empty q).setStatement u target) := by
  rcases (looks_statementOf r).bind_cases h with hw | ⟨s, hs, h⟩
  · exact .inl hw
  rcases (looks_check _).bind_cases h with hw | ⟨u, hu, h⟩
  · exact .inl hw
  rcases moveInto_cases (g := fun _ => u) h with hw | ⟨q, t, rfl, ht, hne, hres⟩
  · exact .inl hw
  obtain ⟨q', hq, hs⟩ := exists_place_of_statementOf hs
  cases hq
  exact .inr ⟨q, s, u, rfl, hs, hne, eq_ok_of_check hu, hres⟩

/-- **Blocks** take in a statement that is no block, at one of their places. -/
theorem insertChild_cases {index : Int} {res : EStateM.Result Failure Workspace Unit}
    (h : insertChild target index r w = res) :
    Refused w res ∨ ∃ ss q s, w.statement? target = some (.block ss) ∧
      index.toNat ≤ ss.length ∧ r = .place q ∧ w.statement? q = some s ∧ q ≠ target ∧
      res = .ok () ((w.setStatement .empty q).setStatement
        (.block (ss.insertIdx index.toNat s)) target) := by
  rcases (looks_statementAt _).bind_cases h with hw | ⟨t, ht, h⟩
  · exact .inl hw
  rcases (looks_check _).bind_cases h with hw | ⟨_, -, h⟩
  · exact .inl hw
  rcases buildFrom_cases h with hw | ⟨q, s, u, hr, hs, hne, hu, hres⟩
  · exact .inl hw
  obtain ⟨ss, rfl, -, hle, -, rfl⟩ := Statement.insertChild_eq_ok hu
  exact .inr ⟨ss, q, s, statementAt_eq_ok ht, by omega, hr, hs, hne, hres⟩

/-- **Conditionals** with one branch are made from a block. -/
theorem assembleIf_cases {c : Option Condition} {res : EStateM.Result Failure Workspace Unit}
    (h : assembleIf target c r w = res) :
    Refused w res ∨ ∃ d q s, c = some d ∧ r = .place q ∧ w.statement? q = some s ∧
      q ≠ target ∧ res = .ok () ((w.setStatement .empty q).setStatement (.ifThen d s) target) := by
  rcases buildFrom_cases h with hw | ⟨q, s, u, hr, hs, hne, hu, hres⟩
  · exact .inl hw
  obtain ⟨-, d, hd, rfl⟩ := Statement.assembleIf_eq_ok hu
  exact .inr ⟨d, q, s, hd, hr, hs, hne, hres⟩

/-- **Loops** are made from a block. -/
theorem assembleWhile_cases {c : Option Condition} {res : EStateM.Result Failure Workspace Unit}
    (h : assembleWhile target c r w = res) :
    Refused w res ∨ ∃ d q s, c = some d ∧ r = .place q ∧ w.statement? q = some s ∧
      q ≠ target ∧ res = .ok () ((w.setStatement .empty q).setStatement (.whileDo d s) target) := by
  rcases buildFrom_cases h with hw | ⟨q, s, u, hr, hs, hne, hu, hres⟩
  · exact .inl hw
  obtain ⟨-, d, hd, rfl⟩ := Statement.assembleWhile_eq_ok hu
  exact .inr ⟨d, q, s, hd, hr, hs, hne, hres⟩

/-- **Conditionals** with two branches are made from two blocks at places of their own.  If the
    second one is the target, then the first one is moved away all the same. -/
theorem assembleIfElse_cases {c : Option Condition} {r' : Reference}
    {res : EStateM.Result Failure Workspace Unit} (h : assembleIfElse target c r r' w = res) :
    Refused w res ∨
      (∃ e q s, w.statement? q = some s ∧ res = .error e (w.setStatement .empty q)) ∨
      ∃ d q q' s s', c = some d ∧ r = .place q ∧ r' = .place q' ∧ w.statement? q = some s ∧
        w.statement? q' = some s' ∧ q ≠ target ∧ q' ≠ target ∧ q' ≠ q ∧
        res = .ok () (((w.setStatement .empty q).setStatement .empty q').setStatement
          (.ifElse d s s') target) := by
  rcases (looks_refuse _ _).bind_cases h with hw | ⟨_, hdiff, h⟩
  · exact .inl hw
  rcases (looks_statementOf _).bind_cases h with hw | ⟨s, hbody, h⟩
  · exact .inl hw
  rcases (looks_check _).bind_cases h with hw | ⟨_, -, h⟩
  · exact .inl hw
  rcases (looks_statementOf _).bind_cases h with hw | ⟨s', hother, h⟩
  · exact .inl hw
  rcases (looks_check _).bind_cases h with hw | ⟨u, hu, h⟩
  · exact .inl hw
  obtain ⟨q, rfl, hs⟩ := exists_place_of_statementOf hbody
  obtain ⟨q', rfl, hs'⟩ := exists_place_of_statementOf hother
  obtain ⟨-, -, d, hd, rfl⟩ := Statement.assembleIfElse_eq_ok (eq_ok_of_check hu)
  have hne' : q' ≠ q := fun e => not_of_refuse_eq_ok hdiff (sameAs_place_iff.2 (by rw [e]))
  rcases take_bind_cases h with hw | ⟨p, t, hp, ht, hne, h⟩
  · exact .inl hw
  cases hp
  cases hs.symm.trans ht
  -- The second branch is still at its place, since the first one was at another place.
  have hsecond : (w.setStatement .empty q).statement? q' = some s' :=
    (Workspace.statement?_setStatement_of_ne hs hne').trans hs'
  rcases moveInto_cases (g := fun _ => .ifElse d s s') h with ⟨e, he⟩ | ⟨p, t, hp, -, hne₂, hres⟩
  · exact .inr (.inl ⟨e, q, s, hs, he⟩)
  · cases hp
    exact .inr (.inr ⟨d, q, q', s, s', hd, rfl, rfl, hs, hs', hne, hne₂, hne', hres⟩)

/-- **Calls** need no other statement. -/
theorem assembleCall_cases {name : Option String} {res : EStateM.Result Failure Workspace Unit}
    (h : assembleCall target name w = res) :
    Refused w res ∨ ∃ n, name = some n ∧ res = .ok () (w.setStatement (.call n) target) := by
  rcases (looks_check _).bind_cases h with hw | ⟨u, hu, h⟩
  · exact .inl hw
  obtain ⟨n, hn, -, rfl⟩ := Statement.assembleCall_eq_ok (eq_ok_of_check hu)
  exact .inr ⟨n, hn, h.symm⟩

/-! ### Handing out -/

/-- **Children** are moved out of a block into a slot. -/
theorem removeChild_cases {index : Int} {slot : String}
    {res : EStateM.Result Failure Workspace Unit} (h : removeChild target index slot w = res) :
    Refused w res ∨ ∃ ss s, w.statement? target = some (.block ss) ∧ ss[index.toNat]? = some s ∧
      res = .ok () ((w.setStatement (.block (ss.eraseIdx index.toNat)) target).setContent slot
        (.statement s)) := by
  rcases (looks_statementAt _).bind_cases h with hw | ⟨t, ht, h⟩
  · exact .inl hw
  rcases (looks_check _).bind_cases h with hw | ⟨⟨s, u⟩, hu, h⟩
  · exact .inl hw
  obtain ⟨ss, rfl, -, hs, rfl⟩ := Statement.removeChild_eq_ok (eq_ok_of_check hu)
  exact .inr ⟨ss, s, statementAt_eq_ok ht, hs, h.symm⟩

/-- A statement is handed out: it has replaced the one that the reference leads to, or there is no
    statement there, and it is lost. -/
def Handed (r : Reference) (s : Statement) (w w' : Workspace) : Prop :=
  (∃ q t, r = .place q ∧ w.statement? q = some t ∧ w' = w.setStatement s q) ∨
    (w.statementPlace? r = none ∧ w' = w)

/-- **Handing out** fails only when the part is gone from the target. -/
theorem hand_cases {hollow : Statement} {res : EStateM.Result Failure Workspace Unit}
    (h : hand target hollow r s w = res) :
    (∃ e, res = .error e (w.setStatement hollow target)) ∨
      ∃ w', Handed r s w w' ∧ res = .ok () w' := by
  unfold hand at h
  rw [get_bind] at h
  cases hq : w.statementPlace? r with
  | some q =>
    rw [hq] at h
    obtain ⟨rfl, t, ht⟩ := Workspace.statementPlace?_eq_some_iff.1 hq
    exact .inr ⟨_, .inl ⟨q, t, rfl, ht, rfl⟩, h.symm⟩
  | none =>
    rw [hq] at h
    dsimp only at h
    rw [get_bind] at h
    have hlost : Handed r s w w := .inr ⟨hq, rfl⟩
    cases hc : w.contentAt? r with
    | none =>
      rw [hc] at h
      exact .inl ⟨_, h.symm⟩
    | some c =>
      rw [hc] at h
      cases c with
      | context _ => exact .inl ⟨_, h.symm⟩
      | _ => exact .inr ⟨w, hlost, h.symm⟩

/-- What follows a statement that is handed out starts where it is handed out. -/
theorem hand_bind_cases {hollow : Statement} {res : EStateM.Result Failure Workspace β}
    {f : Unit → Action β} (h : (hand target hollow r s >>= f) w = res) :
    (∃ e, res = .error e (w.setStatement hollow target)) ∨
      ∃ w', Handed r s w w' ∧ f () w' = res := by
  rcases hand_cases (rfl : hand target hollow r s w = _) with ⟨e, he⟩ | ⟨w', hw, hok⟩
  · exact .inl ⟨e, h.symm.trans (bind_error he f)⟩
  · exact .inr ⟨w', hw, (bind_ok hok f).symm.trans h⟩

/-- **Taking apart.** A construct with one block gives its condition away and hands its block out,
    but not to the target, which is left an empty block.  If there is nowhere to hand it out to, the
    construct is left with an empty block inside. -/
theorem takeApart_cases {parts : Statement → Except Violation (Condition × Statement)}
    (hollow : Condition → Statement) {res : EStateM.Result Failure Workspace Condition}
    (h : (do let (c, s) ← check (parts (← statementAt target))
             refuse (r.sameAs (.place target)) .sameStatement
             hand target (hollow c) r s
             setStatement target .empty
             return c : Action Condition) w = res) :
    Refused w res ∨ ∃ t c s, w.statement? target = some t ∧ parts t = .ok (c, s) ∧
      r ≠ .place target ∧ ((∃ e, res = .error e (w.setStatement (hollow c) target)) ∨
        ∃ w', Handed r s w w' ∧ res = .ok c (w'.setStatement .empty target)) := by
  rcases (looks_statementAt _).bind_cases h with hw | ⟨t, ht, h⟩
  · exact .inl hw
  rcases (looks_check _).bind_cases h with hw | ⟨⟨c, s⟩, hparts, h⟩
  · exact .inl hw
  rcases (looks_refuse _ _).bind_cases h with hw | ⟨_, hdiff, h⟩
  · exact .inl hw
  have hne : r ≠ .place target := fun e => not_of_refuse_eq_ok hdiff (sameAs_place_iff.2 e)
  refine .inr ⟨t, c, s, statementAt_eq_ok ht, eq_ok_of_check hparts, hne, ?_⟩
  rcases hand_bind_cases h with hw | ⟨w', hw, h⟩
  · exact .inl hw
  · exact .inr ⟨w', hw, h.symm⟩

/-- **Conditionals** with one branch are taken apart. -/
theorem disassembleIf_cases {res : EStateM.Result Failure Workspace Condition}
    (h : disassembleIf target r w = res) :
    Refused w res ∨ ∃ c s, w.statement? target = some (.ifThen c s) ∧ r ≠ .place target ∧
      ((∃ e, res = .error e (w.setStatement (.ifThen c .empty) target)) ∨
        ∃ w', Handed r s w w' ∧ res = .ok c (w'.setStatement .empty target)) := by
  rcases takeApart_cases (.ifThen · .empty) h with
    hw | ⟨t, c, s, ht, hparts, hne, hres⟩
  · exact .inl hw
  cases t with
  | ifThen d body =>
    cases hparts
    exact .inr ⟨c, s, ht, hne, hres⟩
  | _ => cases hparts

/-- **Loops** are taken apart. -/
theorem disassembleWhile_cases {res : EStateM.Result Failure Workspace Condition}
    (h : disassembleWhile target r w = res) :
    Refused w res ∨ ∃ c s, w.statement? target = some (.whileDo c s) ∧ r ≠ .place target ∧
      ((∃ e, res = .error e (w.setStatement (.whileDo c .empty) target)) ∨
        ∃ w', Handed r s w w' ∧ res = .ok c (w'.setStatement .empty target)) := by
  rcases takeApart_cases (.whileDo · .empty) h with
    hw | ⟨t, c, s, ht, hparts, hne, hres⟩
  · exact .inl hw
  cases t with
  | whileDo d body =>
    cases hparts
    exact .inr ⟨c, s, ht, hne, hres⟩
  | _ => cases hparts

/-- **Conditionals** with two branches are taken apart.  If there is nowhere to hand the second
    branch out to, then the first one is handed out all the same. -/
theorem disassembleIfElse_cases {r' : Reference} {res : EStateM.Result Failure Workspace Condition}
    (h : disassembleIfElse target r r' w = res) :
    Refused w res ∨ ∃ c s s', w.statement? target = some (.ifElse c s s') ∧
      r ≠ .place target ∧ r' ≠ .place target ∧ r.sameAs r' = false ∧
      ((∃ e, res = .error e (w.setStatement (.ifElse c .empty s') target)) ∨
        ∃ w₁, Handed r s w w₁ ∧
          ((∃ e, res = .error e (w₁.setStatement (.ifElse c .empty .empty) target)) ∨
            ∃ w₂, Handed r' s' w₁ w₂ ∧ res = .ok c (w₂.setStatement .empty target))) := by
  rcases (looks_statementAt _).bind_cases h with hw | ⟨t, ht, h⟩
  · exact .inl hw
  rcases (looks_check _).bind_cases h with hw | ⟨⟨c, s, s'⟩, hparts, h⟩
  · exact .inl hw
  rcases (looks_refuse _ _).bind_cases h with hw | ⟨_, htarget, h⟩
  · exact .inl hw
  rcases (looks_refuse _ _).bind_cases h with hw | ⟨_, hdiff, h⟩
  · exact .inl hw
  have ht' : w.statement? target = some (.ifElse c s s') := by
    rw [statementAt_eq_ok ht]
    have hparts' := eq_ok_of_check hparts
    cases t with
    | ifElse d body alternative =>
      cases hparts'
      rfl
    | _ => cases hparts'
  have hne := not_of_refuse_eq_ok htarget
  rw [Bool.or_eq_true, not_or, sameAs_place_iff, sameAs_place_iff] at hne
  have hsame := not_of_refuse_eq_ok hdiff
  rw [Bool.not_eq_true] at hsame
  refine .inr ⟨c, s, s', ht', hne.1, hne.2, hsame, ?_⟩
  rcases hand_bind_cases h with hw | ⟨w₁, hw₁, h⟩
  · exact .inl hw
  refine .inr ⟨w₁, hw₁, ?_⟩
  rcases hand_bind_cases h with hw | ⟨w₂, hw₂, h⟩
  · exact .inl hw
  · exact .inr ⟨w₂, hw₂, h.symm⟩

/-- **Calls** are taken apart. -/
theorem disassembleCall_cases {res : EStateM.Result Failure Workspace String}
    (h : disassembleCall target w = res) :
    Refused w res ∨ ∃ n, w.statement? target = some (.call n) ∧
      res = .ok n (w.setStatement .empty target) := by
  rcases (looks_statementAt _).bind_cases h with hw | ⟨t, ht, h⟩
  · exact .inl hw
  rcases (looks_check _).bind_cases h with hw | ⟨n, hn, h⟩
  · exact .inl hw
  have ht' := statementAt_eq_ok ht
  cases t with
  | call m =>
    cases hn
    exact .inr ⟨n, ht', h.symm⟩
  | _ => cases hn

/-! ### Successful steps -/

theorem not_refused_ok {a : α} : ¬ Refused w (.ok a w' : EStateM.Result Failure Workspace α) := by
  rintro ⟨e, he⟩
  cases he

/-- Something can be made of a result only if there is one. -/
theorem exists_of_result {x : Action α} {g : α → β} {b : β}
    (h : (x >>= fun a => pure (g a)) w = .ok b w') : ∃ a, x w = .ok a w' := by
  rw [bind_eq] at h
  cases hx : x w with
  | ok a u =>
    rw [hx] at h
    cases h
    exact ⟨a, rfl⟩
  | error e u =>
    rw [hx] at h
    cases h

/-- Where nothing is handed out to, there is what was there before. -/
theorem Handed.statement?_of_ne (h : Handed r s w w') (hne : r ≠ .place p) :
    w'.statement? p = w.statement? p := by
  rcases h with ⟨q, t, rfl, ht, rfl⟩ | ⟨-, rfl⟩
  · exact Workspace.statement?_setStatement_of_ne ht fun e => hne (e ▸ rfl)
  · rfl

/-- A statement is handed out to where there is one. -/
theorem Handed.eq_setStatement (h : Handed (.place q) s w w') (hq : w.statement? q = some t) :
    w' = w.setStatement s q := by
  rcases h with ⟨p, u, hp, -, hw⟩ | ⟨hnone, -⟩
  · cases hp
    exact hw
  · rw [Workspace.statementPlace?_eq_some_iff.2 ⟨rfl, t, hq⟩] at hnone
    cases hnone

/-- Where there is a statement, it is a statement that is moved. -/
theorem transferTarget_eq (hp : w.statement? p = some s) (r : Reference) :
    transferTarget (.place p) r w = transfer p r w := by
  have hslot : w.programSlot? (.place p) = none := by
    cases p with
    | slot n =>
      simp only [Workspace.statement?] at hp
      split at hp
      · rename_i u hu
        simp [Workspace.programSlot?, hu]
      · cases hp
    | body n => rfl
    | entry n m => rfl
  unfold transferTarget
  rw [get_bind, hslot]
  exact bind_ok (Workspace.statementPlace_eq hp) _

end BL.Action

namespace BL.Workspace

open BL.Action

variable {α : Type} {w w' : Workspace} {op : Operation} {a : Answer} {p : Place} {s : Statement}

/-- If an operation makes something of the result of an action at a place, then this action has
    succeeded as well. -/
theorem exists_of_step {x : Place → Action α} {g : α → Answer}
    (hop : op.perform = do let b ← x (← Action.statementPlace (.place p)); return g b)
    (hp : w.statement? p = some s) (h : w.step op = (.ok a, w')) : ∃ b, x p w = .ok b w' := by
  have hres := step_eq_ok_iff.1 h
  rw [hop, bind_ok (statementPlace_eq hp)] at hres
  exact exists_of_result hres

end BL.Workspace
