import BL.Workspace.Programs

namespace BL

/-!
# What actions do to a workspace

Most steps of an action only look something up, and most others only write.  An action that does
all its checks before it writes is atomic: a violated condition of use leaves no trace.

* `Action.bind_eq`, `Action.bind_ok`, `Action.bind_error` — steps one after the other;
* `Action.locate_eq`, `Action.statementOf_eq`, … — what single steps do;
* `Action.Looks`, `Action.Quiet`, `Action.Atomic` — steps that only look, steps that never violate a
  condition of use, and actions that leave the workspace alone when they do;
* `Action.Looks.bind_atomic`, `Action.Atomic.bind_quiet` — first the checks, then the writing;
* `Action.Looks.violated_bind` — a violation behind a step that only looks;
* `Workspace.statementPlace?_eq_some_iff`, `Workspace.statementPlace?_setStatement`,
  `Workspace.statementPlace_eq`, `Workspace.programSlot_eq` — where references lead to, also when a
  statement is written.
-/

namespace Action

variable {α β : Type} {x : Action α} {f : α → Action β} {w w' : Workspace} {v : Violation}

/-- The second of two steps starts where the first one stopped, unless that one failed. -/
theorem bind_eq (x : Action α) (f : α → Action β) (w : Workspace) :
    (x >>= f) w = match x w with
      | .ok a w' => f a w'
      | .error e w' => .error e w' := by
  show EStateM.bind x f w = _
  unfold EStateM.bind
  cases x w <;> rfl

theorem bind_ok {a : α} (h : x w = .ok a w') (f : α → Action β) : (x >>= f) w = f a w' := by
  rw [bind_eq, h]

theorem bind_error {e : Failure} (h : x w = .error e w') (f : α → Action β) :
    (x >>= f) w = .error e w' := by
  rw [bind_eq, h]

/-- Looking at the workspace first. -/
theorem get_bind (f : Workspace → Action β) (w : Workspace) : (get >>= f) w = f w w := rfl

/-! ### What single steps do -/

theorem check_ok (a : α) (w : Workspace) : check (.ok a) w = .ok a w := rfl

theorem check_error (v : Violation) (w : Workspace) :
    (check (.error v) : Action α) w = .error (.fault (.violated v)) w := rfl

theorem refuse_of {p : Prop} [Decidable p] (h : p) (v : Violation) (w : Workspace) :
    refuse p v w = .error (.fault (.violated v)) w := by
  rw [refuse, if_pos h]
  rfl

theorem refuse_of_not {p : Prop} [Decidable p] (h : ¬ p) (v : Violation) (w : Workspace) :
    refuse p v w = .ok () w := by
  rw [refuse, if_neg h]
  rfl

theorem require_some (a : α) (w : Workspace) : require (some a) w = .ok a w := rfl

theorem locate_eq {find : Workspace → Reference → Option α} {r : Reference} {a : α}
    (h : find w r = some a) : locate find r w = .ok a w := by
  unfold locate
  rw [get_bind, h, require_some]

/-- What a reference is followed to is there. -/
theorem locate_eq_ok {find : Workspace → Reference → Option α} {r : Reference} {a : α}
    (h : locate find r w = .ok a w') : find w r = some a := by
  unfold locate at h
  rw [get_bind] at h
  cases hfind : find w r with
  | none =>
    rw [hfind] at h
    cases h
  | some b =>
    rw [hfind] at h
    cases h
    rfl

theorem statementAt_eq {p : Place} {s : Statement} (h : w.statement? p = some s) :
    statementAt p w = .ok s w := by
  unfold statementAt
  rw [get_bind, h, require_some]

theorem statementOf_eq {r : Reference} {p : Place} {s : Statement}
    (hp : w.statementPlace? r = some p) (hs : w.statement? p = some s) :
    Action.statementOf r w = .ok s w := by
  unfold Action.statementOf statementPlace
  rw [bind_ok (locate_eq hp), statementAt_eq hs]

/-- The action finds the condition of use violated, and this is the workspace behind it. -/
def Violates (x : Action α) (w : Workspace) (v : Violation) (w' : Workspace) : Prop :=
  x w = .error (.fault (.violated v)) w'

/-! ### Steps that only look -/

/-- The step leaves the workspace as it is, whatever comes of it. -/
def Looks (x : Action α) : Prop := ∀ w, (∃ a, x w = .ok a w) ∨ ∃ e, x w = .error e w

theorem looks_pure (a : α) : Looks (pure a : Action α) := fun _ => .inl ⟨a, rfl⟩

theorem looks_throw (e : Failure) : Looks (throw e : Action α) := fun _ => .inr ⟨e, rfl⟩

theorem looks_get : Looks (get : Action Workspace) := fun w => .inl ⟨w, rfl⟩

theorem Looks.bind (hx : Looks x) (hf : ∀ a, Looks (f a)) : Looks (x >>= f) := by
  intro w
  rw [bind_eq]
  rcases hx w with ⟨a, h⟩ | ⟨e, h⟩
  · rw [h]
    exact hf a w
  · rw [h]
    exact .inr ⟨e, rfl⟩

theorem looks_attempt (y : Except Fault α) : Looks (attempt y) := by
  cases y with
  | ok a => exact looks_pure a
  | error e => exact looks_throw _

theorem looks_check (y : Except Violation α) : Looks (check y) := looks_attempt _

theorem looks_violate (v : Violation) : Looks (violate v : Action α) := looks_throw _

theorem looks_refuse (p : Prop) [Decidable p] (v : Violation) : Looks (refuse p v) := by
  unfold refuse
  split
  · exact looks_violate v
  · exact looks_pure ()

theorem looks_require (o : Option α) : Looks (require o) := by
  cases o with
  | some a => exact looks_pure a
  | none => exact looks_throw _

theorem looks_locate (find : Workspace → Reference → Option α) (r : Reference) :
    Looks (locate find r) :=
  looks_get.bind fun _ => looks_require _

theorem looks_statementAt (p : Place) : Looks (statementAt p) :=
  looks_get.bind fun _ => looks_require _

theorem looks_statementOf (r : Reference) : Looks (Action.statementOf r) :=
  (looks_locate _ r).bind looks_statementAt

theorem looks_programIn (n : String) : Looks (programIn n) := by
  refine looks_get.bind fun w => ?_
  split
  · exact looks_pure _
  · exact looks_throw _

/-! ### Steps that never violate a condition of use -/

/-- No condition of use is found violated. -/
def Quiet (x : Action α) : Prop := ∀ w v w', ¬ Violates x w v w'

theorem quiet_pure (a : α) : Quiet (pure a : Action α) := fun _ _ _ h => by cases h

theorem quiet_nothingThere : Quiet (throw .nothingThere : Action α) := fun _ _ _ h => by cases h

theorem quiet_get : Quiet (get : Action Workspace) := fun _ _ _ h => by cases h

theorem quiet_modify (g : Workspace → Workspace) : Quiet (modify g : Action PUnit) :=
  fun _ _ _ h => by cases h

theorem quiet_setStatement (p : Place) (s : Statement) : Quiet (setStatement p s) := quiet_modify _

theorem quiet_setSlot (n : String) (c : Content) : Quiet (setSlot n c) := quiet_modify _

theorem Quiet.bind (hx : Quiet x) (hf : ∀ a, Quiet (f a)) : Quiet (x >>= f) := by
  intro w v w' h
  rw [Violates, bind_eq] at h
  cases hres : x w with
  | ok a u =>
    rw [hres] at h
    exact hf a u v w' h
  | error e u =>
    rw [hres] at h
    cases h
    exact hx w v w' hres

/-! ### Atomic actions -/

/-- A violated condition of use leaves the workspace as it was. -/
def Atomic (x : Action α) : Prop := ∀ w v w', Violates x w v w' → w' = w

theorem Looks.atomic (hx : Looks x) : Atomic x := by
  intro w v w' h
  rcases hx w with ⟨a, hres⟩ | ⟨e, hres⟩
  · rw [Violates, hres] at h
    cases h
  · rw [Violates, hres] at h
    cases h
    rfl

theorem Quiet.atomic (hx : Quiet x) : Atomic x := fun w v w' h => absurd h (hx w v w')

/-- A violation is found in a step that only looks, or behind it in the same workspace. -/
theorem Looks.violated_bind (hx : Looks x) (h : Violates (x >>= f) w v w') :
    w' = w ∨ ∃ a, x w = .ok a w ∧ Violates (f a) w v w' := by
  rw [Violates, bind_eq] at h
  rcases hx w with ⟨a, hres⟩ | ⟨e, hres⟩
  · rw [hres] at h
    exact .inr ⟨a, hres, h⟩
  · rw [hres] at h
    cases h
    exact .inl rfl

/-- Checks may come first. -/
theorem Looks.bind_atomic (hx : Looks x) (hf : ∀ a, Atomic (f a)) : Atomic (x >>= f) := by
  intro w v w' h
  rcases hx.violated_bind h with hw | ⟨a, -, h⟩
  · exact hw
  · exact hf a w v w' h

/-- A violation is not found in a step that never violates a condition of use. -/
theorem Violates.of_bind (h : Violates (x >>= f) w v w') (hf : ∀ a, Quiet (f a)) :
    Violates x w v w' := by
  rw [Violates, bind_eq] at h
  cases hres : x w with
  | ok a u =>
    rw [hres] at h
    exact absurd h (hf a u v w')
  | error e u =>
    rw [hres] at h
    cases h
    exact hres

/-- Writing may come last. -/
theorem Atomic.bind_quiet (hx : Atomic x) (hf : ∀ a, Quiet (f a)) : Atomic (x >>= f) :=
  fun w v w' h => hx w v w' (h.of_bind hf)

/-- Whatever is made of the result, the action stays atomic. -/
theorem Atomic.result (hx : Atomic x) (g : α → β) : Atomic (x >>= fun a => pure (g a)) :=
  hx.bind_quiet fun _ => quiet_pure _

end Action

/-! ### Where references lead to -/

namespace Workspace

variable {w : Workspace} {p : Place} {r : Reference}

/-- A reference leads to a statement only if it is a place where there is one. -/
theorem statementPlace?_eq_some_iff :
    w.statementPlace? r = some p ↔ r = .place p ∧ ∃ s, w.statement? p = some s := by
  cases r with
  | place q =>
    rw [statementPlace?, Reference.place.injEq, ← Option.isSome_iff_exists]
    constructor
    · intro h
      split at h
      · rename_i hs
        cases h
        exact ⟨rfl, hs⟩
      · cases h
    · rintro ⟨rfl, h⟩
      exact if_pos h
  | nothing => simp [statementPlace?]
  | contextOf n => simp [statementPlace?]

/-- Where there was a statement, there is one behind it, and nowhere else a new one. -/
theorem statementPlace?_setStatement {s t : Statement} (h : w.statement? p = some t)
    (r : Reference) : (w.setStatement s p).statementPlace? r = w.statementPlace? r := by
  cases r with
  | place q =>
    by_cases hq : q = p
    · subst hq
      simp [statementPlace?, statement?_setStatement_self h, h]
    · simp [statementPlace?, statement?_setStatement_of_ne h hq]
  | nothing => rfl
  | contextOf n => rfl

/-- A place with a statement leads to itself. -/
theorem statementPlace_eq {s : Statement} (h : w.statement? p = some s) :
    Action.statementPlace (.place p) w = .ok p w :=
  Action.locate_eq (statementPlace?_eq_some_iff.2 ⟨rfl, s, h⟩)

/-- A slot with a program leads to itself. -/
theorem programSlot_eq {n : String} {q : Program} (h : w.content? n = some (.program q)) :
    Action.programSlot (.place (.slot n)) w = .ok n w :=
  Action.locate_eq (by simp [programSlot?, h])

end Workspace

end BL
