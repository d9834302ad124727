namespace BL

/-!
# Properties that steps keep

A step that fails leaves the state as far as it came.  So a property of states that is to hold at
any time has to be kept by each step in both outcomes:

* `Keeps` — a step keeps a property of the state, and its results have another property;
* `Keeps.bind`, `Keeps.ite`, `Keeps.result` — steps one after the other, a choice, and a step with
  another result;
* `keeps_get`, `keeps_modify`, `keeps_of_forall` — looking at the state and changing it, and a
  property of all states.
-/

variable {ε σ α β : Type} {P : σ → Prop} {Q : α → Prop} {R : β → Prop}

/-- From states with the property, the step leads to such states, whether it succeeds or not; if it
    succeeds, then its result has the other property. -/
def Keeps (P : σ → Prop) (x : EStateM ε σ α) (Q : α → Prop) : Prop :=
  ∀ s, P s →
    match x s with
    | .ok a s' => P s' ∧ Q a
    | .error _ s' => P s'

theorem keeps_pure {a : α} (h : Q a) : Keeps P (pure a : EStateM ε σ α) Q := fun _ hs => ⟨hs, h⟩

theorem keeps_throw {e : ε} : Keeps P (throw e : EStateM ε σ α) Q := fun _ hs => hs

/-- What holds of all states is kept by every step. -/
theorem keeps_of_forall (h : ∀ s, P s) (x : EStateM ε σ α) : Keeps P x fun _ => True := by
  intro s _
  cases x s with
  | ok a s' => exact ⟨h s', trivial⟩
  | error e s' => exact h s'

/-- Steps one after the other: the second one may rely on the result of the first. -/
theorem Keeps.bind {x : EStateM ε σ α} {f : α → EStateM ε σ β} (hx : Keeps P x Q)
    (hf : ∀ a, Q a → Keeps P (f a) R) : Keeps P (x >>= f) R := by
  intro s hs
  have h := hx s hs
  show match EStateM.bind x f s with
    | .ok a s' => P s' ∧ R a
    | .error _ s' => P s'
  unfold EStateM.bind
  cases hxs : x s with
  | ok a s' =>
    rw [hxs] at h
    exact hf a h.2 s' h.1
  | error e s' =>
    rw [hxs] at h
    exact h

/-- Whatever is made of the result, the property of the state is kept. -/
theorem Keeps.result {x : EStateM ε σ α} (hx : Keeps P x Q) (f : α → β) :
    Keeps P (x >>= fun a => pure (f a)) fun _ => True :=
  hx.bind fun _ _ => keeps_pure trivial

theorem Keeps.ite {c : Prop} [Decidable c] {x y : EStateM ε σ α} (hx : Keeps P x Q)
    (hy : Keeps P y Q) : Keeps P (if c then x else y) Q := by
  split
  · exact hx
  · exact hy

/-- The state that is looked at has the property. -/
theorem keeps_get : Keeps P (get : EStateM ε σ σ) P := fun _ hs => ⟨hs, hs⟩

theorem keeps_modify {f : σ → σ} (h : ∀ s, P s → P (f s)) :
    Keeps P (modify f : EStateM ε σ PUnit) fun _ => True :=
  fun s hs => ⟨h s hs, trivial⟩

end BL
