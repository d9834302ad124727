import BL.Proofs.Reading.Termination

namespace BL

/-!
# Reading goes by texts

Two queues with the same texts may differ in everything else: in the kinds of their tokens and in
where these stand.  Readers do the same with both of them, and where one run shows a token, the
other run shows the token with the same number.

* `TokenQueue.Twin` — the tokens with the same number in two lists;
* `Reader.Beside` — two runs that stand at the same place;
* `Reader.Alike` — readers that keep both runs beside each other, with results that belong
  together;
* `Reader.Alike.bind`, `Reader.alike_next`, … — how such readers are put together;
* `Reader.alike_items`, `Reader.alike_definitions` — the loops, by induction on the number of steps;
* `Reader.alike_statement`, `Reader.alike_program`, … — the constructs.
-/

/-- The tokens have the same number in the lists. -/
def Token.Twin (ts us : List Token) (t u : Token) : Prop :=
  ∃ i : Nat, ts[i]? = some t ∧ us[i]? = some u

/-- The faults are the same; tokens that they show have the same number. -/
inductive Fault.Twin (ts us : List Token) : Fault → Fault → Prop where
  | rejected {k : Cause} {t u : Token} (h : Token.Twin ts us t u) :
    Twin ts us (.rejected ⟨k, t⟩) (.rejected ⟨k, u⟩)
  | violated (v : Violation) : Twin ts us (.violated v) (.violated v)
  | unknownCondition (label : String) :
    Twin ts us (.unknownCondition label) (.unknownCondition label)
  | exhausted : Twin ts us .exhausted .exhausted

namespace Reader

variable {τ σ α β : Type} {ts us : List Token}

/-! ### Runs beside each other -/

/-- Both runs have taken the same number of tokens from their lists, and have the same target. -/
structure Beside (ts us : List Token) (st st' : ReaderState τ) : Prop where
  target : st.target = st'.target
  left : ∃ k, st.queue.toList = ts.drop k ∧ st'.queue.toList = us.drop k

/-- Both runs end in the same way and stay beside each other, with results in the relation. -/
inductive EndAlike (ts us : List Token) (Q : α → β → Prop) :
    EStateM.Result Fault (ReaderState τ) α → EStateM.Result Fault (ReaderState τ) β → Prop where
  | ok {a : α} {b : β} {st st' : ReaderState τ} (h : Q a b) (hst : Beside ts us st st') :
    EndAlike ts us Q (.ok a st) (.ok b st')
  | error {f g : Fault} {st st' : ReaderState τ} (h : Fault.Twin ts us f g)
      (hst : Beside ts us st st') : EndAlike ts us Q (.error f st) (.error g st')

/-- Runs of the readers that are beside each other end alike. -/
def Alike (ts us : List Token) (Q : α → β → Prop) (x : Reader τ α) (y : Reader τ β) : Prop :=
  ∀ st st', Beside ts us st st' → EndAlike ts us Q (x st) (y st')

variable {Q : α → β → Prop}

theorem alike_pure {a : α} {b : β} (h : Q a b) :
    Alike ts us Q (pure a : Reader τ α) (pure b) := fun _ _ hst => .ok h hst

theorem alike_throw {f g : Fault} (h : Fault.Twin ts us f g) :
    Alike ts us Q (throw f : Reader τ α) (throw g) := fun _ _ hst => .error h hst

theorem alike_reject {t u : Token} (h : Token.Twin ts us t u) (k : Cause) :
    Alike ts us Q (reject k t : Reader τ α) (reject k u) := alike_throw (.rejected h)

theorem Beside.size_eq {st st' : ReaderState τ} (h : Beside ts us st st')
    (hlen : ts.length = us.length) : st.queue.size = st'.queue.size := by
  obtain ⟨k, hk, hk'⟩ := h.left
  rw [← TokenQueue.length_toList, ← TokenQueue.length_toList, hk, hk', List.length_drop,
    List.length_drop, hlen]

/-- The first tokens of both queues have the same number. -/
theorem Beside.twin_front {st st' : ReaderState τ} (h : Beside ts us st st') :
    Token.Twin ts us st.queue.front st'.queue.front := by
  obtain ⟨k, hk, hk'⟩ := h.left
  refine ⟨k, ?_, ?_⟩
  · rw [← List.head?_drop, ← hk, TokenQueue.head?_toList]
  · rw [← List.head?_drop, ← hk', TokenQueue.head?_toList]

/-- Readers one after the other, if results that belong together are treated alike. -/
theorem Alike.bind {γ δ : Type} {P : γ → δ → Prop} {x : Reader τ α} {y : Reader τ β}
    {g : α → Reader τ γ} {k : β → Reader τ δ} (h : Alike ts us Q x y)
    (hg : ∀ a b, Q a b → Alike ts us P (g a) (k b)) : Alike ts us P (x >>= g) (y >>= k) := by
  intro st st' hst
  have hend := h st st' hst
  rw [bind_eq, bind_eq]
  generalize x st = run at hend ⊢
  generalize y st' = run' at hend ⊢
  cases hend with
  | ok hab hm => exact hg _ _ hab _ _ hm
  | error hf hm => exact .error hf hm

/-- Behind equal results the same reader goes on. -/
theorem Alike.bind_eq_results {γ : Type} {x y : Reader τ α} {g : α → Reader τ γ}
    {k : α → Reader τ γ} {P : γ → γ → Prop} (h : Alike ts us Eq x y)
    (hg : ∀ a, Alike ts us P (g a) (k a)) : Alike ts us P (x >>= g) (y >>= k) :=
  h.bind fun a _ hab => hab ▸ hg a

theorem Alike.ite {c c' : Prop} [Decidable c] [Decidable c'] {x x' : Reader τ α}
    {y y' : Reader τ β} (hc : c ↔ c') (h : Alike ts us Q x y) (h' : Alike ts us Q x' y') :
    Alike ts us Q (if c then x else x') (if c' then y else y') := by
  by_cases hcase : c
  · rw [if_pos hcase, if_pos (hc.1 hcase)]
    exact h
  · rw [if_neg hcase, if_neg fun h => hcase (hc.2 h)]
    exact h'

theorem alike_peek : Alike ts us (Token.Twin ts us) (peek : Reader τ Token) peek :=
  fun _ _ hst => .ok hst.twin_front hst

theorem alike_put (t : τ) : Alike ts us Eq (put t) (put t) :=
  fun _ _ hst => .ok rfl ⟨rfl, hst.left⟩

theorem alike_update (g : τ → Except Violation τ) : Alike ts us Eq (update g) (update g) := by
  intro st st' hst
  unfold update
  rw [← hst.target]
  cases g st.target with
  | ok t => exact .ok rfl ⟨rfl, hst.left⟩
  | error v => exact .error (.violated v) hst

/-- Reading into a new target. -/
theorem Alike.fresh {start : σ} {x y : Reader σ α} (h : Alike ts us Eq x y) :
    Alike ts us Eq (fresh start x : Reader τ (α × σ)) (fresh start y) := by
  intro st st' hst
  have hend := h ⟨st.queue, start⟩ ⟨st'.queue, start⟩ ⟨rfl, hst.left⟩
  unfold Reader.fresh
  generalize x ⟨st.queue, start⟩ = run at hend ⊢
  generalize y ⟨st'.queue, start⟩ = run' at hend ⊢
  cases hend with
  | ok hab hm => exact .ok (Prod.ext hab hm.target) ⟨hst.target, hm.left⟩
  | error hf hm => exact .error hf ⟨hst.target, hm.left⟩

/-! ### Lists with the same texts -/

section

variable (htexts : ts.map Token.text = us.map Token.text)

include htexts

/-- Tokens with the same number have the same text. -/
theorem text_eq_of_twin {t u : Token} (h : Token.Twin ts us t u) : t.text = u.text := by
  obtain ⟨i, ht, hu⟩ := h
  have hi := congrArg (fun ws : List String => ws[i]?) htexts
  simpa [ht, hu] using hi

/-- Taking a token takes one from both lists, unless it is the last one of both. -/
theorem alike_next : Alike ts us (Token.Twin ts us) (next : Reader τ Token) next := by
  intro st st' hst
  have hlen : ts.length = us.length := by simpa using congrArg List.length htexts
  have hsize := hst.size_eq hlen
  obtain ⟨k, hk, hk'⟩ := hst.left
  refine .ok hst.twin_front ⟨hst.target, ?_⟩
  by_cases hlast : st.queue.size = 1
  · refine ⟨k, ?_, ?_⟩
    · rw [TokenQueue.toList_rest, if_pos hlast, hk]
    · rw [TokenQueue.toList_rest, if_pos (hsize ▸ hlast), hk']
  · refine ⟨k + 1, ?_, ?_⟩
    · rw [TokenQueue.toList_rest, if_neg hlast, hk, List.tail_drop]
    · rw [TokenQueue.toList_rest, if_neg (hsize ▸ hlast), hk', List.tail_drop]

/-! ### Tokens and openings -/

theorem alike_expect (k : String) :
    Alike ts us (Token.Twin ts us) (expect k : Reader τ Token) (expect k) :=
  (alike_next htexts).bind fun t u h =>
    .ite (by rw [text_eq_of_twin htexts h]) (alike_pure h) (alike_reject h _)

theorem alike_identifier :
    Alike ts us (Token.Twin ts us) (identifier : Reader τ Token) identifier :=
  (alike_next htexts).bind fun t u h =>
    .ite (by rw [text_eq_of_twin htexts h]) (alike_pure h) (alike_reject h _)

theorem alike_condition : Alike ts us Eq (condition : Reader τ Condition) condition := by
  refine (alike_next htexts).bind fun t u h => ?_
  rw [text_eq_of_twin htexts h]
  refine .ite Iff.rfl ?_ (alike_reject h _)
  unfold Condition.named
  cases Condition.ofLabelLike u.text with
  | some c => exact alike_pure rfl
  | none => exact alike_throw (.unknownCondition _)

theorem alike_opening (k : String) : Alike ts us Eq (opening k : Reader τ Unit) (opening k) :=
  alike_peek.bind fun t u h =>
    .ite (by rw [text_eq_of_twin htexts h]) (alike_pure rfl) (alike_throw (.violated _))

theorem isEnd_eq_of_twin {t u : Token} (h : Token.Twin ts us t u) : t.isEnd = u.isEnd := by
  rw [Token.isEnd, Token.isEnd, text_eq_of_twin htexts h]

theorem alike_ending : Alike ts us Eq (ending : Reader τ Unit) ending :=
  alike_peek.bind fun t u h =>
    .ite (by rw [isEnd_eq_of_twin htexts h]) (alike_pure rfl) (alike_reject h _)

theorem alike_closing (name : String) :
    Alike ts us Eq (closing name : Reader τ Unit) (closing name) :=
  (alike_next htexts).bind fun t u h =>
    .ite (by rw [text_eq_of_twin htexts h]) (alike_pure rfl) (alike_reject h _)

theorem alike_definedName : Alike ts us Eq (definedName : Reader τ String) definedName := by
  refine (alike_next htexts).bind fun t u h => ?_
  rw [text_eq_of_twin htexts h]
  exact .ite Iff.rfl (alike_reject h _) (.ite Iff.rfl (alike_reject h _)
    (.ite Iff.rfl (alike_reject h _) (.ite Iff.rfl (alike_reject h _) (alike_pure rfl))))

/-- **Openings**, around a word that gives the same result in both runs. -/
theorem Alike.opening {x y : Reader τ α} (h : Alike ts us Eq x y) (k k' : String) :
    Alike ts us Eq
      (do opening k
          let _ ← expect k
          let a ← x
          let _ ← expect k'
          return a : Reader τ α)
      (do opening k
          let _ ← expect k
          let a ← y
          let _ ← expect k'
          return a) :=
  (alike_opening htexts k).bind_eq_results fun _ => (alike_expect htexts k).bind fun _ _ _ =>
    h.bind_eq_results fun _ => (alike_expect htexts k').bind fun _ _ _ => alike_pure rfl

theorem alike_conditionalOpening :
    Alike ts us Eq (conditionalOpening : Reader τ Condition) conditionalOpening :=
  (alike_condition htexts).opening htexts "IF" "THEN"

theorem alike_loopOpening : Alike ts us Eq (loopOpening : Reader τ Condition) loopOpening :=
  (alike_condition htexts).opening htexts "WHILE" "DO"

theorem alike_instructionOpening :
    Alike ts us Eq (instructionOpening : Reader τ String) instructionOpening :=
  (alike_definedName htexts).opening htexts "INSTRUCTION" "IS"

theorem alike_programOpening :
    Alike ts us Eq (programOpening : Reader τ String) programOpening :=
  (alike_expect htexts _).bind fun _ _ _ => (alike_identifier htexts).bind fun _ _ h =>
    (alike_expect htexts _).bind fun _ _ _ => alike_pure (text_eq_of_twin htexts h)

/-! ### Constructs, given how the statements of a block are read -/

variable {R : Reader Statement Unit}

omit htexts in
theorem Alike.newBlock (h : Alike ts us Eq R R) :
    Alike ts us Eq (newBlock R : Reader τ Statement) (newBlock R) := by
  have hblock : Alike ts us Eq (blockOf R) (blockOf R) :=
    (alike_put _).bind_eq_results fun _ => h
  exact hblock.fresh.bind_eq_results fun _ => alike_pure rfl

theorem Alike.alternativeOf (h : Alike ts us Eq R R) (c : Condition) (body : Statement) :
    Alike ts us Eq (alternativeOf R c body) (alternativeOf R c body) :=
  alike_peek.bind fun t u ht => .ite (by rw [text_eq_of_twin htexts ht])
    ((alike_expect htexts _).bind fun _ _ _ => h.newBlock.bind_eq_results fun _ =>
      alike_update _)
    (alike_update _)

theorem Alike.conditionalOf (h : Alike ts us Eq R R) :
    Alike ts us Eq (conditionalOf R) (conditionalOf R) :=
  (alike_conditionalOpening htexts).bind_eq_results fun c =>
    h.newBlock.bind_eq_results fun body =>
      (h.alternativeOf htexts c body).bind_eq_results fun _ =>
        (alike_expect htexts _).bind fun _ _ _ => (alike_expect htexts _).bind fun _ _ _ =>
          alike_pure rfl

theorem Alike.loopOf (h : Alike ts us Eq R R) : Alike ts us Eq (loopOf R) (loopOf R) :=
  (alike_loopOpening htexts).bind_eq_results fun _ =>
    h.newBlock.bind_eq_results fun _ => (alike_expect htexts _).bind fun _ _ _ =>
      (alike_expect htexts _).bind fun _ _ _ => alike_update _

theorem alike_call : Alike ts us Eq call call := by
  refine (alike_identifier htexts).bind fun t u h => ?_
  rw [text_eq_of_twin htexts h]
  exact alike_update _

/-- **Statements** go by the text of their first token. -/
theorem Alike.statementOf (h : Alike ts us Eq R R) :
    Alike ts us Eq (statementOf R) (statementOf R) := by
  refine alike_peek.bind fun t u ht => ?_
  rw [text_eq_of_twin htexts ht]
  exact .ite Iff.rfl (h.conditionalOf htexts) (.ite Iff.rfl (h.loopOf htexts)
    (.ite Iff.rfl (alike_call htexts) (alike_reject ht _)))

/-! ### The loops -/

/-- **The statements of a block**, in however many steps. -/
theorem alike_items (n : Nat) : Alike ts us Eq (items n) (items n) := by
  induction n with
  | zero => exact alike_throw .exhausted
  | succ n ih =>
    refine alike_peek.bind fun t u ht => ?_
    have hends : endsBlock t = endsBlock u := by
      rw [endsBlock, endsBlock, isEnd_eq_of_twin htexts ht, text_eq_of_twin htexts ht]
    rw [hends]
    refine .ite Iff.rfl (alike_pure rfl) ?_
    exact (ih.statementOf htexts).fresh.bind_eq_results fun _ =>
      (alike_update _).bind_eq_results fun _ => ih

/-- Both runs have the same number of tokens, and so the same number of steps. -/
theorem alike_allItems : Alike ts us Eq allItems allItems := by
  intro st st' hst
  have hsize := hst.size_eq (by simpa using congrArg List.length htexts)
  unfold allItems
  rw [hsize]
  exact alike_items htexts _ st st' hst

theorem alike_block : Alike ts us Eq block block :=
  (alike_put _).bind_eq_results fun _ => alike_allItems htexts

theorem alike_instruction : Alike ts us Eq instruction instruction :=
  (alike_instructionOpening htexts).bind_eq_results fun _ =>
    (alike_block htexts).bind_eq_results fun _ => (alike_expect htexts _).bind fun _ _ _ =>
      (alike_closing htexts _).bind_eq_results fun _ => alike_pure rfl

/-- **Definitions**, in however many steps and behind whatever was defined before. -/
theorem alike_definitions (n : Nat) (c : Context) :
    Alike ts us Eq (definitions n c : Reader τ Context) (definitions n c) := by
  induction n generalizing c with
  | zero => exact alike_throw .exhausted
  | succ n ih =>
    refine alike_peek.bind fun t u ht => ?_
    rw [text_eq_of_twin htexts ht]
    refine .ite Iff.rfl (alike_pure rfl) (.ite Iff.rfl ?_ (alike_reject ht _))
    exact (alike_instruction htexts).fresh.bind_eq_results fun b =>
      .ite Iff.rfl (alike_reject ht _) (ih _)

theorem alike_allDefinitions :
    Alike ts us Eq (allDefinitions : Reader τ Context) allDefinitions := by
  intro st st' hst
  have hsize := hst.size_eq (by simpa using congrArg List.length htexts)
  unfold allDefinitions
  rw [hsize]
  exact alike_definitions htexts _ _ st st' hst

/-! ### Constructs -/

theorem alike_statement : Alike ts us Eq statement statement :=
  (alike_allItems htexts).statementOf htexts

theorem alike_wholeBlock : Alike ts us Eq wholeBlock wholeBlock :=
  (alike_block htexts).bind_eq_results fun _ => alike_ending htexts

/-- **Programs** go by texts. -/
theorem alike_program : Alike ts us Eq program program :=
  (alike_programOpening htexts).bind_eq_results fun name =>
    (alike_allDefinitions htexts).bind_eq_results fun _ =>
      (alike_expect htexts _).bind fun _ _ _ =>
        (alike_allItems htexts).newBlock.bind_eq_results fun _ =>
          (alike_expect htexts _).bind fun _ _ _ =>
            (alike_closing htexts name).bind_eq_results fun _ =>
              (alike_ending htexts).bind_eq_results fun _ =>
                (alike_update _).bind_eq_results fun _ =>
                  (alike_update _).bind_eq_results fun _ => alike_update _

end

end Reader

end BL
