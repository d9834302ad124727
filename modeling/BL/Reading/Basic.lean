import BL.Fault
import BL.Token.Queue

namespace BL

/-!
# Readers

A reader takes tokens from a queue and writes to a target. When it fails, the tokens that it took
stay taken and the target stays as far as it was written.

* `ReaderState`, `Reader` — tokens left and target; the steps that may change both and may fail;
* `Reader.peek`, `Reader.next`, `Reader.expect`, `Reader.identifier`, `Reader.condition`,
  `Reader.atEnd`, `Reader.ending` — reading tokens;
* `Reader.update`, `Reader.fresh` — writing to the target, and reading into a new one;
* `Reader.bind_eq`, `Reader.next_eq`, … — what each step does to the state.
-/

/-- The tokens that are left, and what a reader writes to. -/
structure ReaderState (τ : Type) where
  queue : TokenQueue
  target : τ

/-- A step of reading. A fault keeps the state that was reached. -/
abbrev Reader (τ α : Type) : Type := EStateM Fault (ReaderState τ) α

namespace Reader

variable {τ σ α : Type}

/-! ### Tokens -/

/-- The first token, which stays. -/
def peek : Reader τ Token := fun s => .ok s.queue.front s

/-- Takes the first token. -/
def next : Reader τ Token := fun s => .ok s.queue.front { s with queue := s.queue.rest }

/-- Stops at a token. -/
def reject (cause : Cause) (token : Token) : Reader τ α :=
  throw (.rejected ⟨cause, token⟩)

/-- Takes a token, which must be the keyword. -/
def expect (keyword : String) : Reader τ Token := do
  let t ← next
  if t.text = keyword then return t else reject (.missingKeyword keyword) t

/-- Takes a token, which must be an identifier. -/
def identifier : Reader τ Token := do
  let t ← next
  if Word.isIdentifier t.text then return t else reject .noIdentifier t

/-- A result that may be a fault, as a step that changes nothing. -/
def ofExcept : Except Fault α → Reader τ α
  | .ok a => pure a
  | .error f => throw f

/-- Takes a token, which must name a condition. -/
def condition : Reader τ Condition := do
  let t ← next
  if Word.isCondition t.text then ofExcept (Condition.named t.text)
  else reject .noCondition t

/-- Whether only the end of the input is left. -/
def atEnd : Reader τ Bool := do
  let t ← peek
  return t.isEnd

/-- Checks that only the end of the input is left. -/
def ending : Reader τ Unit := do
  let t ← peek
  if t.isEnd then return else reject .trailing t

/-- Checks that the tokens begin with the keyword. -/
def opening (keyword : String) : Reader τ Unit := do
  let t ← peek
  if t.text = keyword then return else throw (.violated (.wrongOpening keyword))

/-! ### Targets -/

/-- Changes the target by an operation that may find a condition of use violated; then the target
    stays as it is. -/
def update (f : τ → Except Violation τ) : Reader τ Unit := fun s =>
  match f s.target with
  | .ok t => .ok () { s with target := t }
  | .error v => .error (.violated v) s

/-- Writes the target anew. -/
def put (t : τ) : Reader τ Unit := fun s => .ok () { s with target := t }

/-- Reads the tokens into a new target, and gives it with the result. The present target stays. -/
def fresh (start : σ) (r : Reader σ α) : Reader τ (α × σ) := fun s =>
  match r ⟨s.queue, start⟩ with
  | .ok a s' => .ok (a, s'.target) ⟨s'.queue, s.target⟩
  | .error f s' => .error f ⟨s'.queue, s.target⟩

/-! ### Steps as functions of the state -/

theorem pure_eq (a : α) (s : ReaderState τ) : (pure a : Reader τ α) s = .ok a s := rfl

/-- The second of two steps starts where the first one stopped, unless that one failed. -/
theorem bind_eq {β : Type} (r : Reader τ α) (f : α → Reader τ β) (s : ReaderState τ) :
    (r >>= f) s = match r s with
      | .ok a s' => f a s'
      | .error e s' => .error e s' := by
  change EStateM.bind r f s = _
  unfold EStateM.bind
  cases r s <;> rfl

theorem peek_eq (s : ReaderState τ) : peek s = .ok s.queue.front s := rfl

theorem next_eq (s : ReaderState τ) :
    next s = .ok s.queue.front { s with queue := s.queue.rest } := rfl

/-- Reading a keyword takes the first token, whether it is the keyword or not. -/
theorem expect_eq (k : String) (s : ReaderState τ) :
    expect k s =
      if s.queue.front.text = k then .ok s.queue.front { s with queue := s.queue.rest }
      else .error (.rejected ⟨.missingKeyword k, s.queue.front⟩)
        { s with queue := s.queue.rest } := by
  rw [expect, bind_eq, next_eq]
  dsimp only
  split <;> rfl

theorem identifier_eq (s : ReaderState τ) :
    identifier s =
      if Word.isIdentifier s.queue.front.text then
        .ok s.queue.front { s with queue := s.queue.rest }
      else .error (.rejected ⟨.noIdentifier, s.queue.front⟩)
        { s with queue := s.queue.rest } := by
  rw [identifier, bind_eq, next_eq]
  dsimp only
  split <;> rfl

/-- A word that is the name of a condition always gives that condition. -/
theorem condition_eq_of_spelling {c : Condition} {s : ReaderState τ}
    (h : s.queue.front.text = c.spelling) :
    condition s = .ok c { s with queue := s.queue.rest } := by
  rw [condition, bind_eq, next_eq]
  dsimp only
  rw [h, if_pos (Word.isCondition_spelling c), Condition.named_spelling]
  rfl

theorem condition_eq_of_not {s : ReaderState τ}
    (h : Word.isCondition s.queue.front.text = false) :
    condition s = .error (.rejected ⟨.noCondition, s.queue.front⟩)
      { s with queue := s.queue.rest } := by
  rw [condition, bind_eq, next_eq]
  dsimp only
  rw [h]
  rfl

end Reader

end BL
