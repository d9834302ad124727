import BL.Reading.Program
import BL.Text.Lines

namespace BL

/-!
# Reading whole texts

* `Program.ofSource` — the program that a source text holds;
* `Program.ofFile` — the same for the content of a file, whose line ends are made uniform first;
* `Statement.ofSource` — the block of the statements that a source text holds.
-/

/-- The target that a reader leaves behind, or the fault that stopped it. -/
def Reader.result {τ α : Type} (r : Reader τ α) (q : TokenQueue) (start : τ) : Except Fault τ :=
  match r ⟨q, start⟩ with
  | .ok _ s => .ok s.target
  | .error f _ => .error f

/-- The program in the source text. -/
def Program.ofSource (source : String) : Except Fault Program :=
  Reader.program.result (.ofSource source) .empty

/-- The program in the content of a file. -/
def Program.ofFile (content : String) : Except Fault Program :=
  ofSource (Text.readText content)

/-- A block that the whole of the input has to fill. -/
def Reader.wholeBlock : Reader Statement Unit := do
  block
  ending

/-- The block of the statements in the source text. -/
def Statement.ofSource (source : String) : Except Fault Statement :=
  Reader.wholeBlock.result (.ofSource source) .empty

end BL
