import BL.Proofs.Reading.Detached
import BL.Proofs.Reading.Program

namespace BL

open TokenQueue

/-!
# Programs are read as a whole

A program is written to its target in three steps, and only behind everything that can fail.  So
either nothing of the target is changed or nothing of it is left:

* `Reader.detached_programParts` — the parts of a program are read without regard to the target;
* `Reader.program_outcome` — what comes of the tokens is the same for every target;
* `Reader.program_all_or_nothing` — a failure keeps the target, and a success replaces it.
-/

namespace Reader

/-- **The parts of a program** are read beside the target. -/
theorem detached_programParts {τ : Type} : Detached (programParts : Reader τ Program) :=
  detached_programOpening.bind fun _ => detached_allDefinitions.bind fun _ =>
    (detached_expect _).bind fun _ => (detached_newBlock _).bind fun _ =>
      (detached_expect _).bind fun _ => (detached_closing _).bind fun _ =>
        detached_ending.bind fun _ => detached_pure _

/-! ### Programs -/

/-- **Outcomes.** From the same tokens every target becomes the same program, or every target stays
    as it is. -/
theorem program_outcome (q : TokenQueue) :
    (∃ parts m, ∀ p, program ⟨q, p⟩ = .ok () ⟨m, parts⟩) ∨
      ∃ f m, ∀ p, program ⟨q, p⟩ = .error f ⟨m, p⟩ := by
  have hparts : Detached (programParts : Reader Program Program) := detached_programParts
  rcases hparts q with ⟨parts, m, h⟩ | ⟨f, m, h⟩
  · -- All parts are read, so that none of the three changes can fail.
    have hgives := (programParts_eq_ok_iff.1 (h .empty)).1
    refine .inl ⟨parts, m, fun p => ?_⟩
    rw [program_eq_bind, bind_eq, h]
    exact writeParts_eq_of_gives hgives
  · refine .inr ⟨f, m, fun p => ?_⟩
    rw [program_eq_bind, bind_eq, h]

/-- **All or nothing.** A program that cannot be read leaves the target as it was.  One that can be
    read becomes the target, the same as from a new target.  Behind the last token no step fails any
    more: the name is taken, the definitions and the body are exchanged for those of the target. -/
theorem program_all_or_nothing (q : TokenQueue) (p : Program) :
    (∀ f r p', program ⟨q, p⟩ = .error f ⟨r, p'⟩ → p' = p) ∧
    (∀ r p', program ⟨q, p⟩ = .ok () ⟨r, p'⟩ → program ⟨q, .empty⟩ = .ok () ⟨r, p'⟩) ∧
    program = programParts >>= writeParts ∧
    ∀ parts r p', programParts ⟨q, p⟩ = .ok parts ⟨r, p'⟩ → p' = p ∧
      ∃ p₁ p₂, p.setName (some parts.name) = .ok p₁ ∧
        p₁.swapContext parts.context = .ok (p₂, p.context) ∧
        p₂.swapBody parts.body = .ok (parts, p.body) := by
  refine ⟨fun f r p' h => ?_, fun r p' h => ?_, program_eq_bind, fun parts r p' h => ?_⟩
  · rcases program_outcome q with ⟨parts, m, hp⟩ | ⟨e, m, hp⟩
    · rw [hp] at h
      cases h
    · rw [hp] at h
      cases h
      rfl
  · rcases program_outcome q with ⟨parts, m, hp⟩ | ⟨e, m, hp⟩
    · rw [hp] at h
      rw [hp, h]
    · rw [hp] at h
      cases h
  · obtain ⟨hgives, -, rfl⟩ := programParts_eq_ok_iff.1 h
    obtain ⟨ss, _, _, _, _, hbody, hn, -, hdefs, -⟩ := givesProgram_iff.1 hgives
    have hkind : parts.body.kind = .block := by rw [hbody, Statement.kind_block]
    exact ⟨rfl, _, _, Program.setName_some hn, Program.swapContext_of_forall hdefs.forall_entries,
      Program.swapBody_of_block hkind⟩

/-- The words of the shortest program, and words that stop short of it, read into a program that
    defines an instruction. -/
theorem program_all_or_nothing_sample :
    ∃ p parts : Program, ∃ q q' r r' : TokenQueue, ∃ f, p.context.names = ["go"] ∧
      program ⟨q, p⟩ = .error f ⟨r, p⟩ ∧ program ⟨q', p⟩ = .ok () ⟨r', parts⟩ ∧
      program ⟨q', .empty⟩ = .ok () ⟨r', parts⟩ ∧
      ∃ p₁ p₂, p.setName (some parts.name) = .ok p₁ ∧
        p₁.swapContext parts.context = .ok (p₂, p.context) ∧
        p₂.swapBody parts.body = .ok (parts, p.body) := by
  let p : Program := ⟨"Old", Table.empty.insert "go" .empty, .empty⟩
  let parts : Program := ⟨"P", .empty, .empty⟩
  let q : TokenQueue := .ofWords ["PROGRAM", "P", "IS", "BEGIN"]
  let q' : TokenQueue := .ofWords ["PROGRAM", "P", "IS", "BEGIN", "END", "P"]
  have hgives : q'.GivesProgram parts (.ofWords []) :=
    ⟨_, gives_ofWords ["PROGRAM", "P", "IS", "BEGIN", "END", "P"] [], .mk (by decide) .nil .nil⟩
  have hwhole : program ⟨q', p⟩ = .ok () ⟨.ofWords [], parts⟩ :=
    program_eq_ok_iff.2 ⟨hgives, isEnd_last _⟩
  have hparts : programParts ⟨q', p⟩ = .ok parts ⟨.ofWords [], p⟩ :=
    programParts_eq_ok_iff.2 ⟨hgives, isEnd_last _, rfl⟩
  obtain ⟨-, hsame, -, hwrite⟩ := program_all_or_nothing q' p
  have hshort : (program.result q p).isOk = false := by decide +kernel
  cases hread : program ⟨q, p⟩ with
  | ok u st =>
    rw [Reader.result, hread] at hshort
    cases hshort
  | error f st =>
    obtain ⟨r, t⟩ := st
    obtain rfl : t = p := (program_all_or_nothing q p).1 f r t hread
    exact ⟨_, parts, q, q', r, _, f, rfl, hread, hwhole, hsame _ _ hwhole,
      (hwrite _ _ _ hparts).2⟩

end Reader

end BL
