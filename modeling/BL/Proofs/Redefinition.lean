import BL.Proofs.FirstError
import BL.Proofs.Reading.Commit

namespace BL

open Grammar TokenQueue

/-!
# Definitions that open with a name that is taken

Once the keyword and the name of a definition are there, it can be told that the name belongs to an
earlier definition.  But the reader looks for the name in the table only behind the whole
definition.  So whatever else is wrong with it is reported in place of the name, although it stands
further back:

* `TokenQueue.OpensAgain` — a program up to a definition that opens with a taken name;
* `TokenQueue.stopsWith_definition_iff_of_gives` — behind such a name only the rest of the
  definition is refused;
* `TokenQueue.givesDefinition_or_stopsWith` — a definition is complete or refused;
* `Reader.program_of_opensAgain` — the program is rejected, and which of both is reported;
* `Reader.broken_definition_hides_name` — a source where the name is not reported.
-/

namespace TokenQueue

variable {q l k m r : TokenQueue} {x n : String} {b : Statement} {es : List (String × Statement)}
  {f : Fault}

/-! ### Taken names -/

/-- The queue begins with a program up to `l`, where a definition opens with the name of an earlier
    one; behind the name stands `k`.  The earlier definitions are complete, and their names are
    pairwise distinct. -/
def OpensAgain (q l : TokenQueue) (x : String) (k : TokenQueue) : Prop :=
  ∃ n es m, Word.isIdentifier n = true ∧ q.Gives ["PROGRAM", n, "IS"] m ∧
    m.GivesDefinitions es l ∧ (es.map Prod.fst).Nodup ∧ x ∈ es.map Prod.fst ∧
    l.Gives ["INSTRUCTION", x] k

/-- What is defined has a name that may be defined. -/
theorem GivesDefinitions.isNewName (h : q.GivesDefinitions es r) (hx : x ∈ es.map Prod.fst) :
    IsNewName x := by
  obtain ⟨ws, -, h⟩ := h
  obtain ⟨e, he, rfl⟩ := List.mem_map.1 hx
  obtain ⟨hi, hp, -⟩ := (isDefinitions_iff.1 h).1 e he
  exact ⟨hi, hp⟩

/-- The name is the one that the definition opens with. -/
theorem GivesDefinition.name_eq (h : l.GivesDefinition n b r) (hl : l.Gives ["INSTRUCTION", x] k) :
    n = x := by
  obtain ⟨ss, m, m', -, -, -, hm, -, -⟩ := h
  have hsplit : ["INSTRUCTION", n, "IS"] = ["INSTRUCTION", n] ++ ["IS"] := rfl
  rw [hsplit] at hm
  obtain ⟨k', hk', -⟩ := gives_append_iff.1 hm
  obtain ⟨hwords, -⟩ := hk'.eq_of_length hl rfl
  simpa using hwords

/-! ### Complete or refused -/

/-- **Behind the name.** A definition of a name that may be defined is refused behind that name, if
    it is refused at all. -/
theorem stopsWith_definition_iff_of_gives (hx : IsNewName x) (hl : l.Gives ["INSTRUCTION", x] k) :
    l.StopsWith RefusesDefinition f ↔
      k.StopsWith (fun ws => RefusesDefinition ("INSTRUCTION" :: x :: ws)) f := by
  constructor
  · rintro ⟨us, r, c, hg, hs, rfl⟩
    obtain ⟨vs, rfl⟩ := hs.exists_cons
    cases vs with
    | nil =>
      -- The refused word would be the name.
      obtain ⟨m, hm, hk⟩ := gives_cons_iff.1 hl
      obtain ⟨-, rfl⟩ := hg.eq_of_length hm rfl
      rw [hk.front_text] at hs
      cases hs with
      | opening h =>
        cases h with
        | word h => exact absurd hx h.not_isNewName
    | cons y vs =>
      have hsplit : "INSTRUCTION" :: y :: vs = ["INSTRUCTION", y] ++ vs := rfl
      rw [hsplit] at hg
      obtain ⟨k', hk', hg⟩ := gives_append_iff.1 hg
      obtain ⟨hwords, rfl⟩ := hk'.eq_of_length hl rfl
      obtain rfl : y = x := by simpa using hwords
      exact ⟨vs, r, c, hg, hs, rfl⟩
  · exact fun h => hl.stopsWith h fun _ _ _ hs => hs

/-- **Complete or refused.** Behind its keyword a definition goes on to its end, or it is refused at
    some token. -/
theorem givesDefinition_or_stopsWith (hl : l.front.text = "INSTRUCTION") :
    (∃ n b r, l.GivesDefinition n b r) ∨ ∃ f, l.StopsWith RefusesDefinition f := by
  cases h : Reader.instruction ⟨l, .empty⟩ with
  | ok n st => exact .inl ⟨n, st.target, st.queue, Reader.instruction_eq_ok_iff.1 h⟩
  | error f st => exact .inr ⟨f, (Reader.instruction_fails_iff hl).1 ⟨st, h⟩⟩

/-- It is not both. -/
theorem GivesDefinition.not_stopsWith (h : l.GivesDefinition n b r) :
    ¬ l.StopsWith RefusesDefinition f := by
  intro hs
  have hread : Reader.instruction ⟨l, .empty⟩ = .ok n ⟨r, b⟩ := Reader.instruction_eq_ok_iff.2 h
  exact Reader.not_fails_of_eq_ok hread ((Reader.instruction_fails_iff h.front_text).2 hs)

end TokenQueue

namespace Reader

variable {q l k : TokenQueue} {x : String}

/-! ### What is reported -/

/-- A rejected program leaves its target as it was. -/
theorem Fails.program_eq {p : Program} {f : Fault} (h : Fails program ⟨q, p⟩ f) :
    ∃ left, program ⟨q, p⟩ = .error f ⟨left, p⟩ := by
  obtain ⟨st, h⟩ := h
  -- From these tokens every target stays as it is, if one of them does.
  rcases program_outcome q with ⟨parts, m, hp⟩ | ⟨e, m, hp⟩
  · rw [hp] at h
    cases h
  · rw [hp] at h
    cases h
    exact ⟨m, hp p⟩

/-- **Taken names.** A program with a definition that opens with a taken name is rejected, whatever
    comes behind the name, and its target stays as it was.  That the name is taken is reported
    exactly if the second definition is complete, and then at its keyword.  Otherwise the token is
    reported that the definition is refused for, which stands behind the name. -/
theorem program_of_opensAgain (h : q.OpensAgain l x k) (p : Program) :
    ∃ r left, program ⟨q, p⟩ = .error (.rejected r) ⟨left, p⟩ ∧
      (r.cause = .definedTwice ↔ ∃ b m, l.GivesDefinition x b m) ∧
      (r.cause = .definedTwice → r.token = l.front) ∧
      (r.cause ≠ .definedTwice →
        k.StopsWith (fun ws => RefusesDefinition ("INSTRUCTION" :: x :: ws)) (.rejected r)) := by
  obtain ⟨n, es, m, hn, hm, hes, hd, hx, hl⟩ := h
  have hnew : IsNewName x := hes.isNewName hx
  rcases givesDefinition_or_stopsWith hl.front_text with ⟨x', b, m', hdef⟩ | ⟨f, hs⟩
  · -- The second definition is read to its end, and then its name is found in the table.
    obtain rfl := hdef.name_eq hl
    have hrepeats : q.RepeatsName (.rejected ⟨.definedTwice, l.front⟩) :=
      ⟨n, es, m, l, hn, hm, hes, hd, _, b, m', hdef, hx, rfl⟩
    obtain ⟨left, hleft⟩ := (program_fails_iff (p := p)).2 (.inr hrepeats) |>.program_eq
    exact ⟨_, left, hleft, ⟨fun _ => ⟨b, m', hdef⟩, fun _ => rfl⟩, fun _ => rfl,
      fun hne => absurd rfl hne⟩
  · -- The word that the definition is refused for comes before the table is looked into.
    obtain ⟨ds, hds, hdefs⟩ := hes
    have hstops : q.StopsWith RefusesProgram f :=
      (hm.append hds).stopsWith hs fun _ _ _ h => .definition (.mk hn hdefs hd) h
    obtain ⟨left, hleft⟩ := (program_fails_iff (p := p)).2 (.inl hstops) |>.program_eq
    obtain ⟨vs, r, c, hg, hrefused, rfl⟩ := (stopsWith_definition_iff_of_gives hnew hl).1 hs
    have hcause : c ≠ .definedTwice := hrefused.cause_ne
    refine ⟨_, left, hleft, ⟨fun h => absurd h hcause, ?_⟩, fun h => absurd h hcause,
      fun _ => ⟨vs, r, c, hg, hrefused, rfl⟩⟩
    rintro ⟨b, m', hdef⟩
    exact absurd hs hdef.not_stopsWith

/-- A second definition that is complete, where the words end, and one that closes with another
    name. -/
theorem program_of_opensAgain_sample :
    (∃ left, program ⟨ofWords (["PROGRAM", "P", "IS", "INSTRUCTION", "go", "IS", "END", "go"] ++
        ["INSTRUCTION", "go", "IS", "END", "go"]), .empty⟩ =
      .error (.rejected ⟨.definedTwice, ⟨.keyword, "INSTRUCTION", 1, 0⟩⟩) ⟨left, .empty⟩) ∧
    ∃ r left, program ⟨ofWords (["PROGRAM", "P", "IS", "INSTRUCTION", "go", "IS", "END", "go"] ++
        ["INSTRUCTION", "go", "IS", "END", "run"]), .empty⟩ =
      .error (.rejected r) ⟨left, .empty⟩ ∧ r.cause ≠ .definedTwice := by
  have hopens : ∀ vs, (ofWords (["PROGRAM", "P", "IS", "INSTRUCTION", "go", "IS", "END", "go"] ++
      ("INSTRUCTION" :: "go" :: vs))).OpensAgain (ofWords ("INSTRUCTION" :: "go" :: vs)) "go"
      (ofWords vs) := by
    intro vs
    have hdef : IsDefinitions ["INSTRUCTION", "go", "IS", "END", "go"] [("go", .block [])] :=
      .cons (by decide) (by decide) .nil .nil
    exact ⟨"P", _, _, by decide, gives_ofWords ["PROGRAM", "P", "IS"] _,
      ⟨_, gives_ofWords ["INSTRUCTION", "go", "IS", "END", "go"] _, hdef⟩, by simp, by simp,
      gives_ofWords ["INSTRUCTION", "go"] vs⟩
  constructor
  · obtain ⟨⟨c, t⟩, left, hleft, hiff, htoken, -⟩ :=
      program_of_opensAgain (hopens ["IS", "END", "go"]) .empty
    have hdef : (ofWords ["INSTRUCTION", "go", "IS", "END", "go"]).GivesDefinition "go" (.block [])
        (ofWords []) :=
      ⟨[], _, _, rfl, by decide, by decide, gives_ofWords ["INSTRUCTION", "go", "IS"] _,
        givesBlock_nil_iff.2 rfl, gives_ofWords ["END", "go"] []⟩
    obtain rfl : c = .definedTwice := hiff.2 ⟨_, _, hdef⟩
    obtain rfl : t = _ := htoken rfl
    exact ⟨left, hleft⟩
  · obtain ⟨r, left, hleft, hiff, -, -⟩ :=
      program_of_opensAgain (hopens ["IS", "END", "run"]) .empty
    have hrefuses : RefusesDefinition ("INSTRUCTION" :: "go" :: "IS" :: ([] ++ ["END"])) "run"
        .nameMismatch :=
      .closing ⟨by decide, by decide⟩ .nil (.last (by decide))
    have hstops : (ofWords ["INSTRUCTION", "go", "IS", "END", "run"]).StopsWith RefusesDefinition
        (.rejected ⟨.nameMismatch, (ofWords ["run"]).front⟩) :=
      ⟨_, _, _, gives_ofWords ["INSTRUCTION", "go", "IS", "END"] ["run"], hrefuses, rfl⟩
    refine ⟨r, left, hleft, fun hcause => ?_⟩
    obtain ⟨b, m, hdef⟩ := hiff.1 hcause
    exact hdef.not_stopsWith hstops

/-- The second definition of `a` lacks the keyword behind its name. -/
def lackingKeyword : String := "PROGRAM p IS INSTRUCTION a IS END a INSTRUCTION a BEGIN END p"

/-- **A taken name that is not reported.** The missing keyword is reported, at the word behind the
    name. -/
theorem broken_definition_hides_name :
    ∃ l k, (ofSource lackingKeyword).OpensAgain l "a" k ∧
      l.front = ⟨.keyword, "INSTRUCTION", 1, 36⟩ ∧
      ∀ p, ∃ left, program ⟨ofSource lackingKeyword, p⟩ =
        .error (.rejected ⟨.missingKeyword "IS", ⟨.keyword, "BEGIN", 1, 50⟩⟩) ⟨left, p⟩ := by
  have hread : Fails program ⟨ofSource lackingKeyword, .empty⟩
      (.rejected ⟨.missingKeyword "IS", ⟨.keyword, "BEGIN", 1, 50⟩⟩) := by
    rw [← result_eq_error_iff]
    with_unfolding_all rfl
  have hdef : IsDefinitions ["INSTRUCTION", "a", "IS", "END", "a"] [("a", .block [])] :=
    .cons (by decide) (by decide) .nil .nil
  have hwords : Source.words lackingKeyword = ["PROGRAM", "p", "IS"] ++
      (["INSTRUCTION", "a", "IS", "END", "a"] ++
        (["INSTRUCTION", "a"] ++ ["BEGIN", "END", "p"])) := by
    decide +kernel
  have hgives := gives_words_ofSource lackingKeyword
  rw [hwords] at hgives
  obtain ⟨m, hm, hgives⟩ := gives_append_iff.1 hgives
  obtain ⟨l, hl, hgives⟩ := gives_append_iff.1 hgives
  obtain ⟨k, hk, -⟩ := gives_append_iff.1 hgives
  have hopens : (ofSource lackingKeyword).OpensAgain l "a" k :=
    ⟨"p", _, m, by decide, hm, ⟨_, hl, hdef⟩, by simp, by simp, hk⟩
  have htoken : (ofSource lackingKeyword).toList[8]? = some ⟨.keyword, "INSTRUCTION", 1, 36⟩ := by
    decide +kernel
  have hfront := (hm.append hl).getElem?_length.symm.trans htoken
  exact ⟨l, k, hopens, Option.some.inj hfront,
    fun p => Fails.program_eq (program_fails_iff.2 (program_fails_iff.1 hread))⟩

end Reader

end BL
