import BL.Proofs.Reading.ProgramFailure
import Mathlib.Data.List.Induction

namespace BL

open Grammar TokenQueue

/-!
# Errors are reported at the first token that cannot be right

The words in front of the reported token begin a sentence, and with its word they do not.  The
first half is shown by completing every construct that is open; the second half is about all
sentences at once, and follows from what a reader does with them: it stops at the same word whatever
comes behind it, but it would have to read the sentence.

* `Grammar.Sentence.reads_or_repeats` — a sentence is read, unless it defines a name twice;
* `Grammar.RefusesProgram.not_sentence`, `Grammar.RefusesStatements.not_isBlock` — no sentence goes
  on with a refused word;
* `Pinpoints` — a rejection names the first token that cannot be right;
* `Source.first_error` — every rejection does, apart from names that are defined twice.
-/

/-! ### Sentences are read -/

/-- A list with an element that comes twice has a longest beginning without one. -/
theorem exists_append_cons_of_not_nodup {α β : Type} (f : α → β) {l : List α}
    (h : ¬ (l.map f).Nodup) :
    ∃ l₁ a l₂, l = l₁ ++ a :: l₂ ∧ (l₁.map f).Nodup ∧ f a ∈ l₁.map f := by
  induction l using List.reverseRecOn with
  | nil => exact absurd List.nodup_nil h
  | append_singleton l b ih =>
    by_cases hl : (l.map f).Nodup
    · -- The last element is the first to come twice.
      refine ⟨l, b, [], rfl, hl, ?_⟩
      by_contra hb
      refine h ?_
      rw [List.map_append, List.map_singleton]
      exact List.nodup_append.2 ⟨hl, by simp, fun x hx y hy e =>
        hb (List.mem_singleton.1 hy ▸ e ▸ hx)⟩
    · obtain ⟨l₁, a, l₂, rfl, h₁, ha⟩ := ih hl
      exact ⟨l₁, a, l₂ ++ [b], by simp, h₁, ha⟩

namespace TokenQueue

variable {q r : TokenQueue} {ws : List String} {es fs : List (String × Statement)}

/-- Definitions one after the other leave a queue between them. -/
theorem givesDefinitions_append_iff :
    q.GivesDefinitions (es ++ fs) r ↔ ∃ m, q.GivesDefinitions es m ∧ m.GivesDefinitions fs r := by
  induction es generalizing q with
  | nil => simp [givesDefinitions_nil_iff]
  | cons e es ih =>
    obtain ⟨n, b⟩ := e
    simp only [List.cons_append, givesDefinitions_cons_iff, ih]
    constructor
    · rintro ⟨m, hm, l, hl, hr⟩
      exact ⟨l, ⟨m, hm, hl⟩, hr⟩
    · rintro ⟨l, ⟨m, hm, hl⟩, hr⟩
      exact ⟨m, hm, l, hl, hr⟩

/-- Behind the words given stands the first token of what follows. -/
theorem Gives.getElem?_length (h : q.Gives ws r) : q.toList[ws.length]? = some r.front := by
  obtain ⟨ts, rfl, h⟩ := h
  rw [h, List.length_map, List.getElem?_append_right (Nat.le_refl _), Nat.sub_self,
    ← List.head?_eq_getElem?, r.head?_toList]

theorem Gives.map_text_take (h : q.Gives ws r) :
    (q.toList.take ws.length).map Token.text = ws := by
  obtain ⟨ts, rfl, h⟩ := h
  rw [h, List.length_map, List.take_left]

theorem Gives.map_text_take_succ (h : q.Gives ws r) :
    (q.toList.take (ws.length + 1)).map Token.text = ws ++ [r.front.text] := by
  rw [List.take_add_one, List.map_append, h.map_text_take, h.getElem?_length]
  rfl

end TokenQueue

namespace Grammar

variable {ws vs : List String} {w : String} {k : Cause}

/-- **Sentences** are read as programs, or stop at the second definition of a name. -/
theorem Sentence.reads_or_repeats (h : Sentence ws) :
    (∃ p, (ofWords ws).GivesProgram p (ofWords [])) ∨
      ∃ t, (ofWords ws).RepeatsName (.rejected ⟨.definedTwice, t⟩) := by
  obtain ⟨n, es, s, h⟩ := h
  by_cases hd : (es.map Prod.fst).Nodup
  · have hg := gives_ofWords ws []
    rw [List.append_nil] at hg
    exact .inl ⟨⟨n, ⟨es, hd⟩, s⟩, ws, hg, h⟩
  · obtain ⟨es, ⟨n', b⟩, fs, rfl, hes, hmem⟩ := exists_append_cons_of_not_nodup Prod.fst hd
    cases h with
    | @mk _ ds vs _ ss hn hds hb =>
      -- The words of the opening, of the definitions before the second one, and of that one.
      have hm := gives_ofWords ["PROGRAM", n, "IS"] (ds ++ "BEGIN" :: (vs ++ ["END", n]))
      have hl := gives_ofWords ds ("BEGIN" :: (vs ++ ["END", n]))
      obtain ⟨l, hl, hr⟩ := givesDefinitions_append_iff.1 ⟨ds, hl, hds⟩
      obtain ⟨l', hdef, -⟩ := givesDefinitions_cons_iff.1 hr
      exact .inr ⟨l.front, n, es, _, l, hn, hm, hl, hes, n', b, l', hdef, hmem, rfl⟩

/-! ### Refused words do not go on -/

/-- A reader that stops at a word would have to read the sentence, or to stop later. -/
theorem RefusesProgram.not_sentence (h : RefusesProgram ws (ofWords vs).front.text k) :
    ¬ Sentence (ws ++ vs) := by
  intro hs
  have hstop : Reader.Fails Reader.program ⟨ofWords (ws ++ vs), .empty⟩
      (.rejected ⟨k, (ofWords vs).front⟩) :=
    Reader.program_fails_iff.2 (.inl ⟨ws, _, k, gives_ofWords ws vs, h, rfl⟩)
  rcases hs.reads_or_repeats with ⟨p, hp⟩ | ⟨t, ht⟩
  · have hread : Reader.program ⟨ofWords (ws ++ vs), .empty⟩ = .ok () ⟨ofWords [], p⟩ :=
      Reader.program_eq_ok_iff.2 ⟨hp, isEnd_last _⟩
    exact Reader.not_fails_of_eq_ok hread hstop
  · -- The second definition of a name is another cause to stop.
    obtain ⟨st, hst⟩ := Reader.program_fails_iff.2 (.inr ht)
    obtain ⟨st', hst'⟩ := hstop
    rw [hst] at hst'
    cases hst'
    exact h.cause_ne rfl

/-- The same for statements in a row. -/
theorem RefusesStatements.not_isBlock (h : RefusesStatements ws (ofWords vs).front.text k)
    (ss : List Statement) : ¬ IsBlock (ws ++ vs) ss := by
  intro hs
  have hstop : Reader.Fails Reader.wholeBlock ⟨ofWords (ws ++ vs), .empty⟩
      (.rejected ⟨k, (ofWords vs).front⟩) :=
    Reader.wholeBlock_fails_iff.2 ⟨ws, _, k, gives_ofWords ws vs, h, rfl⟩
  have hg := gives_ofWords (ws ++ vs) []
  rw [List.append_nil] at hg
  have hread : Reader.wholeBlock ⟨ofWords (ws ++ vs), .empty⟩ = .ok () ⟨ofWords [], .block ss⟩ :=
    Reader.wholeBlock_eq_ok_iff.2 ⟨ss, ⟨_, hg, hs⟩, isEnd_last _, rfl⟩
  exact Reader.not_fails_of_eq_ok hread hstop

end Grammar

/-! ### Errors in sources -/

/-- The rejection names the first token that cannot be right: the words in front of it begin a
    sentence, with its word they do not, and if it ends the input, then they are no sentence.  If a
    keyword is missing, the words in front of the token may be gone on with by that keyword. -/
def Pinpoints (sentence viable : List String → Prop) (tokens : List Token) (r : Rejection) : Prop :=
  ∃ i, tokens[i]? = some r.token ∧ viable ((tokens.take i).map Token.text) ∧
    ¬ viable ((tokens.take (i + 1)).map Token.text) ∧
    (r.token.isEnd = true → ¬ sentence ((tokens.take i).map Token.text)) ∧
    ∀ k, r.cause = .missingKeyword k → viable ((tokens.take i).map Token.text ++ [k])

/-- Where a reader stops, it pinpoints the error, if the words in front of a refused one may be gone
    on with, but not by that one. -/
theorem TokenQueue.StopsWith.pinpoints {sentence viable : List String → Prop}
    {S : List String → String → Cause → Prop} {q : TokenQueue} {f : Fault}
    (h : q.StopsWith S f) (hviable : ∀ ws, viable ws ↔ ∃ vs, sentence (ws ++ vs))
    (hon : ∀ ws w k, S ws w k →
      viable ws ∧ ∀ keyword, k = .missingKeyword keyword → viable (ws ++ [keyword]))
    (hstop : ∀ ws vs k, S ws (ofWords vs).front.text k → ¬ sentence (ws ++ vs)) :
    ∃ r, f = .rejected r ∧ Pinpoints sentence viable q.toList r := by
  obtain ⟨ws, r, k, hg, hs, rfl⟩ := h
  obtain ⟨hbegin, hkeyword⟩ := hon ws _ k hs
  refine ⟨⟨k, r.front⟩, rfl, ws.length, hg.getElem?_length, ?_⟩
  rw [hg.map_text_take, hg.map_text_take_succ]
  refine ⟨hbegin, fun hv => ?_, fun he hsent => ?_, hkeyword⟩
  · obtain ⟨vs, hsent⟩ := (hviable _).1 hv
    rw [List.append_assoc, List.singleton_append] at hsent
    exact hstop ws (r.front.text :: vs) k hs hsent
  · -- The text at the end of the input is also what follows the last word of a sentence.
    have hend : S ws (ofWords []).front.text k := by
      rw [Token.isEnd, beq_iff_eq] at he
      rwa [he] at hs
    rw [← List.append_nil ws] at hsent
    exact hstop ws [] k hend hsent

/-- **The first error.** A source that holds no program is rejected at the first token that cannot
    be right, unless it is rejected for defining a name twice.  A source that holds no statements is
    always rejected at the first token that cannot be right. -/
theorem Source.first_error (source : String) :
    (∀ f, Program.ofSource source = .error f → ∃ r, f = .rejected r ∧
      (r.cause.code ≠ "E008" → Pinpoints Sentence Viable (tokens source) r)) ∧
    ∀ f, Statement.ofSource source = .error f → ∃ r, f = .rejected r ∧
      Pinpoints (fun ws => ∃ ss, IsBlock ws ss) ViableBlock (tokens source) r := by
  constructor
  · intro f h
    rcases Program.ofSource_eq_error_iff.1 h with h | h
    · obtain ⟨r, rfl, hr⟩ := h.pinpoints (fun _ => Iff.rfl)
        (fun _ _ _ h => h.viable) (fun _ _ _ h => h.not_sentence)
      rw [toList_ofSource] at hr
      exact ⟨r, rfl, fun _ => hr⟩
    · obtain ⟨n, es, m, l, -, -, -, -, _, _, _, -, -, rfl⟩ := h
      exact ⟨_, rfl, fun hcode => absurd rfl hcode⟩
  · intro f h
    have hstop := Statement.ofSource_eq_error_iff.1 h
    rw [← toList_ofSource]
    exact hstop.pinpoints (fun _ => Iff.rfl) (fun _ _ _ h => h.viable)
      fun _ _ _ h ⟨ss, hss⟩ => h.not_isBlock ss hss

/-- A conditional whose end lacks a keyword, and statements behind which a construct is closed. -/
theorem Source.first_error_sample :
    (∃ r, Program.ofSource "PROGRAM P IS BEGIN IF random THEN skip END P" = .error (.rejected r) ∧
      r = ⟨.missingKeyword "IF", ⟨.identifier, "P", 1, 43⟩⟩ ∧
      Pinpoints Sentence Viable (tokens "PROGRAM P IS BEGIN IF random THEN skip END P") r) ∧
    ∃ r, Statement.ofSource "move END" = .error (.rejected r) ∧
      r = ⟨.trailing, ⟨.keyword, "END", 1, 5⟩⟩ ∧
      Pinpoints (fun ws => ∃ ss, IsBlock ws ss) ViableBlock (tokens "move END") r := by
  constructor
  · have h : Program.ofSource "PROGRAM P IS BEGIN IF random THEN skip END P"
        = .error (.rejected ⟨.missingKeyword "IF", ⟨.identifier, "P", 1, 43⟩⟩) := by
      with_unfolding_all rfl
    obtain ⟨r, hr, hp⟩ := (Source.first_error _).1 _ h
    obtain rfl := Fault.rejected.inj hr
    exact ⟨_, h, rfl, hp (by decide)⟩
  · have h : Statement.ofSource "move END"
        = .error (.rejected ⟨.trailing, ⟨.keyword, "END", 1, 5⟩⟩) := by
      with_unfolding_all rfl
    obtain ⟨r, hr, hp⟩ := (Source.first_error _).2 _ h
    obtain rfl := Fault.rejected.inj hr
    exact ⟨_, h, rfl, hp⟩

end BL
