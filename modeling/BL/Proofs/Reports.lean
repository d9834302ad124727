import BL.Proofs.Reading.Safety
import BL.Proofs.Source.Positions
import BL.Report

namespace BL

open Text

/-!
# Reports show the right place

Three parts of reading count lines and columns, each for itself: the tokens of a source know where
they stand, a rejection takes over the place of its token, and a report looks for this place in the
text that it is given.  They agree because all of them cut a text at its line feeds, and nowhere
else.

* `Report.Shows` — a text shows a line, and a caret below one of its columns;
* `Report.shows_render` — a report on a line that is there shows it;
* `Source.place_of_mem_tokens` — every token of a source begins in one of its lines;
* `Source.rejects_token` — what is rejected is a token of the source;
* `Source.report_shows_place` — so the report of a rejection shows the place of its token.
-/

/-! ### Reports -/

namespace Report

variable {source : String} {i j : Nat} {l : List Char}

/-- The text shows the line on a line of its own, behind a sign and three blanks, and directly below
    it a caret under the column. -/
def Shows (text : String) (l : List Char) (j : Nat) : Prop :=
  ∃ above below, text = above ++ "\n>   " ++ String.ofList l ++ "\n" ++
    String.ofList (List.replicate (4 + j) ' ') ++ "^\n" ++ below

/-- Lines are numbered from one on. -/
theorem lineOf_eq (h : (source.toList.splitOn '\n')[i]? = some l) :
    lineOf source (i + 1) = some (String.ofList l) := by
  rw [lineOf, if_pos (by omega), splitLines_eq_splitOn, Int.add_sub_cancel, Int.toNat_natCast,
    h, Option.map_some]

/-- The caret stands four columns further to the right than in the line alone. -/
theorem excerpt_eq (text : String) (j : Nat) :
    excerpt text j = ">   " ++ text ++ "\n" ++ String.ofList (List.replicate (4 + j) ' ') ++
      "^\n" := by
  have hblanks : "\n    " ++ String.ofList (List.replicate j ' ')
      = "\n" ++ String.ofList (List.replicate (4 + j) ' ') := by
    rw [← List.replicate_append_replicate, String.ofList_append, ← String.append_assoc]
    rfl
  have hassoc : ">   " ++ text ++ "\n    " ++ String.ofList (List.replicate j ' ')
      = ">   " ++ text ++ ("\n    " ++ String.ofList (List.replicate j ' ')) := String.append_assoc
  rw [excerpt, Int.toNat_natCast, hassoc, hblanks, ← String.append_assoc]

/-- What a report says about the line comes behind its heading, on a line of its own. -/
theorem render_eq {r : Report} {text : String}
    (h : (nonempty (some source)).bind (lineOf · r.line) = some text) (file : Option String) :
    r.render (some source) file = (nonempty file).getD "unknown" ++ ":" ++ toString r.line ++ ":" ++
      toString r.column ++ ": " ++ coloured red "error" ++ ": " ++ r.heading ++ "\n" ++
        excerpt text r.column ++ "  " ++ coloured yellow "Tip:" ++ " " ++ r.tip := by
  rw [render, h]

/-- **Reports** on a line that is there show it. -/
theorem shows_render {r : Report} (hs : source ≠ "") (hline : r.line = i + 1)
    (hcolumn : r.column = j) (hl : (source.toList.splitOn '\n')[i]? = some l)
    (file : Option String) : Shows (r.render (some source) file) l j := by
  have hshown : (nonempty (some source)).bind (lineOf · r.line) = some (String.ofList l) := by
    rw [nonempty, Option.filter_some, if_pos (decide_eq_true hs), Option.bind_some, hline,
      lineOf_eq hl]
  rw [render_eq hshown, hcolumn, excerpt_eq]
  refine ⟨(nonempty file).getD "unknown" ++ ":" ++ toString r.line ++ ":" ++ toString (j : Int) ++
    ": " ++ coloured red "error" ++ ": " ++ r.heading,
    "  " ++ coloured yellow "Tip:" ++ " " ++ r.tip, ?_⟩
  -- Only the line feed that ends the heading is in another piece of text.
  have hfeed (text : String) : "\n" ++ (">   " ++ text) = "\n>   " ++ text := by
    rw [← String.append_assoc]
    rfl
  simp only [String.append_assoc, hfeed]

end Report

/-! ### Places of tokens -/

namespace Source

variable {source : String} {t : Token} {f : Fault}

/-- **Places.** Every token of a source begins in a line of the source.  The line reads there what
    the token reads, unless it is the token that ends the input. -/
theorem place_of_mem_tokens (h : t ∈ tokens source) :
    ∃ (i j : Nat) (l : List Char), t.line = i + 1 ∧ t.column = j ∧
      (source.toList.splitOn '\n')[i]? = some l ∧
      (t ≠ .endOfInput (1 + source.toList.count '\n') →
        t.StandsIn (source.toList.splitOn '\n') i j l ∧
          ∃ c cs, t.text.toList = c :: cs ∧ l[j]? = some c) := by
  rw [tokens, List.mem_append, List.mem_singleton, length_splitLines, splitLines_eq_splitOn] at h
  rcases h with h | rfl
  · obtain ⟨i, front, c, cs, post, hl, rfl, -⟩ := cut_of_mem h
    refine ⟨i, front.length, _, rfl, rfl, hl, fun _ => ⟨standsIn_pieceToken hl, c, cs,
      toList_pieceToken, ?_⟩⟩
    rw [List.append_assoc, List.getElem?_append_right (Nat.le_refl _), Nat.sub_self]
    rfl
  · -- The input ends on the last line, and there is always one.
    have hlast : source.toList.count '\n' < (source.toList.splitOn '\n').length := by
      rw [← splitLines_eq_splitOn, length_splitLines]
      omega
    refine ⟨source.toList.count '\n', 0, _, rfl, rfl, List.getElem?_eq_getElem hlast,
      fun hne => absurd ?_ hne⟩
    rw [Int.natCast_add, Int.add_comm]
    rfl

end Source

/-- What a reader that only rejects tokens gives as its fault. -/
theorem Reader.RejectsOnly.rejects {τ α : Type} {x : Reader τ α} {q : TokenQueue} {t : τ}
    {f : Fault} (hx : RejectsOnly x q t) (h : x.result q t = .error f) : q.Rejects f := by
  rcases hx.result with ⟨u, hu⟩ | ⟨r, hr, hmem, -⟩
  · cases hu.symm.trans h
  · cases hr.symm.trans h
    exact ⟨r, rfl, hmem⟩

namespace Source

variable {source : String} {f : Fault}

/-- What is rejected in a source is one of its tokens. -/
theorem rejects_token
    (h : Program.ofSource source = .error f ∨ Statement.ofSource source = .error f) :
    ∃ r : Rejection, f = .rejected r ∧ r.token ∈ tokens source := by
  rw [← TokenQueue.toList_ofSource]
  exact h.elim (Reader.rejectsOnly_program _ _).rejects (Reader.rejectsOnly_wholeBlock _ _).rejects

/-- **Reports show the right place.** If a source that is not empty holds no program, or no
    statements, then a token is rejected, and the report on it shows the line of the source that
    this token stands on, and a caret below the token's first character. -/
theorem report_shows_place (hs : source ≠ "") (file : Option String)
    (h : Program.ofSource source = .error f ∨ Statement.ofSource source = .error f) :
    ∃ (r : Rejection) (i j : Nat) (l : List Char), f = .rejected r ∧
      r.report.line = i + 1 ∧ r.report.column = j ∧
      (source.toList.splitOn '\n')[i]? = some l ∧
      Report.Shows (r.report.render (some source) file) l j ∧
      (r.token ≠ .endOfInput (1 + source.toList.count '\n') →
        r.token.StandsIn (source.toList.splitOn '\n') i j l ∧
          ∃ c cs, r.token.text.toList = c :: cs ∧ l[j]? = some c) := by
  obtain ⟨r, rfl, hmem⟩ := rejects_token h
  obtain ⟨i, j, l, hline, hcolumn, hl, htoken⟩ := place_of_mem_tokens hmem
  -- A report on a rejection is about the rejected token.
  have hreport : r.report.line = i + 1 ∧ r.report.column = j := ⟨hline, hcolumn⟩
  exact ⟨r, i, j, l, rfl, hreport.1, hreport.2, hl,
    Report.shows_render hs hreport.1 hreport.2 hl file, htoken⟩

/-- A conditional whose end lacks a keyword, on a second line that begins with a tabulator. -/
theorem report_shows_place_sample :
    ∃ r, Program.ofSource "PROGRAM P IS BEGIN\n\tIF random THEN skip END P" = .error (.rejected r) ∧
      r.report.line = 2 ∧ r.report.column = 25 ∧
      Report.Shows (r.report.render (some "PROGRAM P IS BEGIN\n\tIF random THEN skip END P")
        (some "p.bl")) "\tIF random THEN skip END P".toList 25 := by
  have h : Program.ofSource "PROGRAM P IS BEGIN\n\tIF random THEN skip END P"
      = .error (.rejected ⟨.missingKeyword "IF", ⟨.identifier, "P", 2, 25⟩⟩) := by
    with_unfolding_all rfl
  obtain ⟨r, i, j, l, hr, hline, hcolumn, hl, hshows, -⟩ :=
    report_shows_place (by decide) (some "p.bl") (.inl h)
  obtain rfl := Fault.rejected.inj hr
  obtain rfl : i = 1 := by
    have hsecond : (2 : Int) = i + 1 := hline
    omega
  obtain rfl : j = 25 := Int.ofNat.inj hcolumn.symm
  obtain rfl : "\tIF random THEN skip END P".toList = l :=
    Option.some.inj (Eq.trans (by decide) hl)
  exact ⟨_, h, rfl, rfl, hshows⟩

end Source

end BL
