import BL.Proofs.Reading.Program
import BL.Proofs.Source.Classes
import BL.Proofs.Source.Joining

namespace BL

open Grammar

/-!
# A text between the first and the last line of a program

Statements can be read by themselves, or as the body of a program around them.  Both ways read the
same texts: no text ends the program early, and what is missing at the end of a text is not made up
for by the words that end the program.

* `Source.enclosing` — the source of a program with a text as its body;
* `Source.words_enclosing` — its words are those of the text, between the words of the program;
* `Grammar.isProgramOf_plain_iff` — programs without definitions;
* `Program.ofSource_enclosing_eq_ok_iff`, `Program.ofSource_enclosing` — what is read from such a
  source.
-/

/-! ### The source and its words -/

namespace Source

/-- The source of a program of this name without definitions, with the text on the lines between
    its first and its last one. -/
def enclosing (n b : String) : String :=
  "PROGRAM " ++ n ++ " IS BEGIN\n" ++ b ++ "\nEND " ++ n

/-- **Words of the program.** The text keeps its words.  A comment on its last line ends there, so
    that it does not reach the words behind it. -/
theorem words_enclosing {n : String} (hn : Word.isIdentifier n = true) (b : String) :
    words (enclosing n b) = ["PROGRAM", n, "IS", "BEGIN"] ++ (words b ++ ["END", n]) := by
  have hname : IsLexeme n.toList := isLexeme_of_hasShape (Word.hasShape_of_isIdentifier hn)
  have hword : ∀ w, Word.isKeyword w = true → IsLexeme w.toList :=
    fun w h => isLexeme_of_hasShape (Word.hasShape_of_isKeyword h)
  have hfirst : words (" ".intercalate ["PROGRAM", n, "IS", "BEGIN"]) =
      ["PROGRAM", n, "IS", "BEGIN"] := by
    refine words_intercalate_of_isLexeme ?_
    simp only [List.mem_cons, List.not_mem_nil, or_false, forall_eq_or_imp, forall_eq]
    exact ⟨hword _ rfl, hname, hword _ rfl, hword _ rfl⟩
  have hlast : words (" ".intercalate ["END", n]) = ["END", n] := by
    refine words_intercalate_of_isLexeme ?_
    simp only [List.mem_cons, List.not_mem_nil, or_false, forall_eq_or_imp, forall_eq]
    exact ⟨hword _ rfl, hname⟩
  have hlines : enclosing n b =
      " ".intercalate ["PROGRAM", n, "IS", "BEGIN"] ++ "\n" ++ b ++ "\n" ++
        " ".intercalate ["END", n] := by
    rw [← String.toList_inj]
    simp [enclosing, String.intercalate_cons_cons]
  rw [hlines, words_append_newline, words_append_newline, hfirst, hlast, List.append_assoc]

end Source

/-! ### Programs without definitions -/

/-- **Programs without definitions.** With `BEGIN` behind the opening there are no definitions, and
    the words in front of the last two are those of the body. -/
theorem Grammar.isProgramOf_plain_iff {n name : String} {ws : List String}
    {es : List (String × Statement)} {s : Statement} :
    IsProgramOf (["PROGRAM", n, "IS", "BEGIN"] ++ (ws ++ ["END", n])) name es s ↔
      Word.isIdentifier n = true ∧ name = n ∧ es = [] ∧ ∃ ss, s = .block ss ∧ IsBlock ws ss := by
  constructor
  · intro h
    generalize hvs : ["PROGRAM", n, "IS", "BEGIN"] ++ (ws ++ ["END", n]) = vs at h
    obtain @⟨_, ds, us, _, ss, hn, hd, hb⟩ := h
    simp only [List.cons_append, List.nil_append, List.cons.injEq, true_and] at hvs
    obtain ⟨rfl, hvs⟩ := hvs
    cases hd with
    | nil =>
      -- Both sequences end with the same two words, whatever the text before them is.
      rw [List.nil_append, List.cons.injEq] at hvs
      obtain rfl := List.append_cancel_right hvs.2
      exact ⟨hn, rfl, rfl, ss, rfl, hb⟩
    | cons _ _ _ _ =>
      -- A definition begins with another keyword than the body.
      rw [List.cons_append, List.cons.injEq] at hvs
      exact absurd hvs.1 (by decide)
  · rintro ⟨hn, rfl, rfl, ss, rfl, hb⟩
    exact .mk hn .nil hb

/-! ### Reading it -/

namespace Program

variable {n : String}

/-- What is read from the source is the program around the statements that are read from the
    text. -/
theorem ofSource_enclosing_eq_ok_iff (hn : Word.isIdentifier n = true) {b : String} {p : Program} :
    ofSource (Source.enclosing n b) = .ok p ↔
      p.name = n ∧ p.context = .empty ∧ Statement.ofSource b = .ok p.body := by
  have hempty : p.context.entries = [] ↔ p.context = .empty :=
    ⟨fun h => Table.ext h, fun h => h ▸ rfl⟩
  rw [ofSource_eq_ok_iff, IsProgram, Source.words_enclosing hn, isProgramOf_plain_iff, hempty,
    Statement.ofSource_eq_ok_iff]
  simp only [hn, true_and]

/-- **No text escapes the program around it.** The program is read exactly if the statements are
    read that the text holds by itself, and it has the name, no definitions, and these statements as
    its body. -/
theorem ofSource_enclosing (hn : Word.isIdentifier n = true) (b : String) :
    ((∃ p, ofSource (Source.enclosing n b) = .ok p) ↔ ∃ s, Statement.ofSource b = .ok s) ∧
    ∀ p, ofSource (Source.enclosing n b) = .ok p →
      p.name = n ∧ p.context = .empty ∧ Statement.ofSource b = .ok p.body := by
  refine ⟨⟨?_, ?_⟩, fun p h => (ofSource_enclosing_eq_ok_iff hn).1 h⟩
  · rintro ⟨p, h⟩
    obtain ⟨-, -, hs⟩ := (ofSource_enclosing_eq_ok_iff hn).1 h
    exact ⟨p.body, hs⟩
  · rintro ⟨s, hs⟩
    exact ⟨⟨n, .empty, s⟩, (ofSource_enclosing_eq_ok_iff hn).2 ⟨rfl, rfl, hs⟩⟩

/-- A comment where the text ends, and a text that ends the program and begins another one. -/
theorem ofSource_enclosing_sample :
    (∃ p, ofSource (Source.enclosing "P" "skip # END P") = .ok p ∧ p.name = "P" ∧
      p.context = .empty ∧ p.body = .block [.call "skip"]) ∧
    ¬∃ p, ofSource (Source.enclosing "P" "END P PROGRAM P IS BEGIN") = .ok p := by
  constructor
  · have hs : Statement.ofSource "skip # END P" = .ok (.block [.call "skip"]) := by
      with_unfolding_all rfl
    obtain ⟨hiff, hsame⟩ := ofSource_enclosing (n := "P") (by decide) "skip # END P"
    obtain ⟨p, hp⟩ := hiff.2 ⟨_, hs⟩
    obtain ⟨hn, hc, hb⟩ := hsame p hp
    rw [hs] at hb
    exact ⟨p, hp, hn, hc, (Except.ok.inj hb).symm⟩
  · rw [(ofSource_enclosing (n := "P") (by decide) _).1]
    have hs : Statement.ofSource "END P PROGRAM P IS BEGIN" =
        .error (.rejected ⟨.trailing, ⟨.keyword, "END", 1, 0⟩⟩) := by
      with_unfolding_all rfl
    rintro ⟨s, h⟩
    rw [hs] at h
    cases h

end Program

end BL
