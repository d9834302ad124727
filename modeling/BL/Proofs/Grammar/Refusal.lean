import BL.Fault
import BL.Grammar

namespace BL.Grammar

/-!
# Refused words

Words can begin a construct and be followed by a word with which no such construct goes on.  The
relations of this file list where this happens, and why the word is refused.  Like the grammar they
say nothing about how a text is read.

* `RefusesCondition`, `RefusesName`, `RefusesOpening`, `RefusesClosing` — the words that open and
  close constructs;
* `Part`, `Refuses`, `RefusesStatements` — statements and blocks, with the blocks inside, and texts
  of statements;
* `RefusesDefinition`, `RefusesProgram` — definitions and programs;
* `Refuses.exists_words`, `RefusesStatements.viable`, `RefusesProgram.viable` — the words in front
  of a refused one can be gone on with, by the missing keyword if there is one.
-/

/-! ### Openings and closings -/

/-- The word is refused where the name of a condition has to stand. -/
inductive RefusesCondition : String → Cause → Prop where
  | mk {w : String} (h : Word.isCondition w = false) : RefusesCondition w .noCondition

/-- The word is refused where the name of a program has to stand. -/
inductive RefusesIdentifier : String → Cause → Prop where
  | mk {w : String} (h : Word.isIdentifier w = false) : RefusesIdentifier w .noIdentifier

/-- The word is refused where the name of a definition has to stand. -/
inductive RefusesName : String → Cause → Prop where
  | keyword {w : String} (h : Word.isKeyword w = true) : RefusesName w .definesKeyword
  | condition {w : String} (hk : Word.isKeyword w = false) (h : Word.isCondition w = true) :
    RefusesName w .definesCondition
  | noIdentifier {w : String} (hk : Word.isKeyword w = false) (hc : Word.isCondition w = false)
      (h : Word.isIdentifier w = false) : RefusesName w .noIdentifier
  | primitive {w : String} (hi : Word.isIdentifier w = true) (h : Word.isPrimitive w = true) :
    RefusesName w .definesPrimitive

/-- A word between two keywords opens a construct.  Behind the first keyword another word may be
    refused, and behind the word in between whatever is not the second keyword. -/
inductive RefusesOpening (first second : String) {α : Type} (word : α → String) (P : α → Prop)
    (S : String → Cause → Prop) : List String → String → Cause → Prop where
  | word {w : String} {k : Cause} (h : S w k) : RefusesOpening first second word P S [first] w k
  | second {a : α} {w : String} (ha : P a) (h : w ≠ second) :
    RefusesOpening first second word P S [first, word a] w (.missingKeyword second)

/-- The keyword `END` and a last word close a construct.  In place of the keyword one of the words
    is refused that end a block as well, in place of the last word any other one. -/
inductive RefusesClosing (enders : List String) (last : String) (cause : Cause) :
    List String → String → Cause → Prop where
  | first {w : String} (h : w ∈ enders) :
    RefusesClosing enders last cause [] w (.missingKeyword "END")
  | last {w : String} (h : w ≠ last) : RefusesClosing enders last cause ["END"] w cause

/-! ### Statements and blocks -/

/-- What is read from a text without programs and definitions. -/
inductive Part where
  | statement
  | conditional
  | loop
  | block
  deriving DecidableEq, Repr

/-- The words are those of such a part.  A conditional or a loop is a statement. -/
def Part.Derives : Part → List String → Prop
  | statement, ws | conditional, ws | loop, ws => ∃ s, IsStatement ws s
  | block, ws => ∃ ss, IsBlock ws ss

/-- **Refused words.** Behind the words, which begin such a part, the next word is refused. -/
inductive Refuses : Part → List String → String → Cause → Prop where
  | start {w : String} (hif : w ≠ "IF") (hwhile : w ≠ "WHILE")
      (h : Word.isIdentifier w = false) : Refuses .statement [] w .noIdentifier
  | ofConditional {ws : List String} {w : String} {k : Cause} (h : Refuses .conditional ws w k) :
    Refuses .statement ws w k
  | ofLoop {ws : List String} {w : String} {k : Cause} (h : Refuses .loop ws w k) :
    Refuses .statement ws w k
  | ifOpening {ws : List String} {w : String} {k : Cause}
      (h : RefusesOpening "IF" "THEN" Condition.spelling (fun _ => True) RefusesCondition ws w k) :
    Refuses .conditional ws w k
  | ifBody {ws : List String} {w : String} {k : Cause} (c : Condition) (h : Refuses .block ws w k) :
    Refuses .conditional ("IF" :: c.spelling :: "THEN" :: ws) w k
  | ifClosing {ws vs : List String} {w : String} {k : Cause} {ss : List Statement} (c : Condition)
      (h : IsBlock ws ss)
      (h' : RefusesClosing [Token.endText] "IF" (.missingKeyword "IF") vs w k) :
    Refuses .conditional ("IF" :: c.spelling :: "THEN" :: (ws ++ vs)) w k
  | elseBody {ws vs : List String} {w : String} {k : Cause} {ss : List Statement} (c : Condition)
      (h : IsBlock ws ss) (h' : Refuses .block vs w k) :
    Refuses .conditional ("IF" :: c.spelling :: "THEN" :: (ws ++ "ELSE" :: vs)) w k
  | elseClosing {ws vs us : List String} {w : String} {k : Cause} {ss ts : List Statement}
      (c : Condition) (h : IsBlock ws ss) (h' : IsBlock vs ts)
      (h'' : RefusesClosing [Token.endText, "ELSE"] "IF" (.missingKeyword "IF") us w k) :
    Refuses .conditional ("IF" :: c.spelling :: "THEN" :: (ws ++ "ELSE" :: (vs ++ us))) w k
  | whileOpening {ws : List String} {w : String} {k : Cause}
      (h : RefusesOpening "WHILE" "DO" Condition.spelling (fun _ => True) RefusesCondition ws w k) :
    Refuses .loop ws w k
  | whileBody {ws : List String} {w : String} {k : Cause} (c : Condition)
      (h : Refuses .block ws w k) : Refuses .loop ("WHILE" :: c.spelling :: "DO" :: ws) w k
  | whileClosing {ws vs : List String} {w : String} {k : Cause} {ss : List Statement}
      (c : Condition) (h : IsBlock ws ss)
      (h' : RefusesClosing [Token.endText, "ELSE"] "WHILE" (.missingKeyword "WHILE") vs w k) :
    Refuses .loop ("WHILE" :: c.spelling :: "DO" :: (ws ++ vs)) w k
  /-- Where a block can end, none of the words that end one is refused. -/
  | head {ws : List String} {w : String} {k : Cause} (h : Refuses .statement ws w k)
      (he : ws = [] → w ∉ [Token.endText, "ELSE", "END"]) : Refuses .block ws w k
  | tail {ws vs : List String} {w : String} {k : Cause} {s : Statement} (h : IsStatement ws s)
      (h' : Refuses .block vs w k) : Refuses .block (ws ++ vs) w k

/-- Behind the words, which begin statements in a row, the next word is refused, or it closes a
    construct that was not opened. -/
inductive RefusesStatements : List String → String → Cause → Prop where
  | inside {ws : List String} {w : String} {k : Cause} (h : Refuses .block ws w k) :
    RefusesStatements ws w k
  | trailing {ws : List String} {w : String} {ss : List Statement} (h : IsBlock ws ss)
      (hw : w ∈ ["ELSE", "END"]) : RefusesStatements ws w .trailing

/-! ### Definitions and programs -/

/-- The name is one that may be defined. -/
def IsNewName (n : String) : Prop := Word.isIdentifier n = true ∧ Word.isPrimitive n = false

/-- No name that may be defined is refused. -/
theorem RefusesName.not_isNewName {w : String} {k : Cause} (h : RefusesName w k) :
    ¬ IsNewName w := by
  rintro ⟨hi, hp⟩
  obtain ⟨hk, hc⟩ := Word.not_reserved_of_isIdentifier hi
  cases h with
  | keyword h => exact absurd h (by simp [hk])
  | condition _ h => exact absurd h (by simp [hc])
  | noIdentifier _ _ h => exact absurd h (by simp [hi])
  | primitive _ h => exact absurd h (by simp [hp])

/-- Behind the words, which begin a definition, the next word is refused. -/
inductive RefusesDefinition : List String → String → Cause → Prop where
  | opening {ws : List String} {w : String} {k : Cause}
      (h : RefusesOpening "INSTRUCTION" "IS" id IsNewName RefusesName ws w k) :
    RefusesDefinition ws w k
  | body {n : String} {ws : List String} {w : String} {k : Cause} (hn : IsNewName n)
      (h : Refuses .block ws w k) : RefusesDefinition ("INSTRUCTION" :: n :: "IS" :: ws) w k
  | closing {n : String} {ws vs : List String} {w : String} {k : Cause} {ss : List Statement}
      (hn : IsNewName n) (h : IsBlock ws ss)
      (h' : RefusesClosing [Token.endText, "ELSE"] n .nameMismatch vs w k) :
    RefusesDefinition ("INSTRUCTION" :: n :: "IS" :: (ws ++ vs)) w k

/-- The words open a program and define instructions, no two of them under one name. -/
inductive IsProgramHead : List String → String → List (String × Statement) → Prop where
  | mk {n : String} {ds : List String} {es : List (String × Statement)}
      (hn : Word.isIdentifier n = true) (hd : IsDefinitions ds es) (h : (es.map Prod.fst).Nodup) :
    IsProgramHead ("PROGRAM" :: n :: "IS" :: ds) n es

/-- Behind the words, which begin a program, the next word is refused.  The names of the definitions
    that come before are pairwise distinct. -/
inductive RefusesProgram : List String → String → Cause → Prop where
  | start {w : String} (h : w ≠ "PROGRAM") : RefusesProgram [] w (.missingKeyword "PROGRAM")
  | opening {ws : List String} {w : String} {k : Cause}
      (h : RefusesOpening "PROGRAM" "IS" id (Word.isIdentifier · = true) RefusesIdentifier ws w k) :
    RefusesProgram ws w k
  | definition {n : String} {hs ws : List String} {es : List (String × Statement)} {w : String}
      {k : Cause} (hh : IsProgramHead hs n es) (h : RefusesDefinition ws w k) :
    RefusesProgram (hs ++ ws) w k
  | noBegin {n : String} {hs : List String} {es : List (String × Statement)} {w : String}
      (hh : IsProgramHead hs n es) (h : w ∉ ["BEGIN", "INSTRUCTION"]) :
    RefusesProgram hs w (.missingKeyword "BEGIN")
  | body {n : String} {hs ws : List String} {es : List (String × Statement)} {w : String}
      {k : Cause} (hh : IsProgramHead hs n es) (h : Refuses .block ws w k) :
    RefusesProgram (hs ++ "BEGIN" :: ws) w k
  | closing {n : String} {hs ws vs : List String} {es : List (String × Statement)}
      {ss : List Statement} {w : String} {k : Cause} (hh : IsProgramHead hs n es)
      (hb : IsBlock ws ss)
      (h : RefusesClosing [Token.endText, "ELSE"] n .nameMismatch vs w k) :
    RefusesProgram (hs ++ "BEGIN" :: (ws ++ vs)) w k
  | trailing {n : String} {hs ws : List String} {es : List (String × Statement)}
      {ss : List Statement} {w : String} (hh : IsProgramHead hs n es) (hb : IsBlock ws ss)
      (h : w ≠ Token.endText) :
    RefusesProgram (hs ++ "BEGIN" :: (ws ++ ["END", n])) w .trailing

/-! ### The first word of what is refused -/

section

variable {ws : List String} {w : String} {k : Cause}

/-- Inside a conditional a word is refused behind `IF` only. -/
theorem Refuses.exists_cons_if (h : Refuses .conditional ws w k) : ∃ vs, ws = "IF" :: vs := by
  cases h with
  | ifOpening h => cases h <;> exact ⟨_, rfl⟩
  | ifBody | ifClosing | elseBody | elseClosing => exact ⟨_, rfl⟩

/-- Inside a loop a word is refused behind `WHILE` only. -/
theorem Refuses.exists_cons_while (h : Refuses .loop ws w k) : ∃ vs, ws = "WHILE" :: vs := by
  cases h with
  | whileOpening h => cases h <;> exact ⟨_, rfl⟩
  | whileBody | whileClosing => exact ⟨_, rfl⟩

/-- Inside a definition a word is refused behind `INSTRUCTION` only. -/
theorem RefusesDefinition.exists_cons (h : RefusesDefinition ws w k) :
    ∃ vs, ws = "INSTRUCTION" :: vs := by
  cases h with
  | opening h => cases h <;> exact ⟨_, rfl⟩
  | body | closing => exact ⟨_, rfl⟩

/-! ### Causes -/

/-- An opening is refused for another cause than a second definition, if its word is. -/
theorem RefusesOpening.cause_ne {first second : String} {α : Type} {word : α → String}
    {P : α → Prop} {S : String → Cause → Prop} (h : RefusesOpening first second word P S ws w k)
    (hS : ∀ w k, S w k → k ≠ .definedTwice) : k ≠ .definedTwice := by
  cases h with
  | word h => exact hS w k h
  | second => simp

theorem RefusesClosing.cause_ne {enders : List String} {last : String} {cause : Cause}
    (h : RefusesClosing enders last cause ws w k) (hc : cause ≠ .definedTwice) :
    k ≠ .definedTwice := by
  cases h with
  | first => simp
  | last => exact hc

theorem Refuses.cause_ne {part : Part} (h : Refuses part ws w k) : k ≠ .definedTwice := by
  induction h with
  | start => simp
  | ofConditional _ ih | ofLoop _ ih => exact ih
  | ifBody _ _ ih | elseBody _ _ _ ih | whileBody _ _ ih => exact ih
  | head _ _ ih | tail _ _ ih => exact ih
  | ifOpening h | whileOpening h => exact h.cause_ne (by rintro _ _ ⟨⟩; simp)
  | ifClosing _ _ h | elseClosing _ _ _ h | whileClosing _ _ h => exact h.cause_ne (by simp)

theorem RefusesDefinition.cause_ne (h : RefusesDefinition ws w k) : k ≠ .definedTwice := by
  cases h with
  | opening h => exact h.cause_ne (by rintro _ _ ⟨⟩ <;> simp)
  | body _ h => exact h.cause_ne
  | closing _ _ h => exact h.cause_ne (by simp)

/-- The grammar does not know of names that are defined twice. -/
theorem RefusesProgram.cause_ne (h : RefusesProgram ws w k) : k ≠ .definedTwice := by
  cases h with
  | start | noBegin | trailing => simp
  | opening h => exact h.cause_ne (by rintro _ _ ⟨⟩; simp)
  | definition _ h => exact h.cause_ne
  | body _ h => exact h.cause_ne
  | closing _ _ h => exact h.cause_ne (by simp)

/-! ### What could stand in place of a refused word -/

/-- The word may stand where another one was refused: if a keyword is missing, it is that
    keyword. -/
def Mends (k : Cause) (v : String) : Prop := ∀ keyword, k = .missingKeyword keyword → v = keyword

theorem mends_missingKeyword (v : String) : Mends (.missingKeyword v) v := by
  intro keyword h
  exact Cause.missingKeyword.inj h

/-- Only a missing keyword asks for a certain word. -/
theorem mends_of_ne {v : String} (h : ∀ keyword, k ≠ .missingKeyword keyword) : Mends k v :=
  fun keyword hk => absurd hk (h keyword)

/-- **Openings** can be completed. -/
theorem RefusesOpening.exists_words {first second : String} {α : Type} {word : α → String}
    {P : α → Prop} {S : String → Cause → Prop} (h : RefusesOpening first second word P S ws w k)
    {a : α} (ha : P a) (hS : ∀ w k, S w k → ∀ keyword, k ≠ .missingKeyword keyword) :
    ∃ v vs b, Mends k v ∧ P b ∧ ws ++ v :: vs = [first, word b, second] := by
  cases h with
  | word h => exact ⟨word a, [second], a, mends_of_ne (hS _ _ h), ha, rfl⟩
  | @second b _ hb _ => exact ⟨second, [], b, mends_missingKeyword second, hb, rfl⟩

/-- **Closings** can be completed, if in place of the last word only that word will do. -/
theorem RefusesClosing.exists_words {enders : List String} {last : String} {cause : Cause}
    (h : RefusesClosing enders last cause ws w k) (hc : Mends cause last) :
    ∃ v vs, Mends k v ∧ ws ++ v :: vs = ["END", last] := by
  cases h with
  | first => exact ⟨"END", [last], mends_missingKeyword "END", rfl⟩
  | last => exact ⟨last, [], hc, rfl⟩

/-- **Statements and blocks.** The words in front of a refused one begin such a part, and can be
    gone on with by a word that mends the refusal. -/
theorem Refuses.exists_words {part : Part} (h : Refuses part ws w k) :
    ∃ v vs, Mends k v ∧ part.Derives (ws ++ v :: vs) := by
  -- The construct around a block can be completed whatever its block is.
  induction h with
  | start =>
    -- In place of a word that begins no statement a call may stand.
    exact ⟨"skip", [], mends_of_ne (by simp), .call "skip", .call (by decide)⟩
  | ofConditional _ ih => exact ih
  | ofLoop _ ih => exact ih
  | ifOpening h =>
    obtain ⟨v, vs, c, hv, -, e⟩ := h.exists_words (a := .random) trivial (by rintro _ _ ⟨⟩; simp)
    have hs : IsStatement (["IF", c.spelling, "THEN"] ++ ["END", "IF"])
        (.ifThen c (.block [])) := .ifThen c .nil
    rw [← e] at hs
    exact ⟨v, vs ++ ["END", "IF"], hv, _, by simpa using hs⟩
  | ifBody c _ ih =>
    obtain ⟨v, vs, hv, ss, hss⟩ := ih
    have hs := IsStatement.ifThen c hss
    exact ⟨v, vs ++ ["END", "IF"], hv, _, by simpa using hs⟩
  | ifClosing c h h' =>
    obtain ⟨v, vs, hv, e⟩ := h'.exists_words (mends_missingKeyword _)
    have hs := IsStatement.ifThen c h
    rw [← e] at hs
    exact ⟨v, vs, hv, _, by simpa using hs⟩
  | elseBody c h _ ih =>
    obtain ⟨v, vs, hv, ss, hss⟩ := ih
    have hs := IsStatement.ifElse c h hss
    exact ⟨v, vs ++ ["END", "IF"], hv, _, by simpa using hs⟩
  | elseClosing c h h' h'' =>
    -- Both branches are there, and the closing is completed to `END IF`.
    obtain ⟨v, vs, hv, e⟩ := h''.exists_words (mends_missingKeyword _)
    have hs := IsStatement.ifElse c h h'
    rw [← e] at hs
    exact ⟨v, vs, hv, _, by simpa using hs⟩
  | whileOpening h =>
    obtain ⟨v, vs, c, hv, -, e⟩ := h.exists_words (a := .random) trivial (by rintro _ _ ⟨⟩; simp)
    have hs : IsStatement (["WHILE", c.spelling, "DO"] ++ ["END", "WHILE"])
        (.whileDo c (.block [])) := .whileDo c .nil
    rw [← e] at hs
    exact ⟨v, vs ++ ["END", "WHILE"], hv, _, by simpa using hs⟩
  | whileBody c _ ih =>
    obtain ⟨v, vs, hv, ss, hss⟩ := ih
    have hs := IsStatement.whileDo c hss
    exact ⟨v, vs ++ ["END", "WHILE"], hv, _, by simpa using hs⟩
  | whileClosing c h h' =>
    obtain ⟨v, vs, hv, e⟩ := h'.exists_words (mends_missingKeyword _)
    have hs := IsStatement.whileDo c h
    rw [← e] at hs
    exact ⟨v, vs, hv, _, by simpa using hs⟩
  | head _ _ ih =>
    obtain ⟨v, vs, hv, s, hs⟩ := ih
    have hb := IsBlock.cons hs .nil
    rw [List.append_nil] at hb
    exact ⟨v, vs, hv, [s], hb⟩
  | tail h _ ih =>
    obtain ⟨v, vs, hv, ss, hss⟩ := ih
    have hb := IsBlock.cons h hss
    exact ⟨v, vs, hv, _, by rwa [List.append_assoc]⟩

/-- **Statements in a row.** The words in front of a refused one begin some, and so do these words
    and the keyword that is missing. -/
theorem RefusesStatements.viable (h : RefusesStatements ws w k) :
    ViableBlock ws ∧ ∀ keyword, k = .missingKeyword keyword → ViableBlock (ws ++ [keyword]) := by
  cases h with
  | inside h =>
    obtain ⟨v, vs, hv, ss, hss⟩ := h.exists_words
    refine ⟨⟨v :: vs, ss, hss⟩, fun keyword hk => ⟨vs, ss, ?_⟩⟩
    rwa [← hv keyword hk, List.append_assoc, List.singleton_append]
  | @trailing ss h _ => exact ⟨⟨[], ss, by rwa [List.append_nil]⟩, by simp⟩

/-- **Definitions.** The words in front of a refused one begin a definition. -/
theorem RefusesDefinition.exists_words (h : RefusesDefinition ws w k) :
    ∃ v vs e, Mends k v ∧ IsDefinitions (ws ++ v :: vs) [e] := by
  cases h with
  | opening h =>
    -- A name that may not be defined is refused without asking for a keyword.
    have hcause : ∀ w k, RefusesName w k → ∀ keyword, k ≠ .missingKeyword keyword := by
      intro w k hw keyword
      cases hw <;> simp
    have hnew : IsNewName "go" := ⟨by decide, by decide⟩
    obtain ⟨v, vs, n, hv, hn, e⟩ := h.exists_words hnew hcause
    have hd : IsDefinitions (["INSTRUCTION", id n, "IS"] ++ ["END", n]) [(n, .block [])] :=
      .cons hn.1 hn.2 .nil .nil
    rw [← e] at hd
    exact ⟨v, vs ++ ["END", n], _, hv, by simpa using hd⟩
  | @body n _ _ _ hn h =>
    obtain ⟨v, vs, hv, ss, hss⟩ := h.exists_words
    have hd := IsDefinitions.cons hn.1 hn.2 hss .nil
    exact ⟨v, vs ++ ["END", n], _, hv, by simpa using hd⟩
  | closing hn h h' =>
    obtain ⟨v, vs, hv, e⟩ := h'.exists_words (mends_of_ne (by simp))
    have hd := IsDefinitions.cons hn.1 hn.2 h .nil
    rw [← e] at hd
    exact ⟨v, vs, _, hv, by simpa using hd⟩

/-- Definitions behind definitions. -/
theorem IsDefinitions.append {ds vs : List String} {es fs : List (String × Statement)}
    (h : IsDefinitions ds es) (h' : IsDefinitions vs fs) :
    IsDefinitions (ds ++ vs) (es ++ fs) := by
  induction h with
  | nil => exact h'
  | cons hi hp hb _ ih =>
    have hd := IsDefinitions.cons hi hp hb ih
    simpa using hd

/-- Behind the opening of a program there may be more definitions, and then its body. -/
theorem IsProgramHead.sentence {hs ds : List String} {n : String}
    {es fs : List (String × Statement)} {ss : List Statement} (hh : IsProgramHead hs n es)
    (hd : IsDefinitions ds fs) (hb : IsBlock ws ss) :
    Sentence (hs ++ (ds ++ "BEGIN" :: (ws ++ ["END", n]))) := by
  obtain ⟨hn, hd', -⟩ := hh
  have hp := IsProgramOf.mk hn (hd'.append hd) hb
  exact ⟨n, es ++ fs, .block ss, by simpa using hp⟩

theorem viable_of_sentence {v : String} {vs : List String} (hv : Mends k v)
    (h : Sentence (ws ++ v :: vs)) :
    Viable ws ∧ ∀ keyword, k = .missingKeyword keyword → Viable (ws ++ [keyword]) := by
  refine ⟨⟨v :: vs, h⟩, fun keyword hk => ⟨vs, ?_⟩⟩
  rw [← hv keyword hk, List.append_assoc, List.singleton_append]
  exact h

/-- **Programs.** The words in front of a refused one begin a program, and so do these words and the
    keyword that is missing. -/
theorem RefusesProgram.viable (h : RefusesProgram ws w k) :
    Viable ws ∧ ∀ keyword, k = .missingKeyword keyword → Viable (ws ++ [keyword]) := by
  -- What follows the opening of the shortest program, and of a program with the name `P`.
  have hshort : ∀ n, Word.isIdentifier n = true →
      Sentence (["PROGRAM", id n, "IS"] ++ ["BEGIN", "END", n]) :=
    fun n hn => ⟨n, [], _, .mk hn .nil .nil⟩
  cases h with
  | start => exact viable_of_sentence (mends_missingKeyword _) (hshort "P" (by decide))
  | opening h =>
    obtain ⟨v, vs, n, hv, hn, e⟩ := h.exists_words (a := "P") (by decide) (by rintro _ _ ⟨⟩; simp)
    have hs := hshort n hn
    rw [← e] at hs
    exact viable_of_sentence hv (by simpa using hs)
  | definition hh h =>
    obtain ⟨v, vs, e, hv, hd⟩ := h.exists_words
    have hs := hh.sentence hd .nil
    exact viable_of_sentence hv (by simpa using hs)
  | noBegin hh h =>
    have hs := hh.sentence .nil .nil
    exact viable_of_sentence (mends_missingKeyword _) (by simpa using hs)
  | body hh h =>
    obtain ⟨v, vs, hv, ss, hss⟩ := h.exists_words
    have hs := hh.sentence .nil hss
    exact viable_of_sentence hv (by simpa using hs)
  | closing hh hb h =>
    -- In place of another last word only the name of the program will do, which is no keyword.
    obtain ⟨v, vs, hv, e⟩ := h.exists_words (mends_of_ne (by simp))
    have hs := hh.sentence .nil hb
    rw [← e] at hs
    exact viable_of_sentence hv (by simpa using hs)
  | trailing hh hb h =>
    have hs := hh.sentence .nil hb
    exact ⟨⟨[], by simpa using hs⟩, by simp⟩

end

end BL.Grammar
