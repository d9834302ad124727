import BL.Proofs.Reading.Failure
import BL.Proofs.Reading.Program

namespace BL

open Grammar TokenQueue

/-!
# Reading a program fails where the grammar refuses a word

Like statements, programs are read up to the first token that the grammar refuses.  There is one
more reason to stop, which no grammar of this kind knows: a name is defined a second time.

* `TokenQueue.Redefines`, `TokenQueue.StopsDefinitions`, `TokenQueue.RepeatsName` — a definition
  that repeats a name, and where definitions stop for this or another reason;
* `Reader.instruction_fails_iff`, `Reader.definitions_succ_fails_iff`,
  `Reader.definitions_fails_iff` — one definition, one step of reading definitions, and all of them;
* `Reader.programParts_fails_iff`, `Reader.program_fails_iff` — when reading a program fails, and
  with which fault.
-/

namespace TokenQueue

variable {q r m : TokenQueue} {f : Fault}

/-! ### Where definitions stop -/

/-- What a definition can be refused for: its opening, its block, its closing. -/
theorem stopsWith_definition_iff :
    q.StopsWith RefusesDefinition f ↔
      q.StopsWith (RefusesOpening "INSTRUCTION" "IS" id IsNewName RefusesName) f ∨
      ∃ n m, IsNewName n ∧ q.Gives ["INSTRUCTION", n, "IS"] m ∧
        (m.StopsWith (Refuses .block) f ∨ ∃ ss m', m.GivesBlock ss m' ∧
          m'.StopsWith (RefusesClosing [Token.endText, "ELSE"] n .nameMismatch) f) := by
  constructor
  · rintro ⟨_, r, k, hg, hs, rfl⟩
    cases hs with
    | opening h => exact .inl ⟨_, r, k, hg, h, rfl⟩
    | body hn h =>
      obtain ⟨m, hm, hg⟩ := gives_opening_iff.1 hg
      exact .inr ⟨_, m, hn, hm, .inl ⟨_, r, k, hg, h, rfl⟩⟩
    | @closing _ ws _ _ _ ss hn hss h =>
      obtain ⟨m, hm, hg⟩ := gives_opening_iff.1 hg
      obtain ⟨m', hws, hg⟩ := gives_append_iff.1 hg
      exact .inr ⟨_, m, hn, hm, .inr ⟨ss, m', ⟨ws, hws, hss⟩, ⟨_, r, k, hg, h, rfl⟩⟩⟩
  · rintro (⟨_, r, k, hg, h, rfl⟩ | ⟨n, m, hn, hm, h | ⟨ss, m', ⟨ws, hws, hss⟩, h⟩⟩)
    · exact ⟨_, r, k, hg, .opening h, rfl⟩
    · exact hm.stopsWith h fun _ _ _ h => .body hn h
    · refine (hm.append hws).stopsWith h fun _ _ _ h => ?_
      have hr := RefusesDefinition.closing hn hss h
      simpa using hr

/-- A definition is refused only where its keyword stands. -/
theorem StopsWith.front_of_definition (h : q.StopsWith RefusesDefinition f) :
    q.front.text = "INSTRUCTION" := by
  obtain ⟨_, r, k, hg, hs, -⟩ := h
  obtain ⟨vs, rfl⟩ := hs.exists_cons
  exact hg.front_text

/-- The queue begins with a definition of one of the names; the fault is at its first token. -/
def Redefines (names : List String) (q : TokenQueue) (f : Fault) : Prop :=
  ∃ n b r, q.GivesDefinition n b r ∧ n ∈ names ∧ f = .rejected ⟨.definedTwice, q.front⟩

/-- Neither the body of a program begins here nor another definition, unless one of the names is
    defined again. -/
def StopsDefinitions (names : List String) (q : TokenQueue) (f : Fault) : Prop :=
  (q.front.text ∉ ["BEGIN", "INSTRUCTION"] ∧
      f = .rejected ⟨.missingKeyword "BEGIN", q.front⟩) ∨
    q.StopsWith RefusesDefinition f ∨ q.Redefines names f

/-- Definitions stop in front of `BEGIN` only if the program goes on. -/
theorem StopsDefinitions.front_ne {names : List String} (h : q.StopsDefinitions names f) :
    q.front.text ≠ "BEGIN" := by
  intro hbegin
  rcases h with ⟨hne, -⟩ | hs | ⟨n, b, r, hdef, -, -⟩
  · exact hne (hbegin ▸ List.mem_cons_self)
  · exact absurd (hbegin.symm.trans hs.front_of_definition) (by decide)
  · exact absurd (hbegin.symm.trans hdef.front_text) (by decide)

/-! ### Where programs stop -/

/-- The queue begins with a program up to some definition with the name of an earlier one. -/
def RepeatsName (q : TokenQueue) (f : Fault) : Prop :=
  ∃ n es m l, Word.isIdentifier n = true ∧ q.Gives ["PROGRAM", n, "IS"] m ∧
    m.GivesDefinitions es l ∧ (es.map Prod.fst).Nodup ∧ l.Redefines (es.map Prod.fst) f

/-- What a program can be refused for behind its definitions: its body, the closing, what comes
    behind. -/
def StopsBody (n : String) (q : TokenQueue) (f : Fault) : Prop :=
  q.StopsWith (Refuses .block) f ∨ ∃ ss m, q.GivesBlock ss m ∧
    (m.StopsWith (RefusesClosing [Token.endText, "ELSE"] n .nameMismatch) f ∨
      ∃ r, m.Gives ["END", n] r ∧ r.front.text ≠ Token.endText ∧
        f = .rejected ⟨.trailing, r.front⟩)

/-- What a program can be refused for: its opening, its definitions, its body. -/
theorem stopsWith_program_iff :
    q.StopsWith RefusesProgram f ∨ q.RepeatsName f ↔
      (q.front.text ≠ "PROGRAM" ∧ f = .rejected ⟨.missingKeyword "PROGRAM", q.front⟩) ∨
      q.StopsWith (RefusesOpening "PROGRAM" "IS" id (Word.isIdentifier · = true)
        RefusesIdentifier) f ∨
      ∃ n m es l, Word.isIdentifier n = true ∧ q.Gives ["PROGRAM", n, "IS"] m ∧
        m.GivesDefinitions es l ∧ (es.map Prod.fst).Nodup ∧
        (l.StopsDefinitions (es.map Prod.fst) f ∨ ∃ l', l.Gives ["BEGIN"] l' ∧
          l'.StopsBody n f) := by
  constructor
  · rintro (⟨ws, r, k, hg, hs, rfl⟩ | ⟨n, es, m, l, hn, hm, hl, hd, h⟩)
    · -- The opening and the definitions that every later refusal has in front of it.
      have hhead : ∀ {hs vs : List String} {n : String} {es : List (String × Statement)},
          q.Gives (hs ++ vs) r → IsProgramHead hs n es → ∃ m l, Word.isIdentifier n = true ∧
            q.Gives ["PROGRAM", n, "IS"] m ∧ m.GivesDefinitions es l ∧
            (es.map Prod.fst).Nodup ∧ l.Gives vs r := by
        rintro _ vs n es hg ⟨hn, hds, hd⟩
        obtain ⟨m, hm, hg⟩ := gives_opening_iff.1 hg
        obtain ⟨l, hl, hg⟩ := gives_append_iff.1 hg
        exact ⟨m, l, hn, hm, ⟨_, hl, hds⟩, hd, hg⟩
      cases hs with
      | start h =>
        obtain rfl := gives_nil_iff.1 hg
        exact .inl ⟨h, rfl⟩
      | opening h => exact .inr (.inl ⟨_, r, k, hg, h, rfl⟩)
      | definition hh h =>
        obtain ⟨m, l, hn, hm, hl, hd, hg⟩ := hhead hg hh
        exact .inr (.inr ⟨_, m, _, l, hn, hm, hl, hd, .inl (.inr (.inl ⟨_, r, k, hg, h, rfl⟩))⟩)
      | noBegin hh h =>
        rw [← List.append_nil ws] at hg
        obtain ⟨m, l, hn, hm, hl, hd, hg⟩ := hhead hg hh
        obtain rfl := gives_nil_iff.1 hg
        exact .inr (.inr ⟨_, m, _, r, hn, hm, hl, hd, .inl (.inl ⟨h, rfl⟩)⟩)
      | body hh h =>
        obtain ⟨m, l, hn, hm, hl, hd, hg⟩ := hhead hg hh
        obtain ⟨l', hl', hg⟩ := gives_cons_iff.1 hg
        exact .inr (.inr ⟨_, m, _, l, hn, hm, hl, hd, .inr ⟨l', hl', .inl ⟨_, r, k, hg, h, rfl⟩⟩⟩)
      | @closing _ _ ws _ _ ss _ _ hh hb h =>
        obtain ⟨m, l, hn, hm, hl, hd, hg⟩ := hhead hg hh
        obtain ⟨l', hl', hg⟩ := gives_cons_iff.1 hg
        obtain ⟨k', hk', hg⟩ := gives_append_iff.1 hg
        exact .inr (.inr ⟨_, m, _, l, hn, hm, hl, hd, .inr ⟨l', hl',
          .inr ⟨ss, k', ⟨ws, hk', hb⟩, .inl ⟨_, r, k, hg, h, rfl⟩⟩⟩⟩)
      | @trailing _ _ ws _ ss _ hh hb h =>
        obtain ⟨m, l, hn, hm, hl, hd, hg⟩ := hhead hg hh
        obtain ⟨l', hl', hg⟩ := gives_cons_iff.1 hg
        obtain ⟨k', hk', hg⟩ := gives_append_iff.1 hg
        exact .inr (.inr ⟨_, m, _, l, hn, hm, hl, hd, .inr ⟨l', hl',
          .inr ⟨ss, k', ⟨ws, hk', hb⟩, .inr ⟨r, hg, h, rfl⟩⟩⟩⟩)
    · exact .inr (.inr ⟨n, m, es, l, hn, hm, hl, hd, .inl (.inr (.inr h))⟩)
  · rintro (⟨h, rfl⟩ | ⟨_, r, k, hg, h, rfl⟩ | ⟨n, m, es, l, hn, hm, ⟨ds, hl, hds⟩, hd, h⟩)
    · exact .inl ⟨[], q, _, gives_nil_iff.2 rfl, .start h, rfl⟩
    · exact .inl ⟨_, r, k, hg, .opening h, rfl⟩
    · have hh : IsProgramHead _ n es := .mk hn hds hd
      have hg := hm.append hl
      rcases h with (⟨h, rfl⟩ | h | h) | ⟨l', hl', h | ⟨ss, k', ⟨ws, hk', hb⟩, h |
        ⟨r, hr, h, rfl⟩⟩⟩
      · exact .inl ⟨_, l, _, hg, .noBegin hh h, rfl⟩
      · exact .inl (hg.stopsWith h fun _ _ _ h => .definition hh h)
      · exact .inr ⟨n, es, m, l, hn, hm, ⟨ds, hl, hds⟩, hd, h⟩
      · refine .inl ((hg.append hl').stopsWith h fun _ _ _ h => ?_)
        have hr := RefusesProgram.body hh h
        simpa using hr
      · refine .inl ((hg.append (hl'.append hk')).stopsWith h fun _ _ _ h => ?_)
        have hr := RefusesProgram.closing hh hb h
        simpa using hr
      · refine .inl ⟨_, r, _, hg.append (hl'.append (hk'.append hr)), ?_, rfl⟩
        have hr := RefusesProgram.trailing hh hb h
        simpa using hr

end TokenQueue

namespace Reader

variable {τ α : Type} {q : TokenQueue} {s : τ} {f : Fault} {n : String} {c : Context}

/-! ### Names -/

/-- A word that may not be defined is refused, for the first of four causes that holds. -/
theorem refusesWord_definedName : RefusesWord (definedName : Reader τ String) RefusesName := by
  intro q s f
  rw [definedName, next_bind_fails_iff]
  unfold reject
  simp only [stop_fails_iff, not_pure_fails, and_false, or_false]
  constructor
  · rintro (⟨hk, rfl⟩ | ⟨hk, ⟨hc, rfl⟩ | ⟨hc, ⟨hi, rfl⟩ | ⟨hi, hp, rfl⟩⟩⟩)
    · exact ⟨_, .keyword hk, rfl⟩
    · exact ⟨_, .condition (by simpa using hk) hc, rfl⟩
    · exact ⟨_, .noIdentifier (by simpa using hk) (by simpa using hc) (by simpa using hi), rfl⟩
    · exact ⟨_, .primitive (by simpa using hi) hp, rfl⟩
  · rintro ⟨k, h, rfl⟩
    cases h with
    | keyword hk => exact .inl ⟨hk, rfl⟩
    | condition hk hc => exact .inr ⟨by simp [hk], .inl ⟨hc, rfl⟩⟩
    | noIdentifier hk hc hi =>
      exact .inr ⟨by simp [hk], .inr ⟨by simp [hc], .inl ⟨by simp [hi], rfl⟩⟩⟩
    | primitive hi hp =>
      obtain ⟨hk, hc⟩ := Word.not_reserved_of_isIdentifier hi
      exact .inr ⟨by simp [hk], .inr ⟨by simp [hc], .inr ⟨by simp [hi], hp, rfl⟩⟩⟩

/-- Every other name than the one at the beginning is refused at the end. -/
theorem refusesWord_closing (n : String) :
    RefusesWord (closing n : Reader τ Unit) fun w c => w ≠ n ∧ c = .nameMismatch :=
  refusesWord_next (c := fun t => t.text = n) (g := fun _ => ()) fun _ _ => Iff.rfl

/-- The keyword at the end and the name behind it. -/
theorem end_closing_fails_iff (hn : n ≠ Token.endText) (hq : endsBlock q.front = true)
    {g : Unit → Reader τ α} :
    Fails (expect "END" >>= fun _ => closing n >>= g) ⟨q, s⟩ f ↔
      q.StopsWith (RefusesClosing [Token.endText, "ELSE"] n .nameMismatch) f ∨
        ∃ m, q.Gives ["END", n] m ∧ Fails (g ()) ⟨m, s⟩ f := by
  rw [(refusesWord_closing n).closing_fails_iff (endsBlock_iff_end.1 hq) (by decide)]
  refine or_congr_right ?_
  simp only [closing_eq_ok_iff hn]
  constructor
  · rintro ⟨m, _, l, _, hm, ⟨hl, rfl⟩, h⟩
    exact ⟨l, hm.cons hl, h⟩
  · rintro ⟨l, hg, h⟩
    obtain ⟨m, hm, hl⟩ := gives_cons_iff.1 hg
    exact ⟨m, (), l, s, hm, ⟨hl, rfl⟩, h⟩

/-! ### Definitions -/

/-- The body of a definition or a program. -/
theorem newBlock_allItems_bind_fails_iff {g : Statement → Reader τ α} :
    Fails (newBlock allItems >>= g) ⟨q, s⟩ f ↔
      q.StopsWith (Refuses .block) f ∨ ∃ ss m, q.GivesBlock ss m ∧ endsBlock m.front = true ∧
        Fails (g (.block ss)) ⟨m, s⟩ f :=
  (refusesItems_allItems q.size).newBlock_bind_fails_iff (readsItems_allItems q.size)
    (Nat.le_refl _)

/-- **Reading a definition** fails exactly where the grammar refuses a word, once the keyword is
    there. -/
theorem instruction_fails_iff {t : Statement} (hq : q.front.text = "INSTRUCTION") :
    Fails instruction ⟨q, t⟩ f ↔ q.StopsWith RefusesDefinition f := by
  have hopen : Fails instructionOpening ⟨q, t⟩ f ↔
      q.StopsWith (RefusesOpening "INSTRUCTION" "IS" id IsNewName RefusesName) f :=
    takesWord_definedName.opening_fails_iff refusesWord_definedName (by decide) hq
  rw [instruction, bind_fails_iff, hopen, stopsWith_definition_iff]
  refine or_congr_right ?_
  simp only [instructionOpening_eq_ok_iff, bind_fails_iff (x := block), block_fails_iff,
    block_eq_ok_iff]
  constructor
  · rintro ⟨n, m, _, ⟨hi, hp, hm, rfl⟩, hs | ⟨_, m', _, ⟨ss, hss, he, rfl⟩, h⟩⟩
    · exact ⟨n, m, ⟨hi, hp⟩, hm, .inl hs⟩
    · have hs := (end_closing_fails_iff (ne_endText_of_isIdentifier hi) he).1 h
      simp only [not_pure_fails, and_false, exists_false, or_false] at hs
      exact ⟨n, m, ⟨hi, hp⟩, hm, .inr ⟨ss, m', hss, hs⟩⟩
  · rintro ⟨n, m, ⟨hi, hp⟩, hm, hs | ⟨ss, m', hss, hs⟩⟩
    · exact ⟨n, m, t, ⟨hi, hp, hm, rfl⟩, .inl hs⟩
    · have he := endsBlock_iff_end.2 hs.front_of_closing
      exact ⟨n, m, t, ⟨hi, hp, hm, rfl⟩, .inr ⟨(), m', _, ⟨ss, hss, he, rfl⟩,
        (end_closing_fails_iff (ne_endText_of_isIdentifier hi) he).2 (.inl hs)⟩⟩

/-- One step of reading definitions fails where no definition can stand, or behind a definition of a
    new name. -/
theorem definitions_succ_fails_iff {k : Nat} :
    Fails (definitions (k + 1) c) ⟨q, s⟩ f ↔
      q.StopsDefinitions c.names f ∨ ∃ n b m, q.GivesDefinition n b m ∧ n ∉ c.names ∧
        Fails (definitions k (c.insert n b)) ⟨m, s⟩ f := by
  rw [definitions, peek_bind_fails_iff]
  by_cases hbegin : q.front.text = "BEGIN"
  · rw [if_pos hbegin]
    simp only [not_pure_fails, false_iff]
    rintro (h | ⟨n, b, m, hdef, -, -⟩)
    · exact h.front_ne hbegin
    · exact absurd (hbegin.symm.trans hdef.front_text) (by decide)
  rw [if_neg hbegin]
  by_cases hopen : q.front.text = "INSTRUCTION"
  · rw [if_pos hopen, bind_fails_iff, fresh_fails_iff, instruction_fails_iff hopen]
    simp only [reject]
    constructor
    · rintro (h | ⟨⟨n, b⟩, m, _, hf, h⟩)
      · exact .inl (.inr (.inl h))
      obtain ⟨hi, rfl⟩ := fresh_eq_ok_iff.1 hf
      have hdef := instruction_eq_ok_iff.1 hi
      rcases stop_fails_iff.1 h with ⟨hc, rfl⟩ | ⟨hc, h⟩
      · exact .inl (.inr (.inr ⟨n, b, m, hdef, Table.contains_eq_true_iff.1 hc, rfl⟩))
      · exact .inr ⟨n, b, m, hdef, fun hn => hc (Table.contains_eq_true_iff.2 hn), h⟩
    · have hread : ∀ {n b m}, q.GivesDefinition n b m →
          fresh .empty instruction ⟨q, s⟩ = .ok (n, b) ⟨m, s⟩ :=
        fun hdef => fresh_eq_ok_iff.2 ⟨instruction_eq_ok_iff.2 hdef, rfl⟩
      rintro ((⟨hne, -⟩ | h | ⟨n, b, m, hdef, hn, rfl⟩) | ⟨n, b, m, hdef, hn, h⟩)
      · exact absurd (hopen ▸ by simp) hne
      · exact .inl h
      · exact .inr ⟨(n, b), m, s, hread hdef,
          stop_fails_iff.2 (.inl ⟨Table.contains_eq_true_iff.2 hn, rfl⟩)⟩
      · exact .inr ⟨(n, b), m, s, hread hdef,
          stop_fails_iff.2 (.inr ⟨fun hc => hn (Table.contains_eq_true_iff.1 hc), h⟩)⟩
  · rw [if_neg hopen, reject, throw_fails_iff]
    constructor
    · rintro rfl
      exact .inl (.inl ⟨by simp [hbegin, hopen], rfl⟩)
    · rintro ((⟨-, rfl⟩ | h | ⟨n, b, m, hdef, -, -⟩) | ⟨n, b, m, hdef, -, -⟩)
      · rfl
      · exact absurd h.front_of_definition hopen
      · exact absurd hdef.front_text hopen
      · exact absurd hdef.front_text hopen

/-- **Definitions** fail behind some definitions of new names, where the next one is refused or
    repeats a name. -/
theorem definitions_fails_iff (k : Nat) (hq : q.size ≤ k) :
    Fails (definitions k c) ⟨q, s⟩ f ↔
      ∃ es m, q.GivesDefinitions es m ∧ (c.names ++ es.map Prod.fst).Nodup ∧
        m.StopsDefinitions (c.names ++ es.map Prod.fst) f := by
  induction k generalizing q c with
  | zero => exact absurd hq (by simp [TokenQueue.size])
  | succ k ih =>
    -- The names of the table with a new entry are the names before it and the new one.
    have hnames : ∀ {n b} {es : List (String × Statement)}, n ∉ c.names →
        (c.insert n b).names ++ es.map Prod.fst = c.names ++ ((n, b) :: es).map Prod.fst := by
      intro n b es hn
      rw [Table.names_insert, if_neg hn, List.append_assoc, List.map_cons, List.singleton_append]
    rw [definitions_succ_fails_iff]
    constructor
    · rintro (h | ⟨n, b, m, hdef, hn, h⟩)
      · refine ⟨[], q, givesDefinitions_nil_iff.2 rfl, ?_, ?_⟩
        · rw [List.map_nil, List.append_nil]
          exact c.distinct
        · rwa [List.map_nil, List.append_nil]
      · have hm := hdef.size_lt
        obtain ⟨es, l, hes, hd, h⟩ := (ih (by omega)).1 h
        rw [hnames hn] at hd h
        exact ⟨(n, b) :: es, l, givesDefinitions_cons_iff.2 ⟨m, hdef, hes⟩, hd, h⟩
    · rintro ⟨es, l, hes, hd, h⟩
      cases es with
      | nil =>
        obtain rfl := givesDefinitions_nil_iff.1 hes
        rw [List.map_nil, List.append_nil] at h
        exact .inl h
      | cons e es =>
        obtain ⟨n, b⟩ := e
        obtain ⟨m, hdef, hes⟩ := givesDefinitions_cons_iff.1 hes
        have hm := hdef.size_lt
        have hn : n ∉ c.names := by
          intro hn
          rw [List.map_cons, List.nodup_append] at hd
          exact hd.2.2 n hn n List.mem_cons_self rfl
        rw [← hnames hn (b := b)] at hd h
        exact .inr ⟨n, b, m, hdef, hn, (ih (by omega)).2 ⟨es, l, hes, hd, h⟩⟩

/-- All definitions of a program, from an empty table on. -/
theorem allDefinitions_fails_iff :
    Fails allDefinitions ⟨q, s⟩ f ↔ ∃ es m, q.GivesDefinitions es m ∧
      (es.map Prod.fst).Nodup ∧ m.StopsDefinitions (es.map Prod.fst) f :=
  definitions_fails_iff (c := .empty) q.size (Nat.le_refl _)

/-! ### Programs -/

/-- The opening of a program fails at its keyword, or as every opening does. -/
theorem programOpening_fails_iff :
    Fails programOpening ⟨q, s⟩ f ↔
      (q.front.text ≠ "PROGRAM" ∧ f = .rejected ⟨.missingKeyword "PROGRAM", q.front⟩) ∨
        q.StopsWith (RefusesOpening "PROGRAM" "IS" id (Word.isIdentifier · = true)
          RefusesIdentifier) f := by
  have hk : "PROGRAM" ≠ Token.endText := by decide
  rw [programOpening, bind_fails_iff, expect_fails_iff]
  refine or_congr_right ?_
  simp only [expect_eq_ok_iff hk, bind_fails_iff (x := identifier), refusesWord_identifier.iff,
    identifier_eq_ok_iff, bind_fails_iff (x := expect "IS"), expect_fails_iff, not_pure_fails,
    and_false, exists_false, or_false]
  constructor
  · rintro ⟨_, m, _, ⟨hm, -, rfl⟩, ⟨k, h, rfl⟩ | ⟨t, l, _, ⟨hi, hl, -, rfl⟩, hne, rfl⟩⟩
    · exact ⟨_, m, k, hm, .word h, rfl⟩
    · exact ⟨_, l, _, hm.cons hl, .second hi hne, rfl⟩
  · rintro ⟨_, r, k, hg, h, rfl⟩
    cases h with
    | word h => exact ⟨_, r, s, ⟨hg, rfl, rfl⟩, .inl ⟨k, h, rfl⟩⟩
    | second hi hne =>
      obtain ⟨m, hm, hl⟩ := gives_cons_iff.1 hg
      obtain rfl := hl.front_text
      exact ⟨_, m, s, ⟨hm, rfl, rfl⟩, .inr ⟨m.front, r, s, ⟨hi, hl, rfl, rfl⟩, hne, rfl⟩⟩

/-- The body of a program fails in its block, in the closing, or because the input goes on. -/
theorem body_fails_iff {a : Statement → α} (hn : n ≠ Token.endText) (hq : q.front.text = "BEGIN") :
    Fails (do let _ ← expect "BEGIN"
              let body ← newBlock allItems
              let _ ← expect "END"
              closing n
              ending
              return a body : Reader τ α) ⟨q, s⟩ f ↔
      ∃ l, q.Gives ["BEGIN"] l ∧ l.StopsBody n f := by
  have hbegin : q.Gives ["BEGIN"] q.rest := (gives_singleton_iff (by decide)).2 ⟨hq, rfl⟩
  have hend : ∀ {m : TokenQueue} {b : α},
      Fails (ending >>= fun _ => pure b : Reader τ α) ⟨m, s⟩ f ↔
        m.front.text ≠ Token.endText ∧ f = .rejected ⟨.trailing, m.front⟩ := by
    intro m b
    rw [bind_fails_iff, ending, peek_bind_fails_iff, reject, check_fails_iff]
    simp [Token.isEnd]
  rw [Fails, bind_eq, expect_eq, if_pos hq]
  constructor
  · intro h
    refine ⟨q.rest, hbegin, ?_⟩
    -- The body, the closing, and the end of the input, in the order in which they are read.
    rcases newBlock_allItems_bind_fails_iff.1 h with hs | ⟨ss, m, hss, he, h⟩
    · exact .inl hs
    rcases (end_closing_fails_iff hn he).1 h with hs | ⟨r, hr, h⟩
    · exact .inr ⟨ss, m, hss, .inl hs⟩
    · exact .inr ⟨ss, m, hss, .inr ⟨r, hr, hend.1 h⟩⟩
  · rintro ⟨l, hl, h⟩
    obtain ⟨-, rfl⟩ := (gives_singleton_iff (by decide)).1 hl
    refine newBlock_allItems_bind_fails_iff.2 (h.imp_right ?_)
    rintro ⟨ss, m, hss, hs | ⟨r, hr, h⟩⟩
    · have he := endsBlock_iff_end.2 hs.front_of_closing
      exact ⟨ss, m, hss, he, (end_closing_fails_iff hn he).2 (.inl hs)⟩
    · have he := hr.endsBlock_of_end
      exact ⟨ss, m, hss, he, (end_closing_fails_iff hn he).2 (.inr ⟨r, hr, hend.2 h⟩)⟩

/-- **Reading the parts of a program** fails exactly where the grammar refuses a word or a name is
    defined again. -/
theorem programParts_fails_iff :
    Fails programParts ⟨q, s⟩ f ↔ q.StopsWith RefusesProgram f ∨ q.RepeatsName f := by
  rw [stopsWith_program_iff, programParts, bind_fails_iff, programOpening_fails_iff, or_assoc]
  refine or_congr_right (or_congr_right ?_)
  simp only [programOpening_eq_ok_iff, bind_fails_iff (x := allDefinitions),
    allDefinitions_fails_iff, allDefinitions_eq_ok_iff]
  constructor
  · rintro ⟨n, m, _, ⟨hn, hm, rfl⟩, ⟨es, l, hes, hd, h⟩ | ⟨c, l, _, ⟨hc, hl, rfl⟩, h⟩⟩
    · exact ⟨n, m, es, l, hn, hm, hes, hd, .inl h⟩
    · exact ⟨n, m, c.entries, l, hn, hm, hc, c.distinct,
        .inr ((body_fails_iff (ne_endText_of_isIdentifier hn) hl).1 h)⟩
  · rintro ⟨n, m, es, l, hn, hm, hes, hd, h | ⟨l', hl', h⟩⟩
    · exact ⟨n, m, s, ⟨hn, hm, rfl⟩, .inl ⟨es, l, hes, hd, h⟩⟩
    · have hl := hl'.front_text
      exact ⟨n, m, s, ⟨hn, hm, rfl⟩, .inr ⟨⟨es, hd⟩, l, s, ⟨hes, hl, rfl⟩,
        (body_fails_iff (ne_endText_of_isIdentifier hn) hl).2 ⟨l', hl', h⟩⟩⟩

/-- **Reading a program** fails as reading its parts does: writing them never fails. -/
theorem program_fails_iff {p : Program} :
    Fails program ⟨q, p⟩ f ↔ q.StopsWith RefusesProgram f ∨ q.RepeatsName f := by
  rw [program_eq_bind, bind_fails_iff, programParts_fails_iff, or_iff_left_iff_imp]
  rintro ⟨parts, m, _, hparts, h⟩
  exact absurd h (not_fails_of_eq_ok (writeParts_eq_of_gives (programParts_eq_ok_iff.1 hparts).1))

end Reader

/-- **Sources that hold no program** are refused at some token, or define a name twice. -/
theorem Program.ofSource_eq_error_iff {source : String} {f : Fault} :
    Program.ofSource source = .error f ↔
      (TokenQueue.ofSource source).StopsWith RefusesProgram f ∨
        (TokenQueue.ofSource source).RepeatsName f := by
  rw [Program.ofSource, Reader.result_eq_error_iff, Reader.program_fails_iff]

end BL
