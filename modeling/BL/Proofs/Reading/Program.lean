import BL.Proofs.Reading.Statement

namespace BL

open Grammar TokenQueue

/-!
# Reading programs recognises the grammar

A definition is read exactly if the queue begins with one, and a program exactly if the queue holds
the words of one and nothing more.  The table of definitions admits each name once, and this is the
only thing that the grammar does not ask for:

* `Table.entries_insert_of_notMem` — a new name goes behind the others;
* `TokenQueue.GivesDefinition`, `TokenQueue.GivesDefinitions`, `TokenQueue.GivesProgram` — the queue
  begins with such words;
* `Reader.definitions_succ_eq_ok_iff`, `Reader.definitions_eq_ok_iff` — one step of reading
  definitions, and all of them;
* `Reader.instruction_eq_ok_iff`, `Reader.program_eq_ok_iff` — when these readers succeed, and what
  they leave;
* `Reader.programParts`, `Reader.writeParts`, `Reader.program_eq_bind` — a program is read as a
  whole before any of it is written;
* `Program.ofSource_eq_ok_iff` — the sources of programs.
-/

/-! ### Names in a table -/

namespace Table

variable {α : Type} {t : Table α} {name : String}

/-- A table contains a name exactly if the name is among its names. -/
theorem contains_eq_true_iff : t.contains name = true ↔ name ∈ t.names := by
  rw [contains, Option.isSome_iff_exists, names, List.mem_map]
  simp only [find?_eq_some_iff]
  constructor
  · rintro ⟨v, hv⟩
    exact ⟨(name, v), hv, rfl⟩
  · rintro ⟨⟨_, v⟩, hv, rfl⟩
    exact ⟨v, hv⟩

/-- A value under a new name goes behind all entries. -/
theorem entries_insert_of_notMem {v : α} (h : name ∉ t.names) :
    (t.insert name v).entries = t.entries ++ [(name, v)] := by
  show insertEntry name v t.entries = _
  rw [names] at h
  generalize t.entries = es at h
  induction es with
  | nil => rfl
  | cons e es ih =>
    rw [List.map_cons, List.mem_cons, not_or] at h
    rw [insertEntry, if_neg (Ne.symm h.1), ih h.2, List.cons_append]

end Table

/-! ### Definitions and programs at the front of a queue -/

namespace TokenQueue

variable {q r : TokenQueue} {n : String} {b : Statement} {es : List (String × Statement)}

/-- The queue begins with a definition of the name, which stands for the block. -/
def GivesDefinition (q : TokenQueue) (n : String) (b : Statement) (r : TokenQueue) : Prop :=
  ∃ ss m m', b = .block ss ∧ Word.isIdentifier n = true ∧ Word.isPrimitive n = false ∧
    q.Gives ["INSTRUCTION", n, "IS"] m ∧ m.GivesBlock ss m' ∧ m'.Gives ["END", n] r

/-- The queue begins with the words of the definitions. -/
def GivesDefinitions (q : TokenQueue) (es : List (String × Statement)) (r : TokenQueue) : Prop :=
  ∃ ws, q.Gives ws r ∧ IsDefinitions ws es

/-- The queue begins with the words of the program. -/
def GivesProgram (q : TokenQueue) (p : Program) (r : TokenQueue) : Prop :=
  ∃ ws, q.Gives ws r ∧ IsProgram ws p

theorem givesDefinitions_nil_iff : q.GivesDefinitions [] r ↔ r = q := by
  constructor
  · rintro ⟨ws, hg, h⟩
    cases h
    exact gives_nil_iff.1 hg
  · intro h
    exact ⟨[], gives_nil_iff.2 h, .nil⟩

theorem givesDefinitions_cons_iff :
    q.GivesDefinitions ((n, b) :: es) r ↔
      ∃ m, q.GivesDefinition n b m ∧ m.GivesDefinitions es r := by
  constructor
  · rintro ⟨_, hg, h⟩
    cases h with
    | @cons _ ws vs ss _ hi hp h h' =>
      obtain ⟨m, hm, hg⟩ := gives_opening_iff.1 hg
      obtain ⟨m', hm', hg⟩ := gives_append_iff.1 hg
      have hsplit : "END" :: n :: vs = ["END", n] ++ vs := rfl
      rw [hsplit] at hg
      obtain ⟨l, hl, hr⟩ := gives_append_iff.1 hg
      exact ⟨l, ⟨ss, m, m', rfl, hi, hp, hm, ⟨ws, hm', h⟩, hl⟩, vs, hr, h'⟩
  · rintro ⟨l, ⟨ss, m, m', rfl, hi, hp, hm, ⟨ws, hm', h⟩, hl⟩, vs, hr, h'⟩
    exact ⟨_, hm.append (hm'.append (hl.append hr)), .cons hi hp h h'⟩

/-- What is defined has an identifier as its name and is a block. -/
theorem GivesDefinitions.forall_entries (h : q.GivesDefinitions es r) :
    ∀ e ∈ es, Word.isIdentifier e.1 = true ∧ e.2.kind = .block := by
  obtain ⟨ws, -, h⟩ := h
  intro e he
  obtain ⟨hi, -, hk, -⟩ := (isDefinitions_iff.1 h).1 e he
  exact ⟨hi, hk⟩

theorem givesProgram_iff {p : Program} :
    q.GivesProgram p r ↔
      ∃ ss m l l' k, p.body = .block ss ∧ Word.isIdentifier p.name = true ∧
        q.Gives ["PROGRAM", p.name, "IS"] m ∧ m.GivesDefinitions p.context.entries l ∧
        l.Gives ["BEGIN"] l' ∧ l'.GivesBlock ss k ∧ k.Gives ["END", p.name] r := by
  obtain ⟨name, context, body⟩ := p
  constructor
  · rintro ⟨_, hg, h⟩
    obtain ⟨hn, hd, hb⟩ := h
    obtain ⟨m, hm, hg⟩ := gives_opening_iff.1 hg
    obtain ⟨l, hl, hg⟩ := gives_append_iff.1 hg
    obtain ⟨l', hl', hg⟩ := gives_cons_iff.1 hg
    obtain ⟨k, hk, hr⟩ := gives_append_iff.1 hg
    exact ⟨_, m, l, l', k, rfl, hn, hm, ⟨_, hl, hd⟩, hl', ⟨_, hk, hb⟩, hr⟩
  · rintro ⟨ss, m, l, l', k, hbody, hn, hm, ⟨ds, hl, hd⟩, hl', ⟨ws, hk, hb⟩, hr⟩
    obtain rfl : body = .block ss := hbody
    exact ⟨_, hm.append (hl.append (hl'.append (hk.append hr))), .mk hn hd hb⟩

/-- A definition takes at least one token. -/
theorem GivesDefinition.size_lt (h : q.GivesDefinition n b r) : r.size < q.size := by
  obtain ⟨ss, m, m', -, -, -, hm, hss, hr⟩ := h
  have h₁ := hm.size_lt
  have h₂ := hss.size_le
  have h₃ := hr.size_lt
  omega

theorem GivesDefinition.front_text (h : q.GivesDefinition n b r) :
    q.front.text = "INSTRUCTION" := by
  obtain ⟨ss, m, m', -, -, -, hm, -, -⟩ := h
  exact hm.front_text

end TokenQueue

namespace Reader

variable {τ : Type} {q r : TokenQueue} {x y : τ} {n : String} {s t : Statement} {u : Unit}
  {c c' : Context}

/-! ### Definitions -/

/-- A name that may be defined is read exactly if the queue gives one. -/
theorem definedName_eq_ok_iff :
    definedName ⟨q, x⟩ = .ok n ⟨r, y⟩ ↔
      Word.isIdentifier n = true ∧ Word.isPrimitive n = false ∧ q.Gives [n] r ∧ y = x := by
  rw [definedName, next_bind]
  constructor
  · intro h
    split at h
    · cases h
    split at h
    · cases h
    split at h
    · cases h
    rename_i hi
    split at h
    · cases h
    rename_i hp
    obtain ⟨rfl, rfl, rfl⟩ := pure_eq_ok_iff.1 h
    rw [Bool.not_eq_true', Bool.not_eq_false] at hi
    exact ⟨hi, Bool.not_eq_true _ ▸ hp,
      (gives_singleton_iff (ne_endText_of_isIdentifier hi)).2 ⟨rfl, rfl⟩, rfl⟩
  · rintro ⟨hi, hp, hg, rfl⟩
    obtain ⟨hf, rfl⟩ := (gives_singleton_iff (ne_endText_of_isIdentifier hi)).1 hg
    obtain ⟨hk, hc⟩ := Word.not_reserved_of_isIdentifier hi
    rw [hf, hk, hc, hi, hp]
    rfl

/-- The name at the end is read exactly if the queue gives it. -/
theorem closing_eq_ok_iff (hn : n ≠ Token.endText) :
    closing n ⟨q, x⟩ = .ok u ⟨r, y⟩ ↔ q.Gives [n] r ∧ y = x := by
  rw [closing, next_bind, gives_singleton_iff hn]
  unfold reject
  rw [check_eq_ok_iff]
  tauto

/-- The keyword at the end, and the name behind it. -/
theorem end_closing_eq_ok_iff (hn : n ≠ Token.endText) {α : Type} {f : Unit → Reader τ α} {a : α} :
    (expect "END" >>= fun _ => closing n >>= f) ⟨q, x⟩ = .ok a ⟨r, y⟩ ↔
      ∃ m, q.Gives ["END", n] m ∧ f () ⟨m, x⟩ = .ok a ⟨r, y⟩ := by
  simp only [expect_bind_eq_ok_iff (show "END" ≠ Token.endText by decide), bind_eq_ok_iff,
    closing_eq_ok_iff hn]
  constructor
  · rintro ⟨m, hm, _, l, _, ⟨hl, rfl⟩, h⟩
    exact ⟨l, hm.cons hl, h⟩
  · rintro ⟨l, hg, h⟩
    obtain ⟨m, hm, hl⟩ := gives_cons_iff.1 hg
    exact ⟨m, hm, (), l, x, ⟨hl, rfl⟩, h⟩

/-- The name of a definition is one word. -/
theorem takesWord_definedName : TakesWord (definedName : Reader τ String) id fun n =>
    Word.isIdentifier n = true ∧ Word.isPrimitive n = false := by
  intro q r x y n
  rw [definedName_eq_ok_iff, and_assoc, id]

theorem instructionOpening_eq_ok_iff :
    instructionOpening ⟨q, x⟩ = .ok n ⟨r, y⟩ ↔
      Word.isIdentifier n = true ∧ Word.isPrimitive n = false ∧
        q.Gives ["INSTRUCTION", n, "IS"] r ∧ y = x := by
  rw [← and_assoc]
  exact takesWord_definedName.opening_eq_ok_iff (by decide) (by decide)

/-- **Reading a definition** succeeds exactly if the queue begins with one, whatever the target
    was. -/
theorem instruction_eq_ok_iff :
    instruction ⟨q, s⟩ = .ok n ⟨r, t⟩ ↔ q.GivesDefinition n t r := by
  rw [instruction]
  constructor
  · intro h
    obtain ⟨name, m, _, ho, hbody⟩ := bind_eq_ok_iff.1 h
    obtain ⟨hi, hp, hm, rfl⟩ := instructionOpening_eq_ok_iff.1 ho
    obtain ⟨_, m', _, hb, hafter⟩ := bind_eq_ok_iff.1 hbody
    obtain ⟨ss, hss, -, rfl⟩ := block_eq_ok_iff.1 hb
    obtain ⟨l, hl, hres⟩ := (end_closing_eq_ok_iff (ne_endText_of_isIdentifier hi)).1 hafter
    obtain ⟨rfl, rfl, rfl⟩ := pure_eq_ok_iff.1 hres
    exact ⟨ss, m, m', rfl, hi, hp, hm, hss, hl⟩
  · rintro ⟨ss, m, m', rfl, hi, hp, hm, hss, hr⟩
    have hopen : instructionOpening ⟨q, s⟩ = .ok n ⟨m, s⟩ :=
      instructionOpening_eq_ok_iff.2 ⟨hi, hp, hm, rfl⟩
    have hbody : block ⟨m, s⟩ = .ok () ⟨m', .block ss⟩ :=
      block_eq_ok_iff.2 ⟨ss, hss, hr.endsBlock_of_end, rfl⟩
    exact bind_eq_ok_iff.2 ⟨n, m, s, hopen, bind_eq_ok_iff.2 ⟨(), m', .block ss, hbody,
      (end_closing_eq_ok_iff (ne_endText_of_isIdentifier hi)).2
        ⟨r, hr, pure_eq_ok_iff.2 ⟨rfl, rfl, rfl⟩⟩⟩⟩

/-- One step of reading definitions: it stops in front of `BEGIN`, or it takes a definition of a
    name that is not in the table yet. -/
theorem definitions_succ_eq_ok_iff {k : Nat} :
    definitions (k + 1) c ⟨q, x⟩ = .ok c' ⟨r, y⟩ ↔
      (q.front.text = "BEGIN" ∧ c' = c ∧ r = q ∧ y = x) ∨
        ∃ n b m, q.GivesDefinition n b m ∧ n ∉ c.names ∧
          definitions k (c.insert n b) ⟨m, x⟩ = .ok c' ⟨r, y⟩ := by
  rw [definitions, peek_bind]
  by_cases hbegin : q.front.text = "BEGIN"
  · rw [if_pos hbegin, pure_eq_ok_iff]
    constructor
    · intro h
      exact .inl ⟨hbegin, h⟩
    · rintro (⟨-, h⟩ | ⟨n, b, m, hdef, -, -⟩)
      · exact h
      · exact absurd (hbegin.symm.trans hdef.front_text) (by decide)
  rw [if_neg hbegin]
  by_cases hopen : q.front.text = "INSTRUCTION"
  · rw [if_pos hopen]
    constructor
    · intro h
      obtain ⟨⟨n, b⟩, m, _, hf, hrest⟩ := bind_eq_ok_iff.1 h
      obtain ⟨hi, rfl⟩ := fresh_eq_ok_iff.1 hf
      dsimp only at hrest
      -- A name that is in the table already stops the reader.
      split at hrest
      · cases hrest
      · rename_i hnew
        rw [Table.contains_eq_true_iff] at hnew
        exact .inr ⟨n, b, m, instruction_eq_ok_iff.1 hi, hnew, hrest⟩
    · rintro (⟨h, -⟩ | ⟨n, b, m, hdef, hnew, hrest⟩)
      · exact absurd h hbegin
      · refine bind_eq_ok_iff.2 ⟨(n, b), m, x,
          fresh_eq_ok_iff.2 ⟨instruction_eq_ok_iff.2 hdef, rfl⟩, ?_⟩
        dsimp only
        rwa [if_neg (by rwa [Table.contains_eq_true_iff])]
  · rw [if_neg hopen]
    constructor
    · intro h
      cases h
    · rintro (⟨h, -⟩ | ⟨n, b, m, hdef, -, -⟩)
      · exact absurd h hbegin
      · exact absurd hdef.front_text hopen

/-- **Definitions.** As many steps as the queue has tokens are enough.  The definitions go behind
    those read before; that all names of a table are distinct excludes a second definition. -/
theorem definitions_eq_ok_iff (k : Nat) (hq : q.size ≤ k) :
    definitions k c ⟨q, x⟩ = .ok c' ⟨r, y⟩ ↔
      ∃ es, q.GivesDefinitions es r ∧ r.front.text = "BEGIN" ∧ c'.entries = c.entries ++ es ∧
        y = x := by
  -- The table grows from step to step, so that the induction is over all tables.
  induction k generalizing q c with
  | zero => exact absurd hq (by simp [TokenQueue.size])
  | succ k ih =>
    rw [definitions_succ_eq_ok_iff]
    constructor
    · rintro (⟨hbegin, rfl, rfl, rfl⟩ | ⟨n, b, m, hdef, hnew, hrest⟩)
      · exact ⟨[], givesDefinitions_nil_iff.2 rfl, hbegin, (List.append_nil _).symm, rfl⟩
      · have hm := hdef.size_lt
        obtain ⟨es, hes, hr, hc, rfl⟩ := (ih (by omega)).1 hrest
        rw [Table.entries_insert_of_notMem hnew, List.append_assoc] at hc
        exact ⟨(n, b) :: es, givesDefinitions_cons_iff.2 ⟨m, hdef, hes⟩, hr, hc, rfl⟩
    · rintro ⟨es, hes, hr, hc, rfl⟩
      cases es with
      | nil =>
        obtain rfl := givesDefinitions_nil_iff.1 hes
        rw [List.append_nil] at hc
        exact .inl ⟨hr, Table.ext hc, rfl, rfl⟩
      | cons e es =>
        obtain ⟨n, b⟩ := e
        obtain ⟨m, hdef, hes⟩ := givesDefinitions_cons_iff.1 hes
        have hm := hdef.size_lt
        -- The name is new, since it comes later in the table than the names before it.
        have hnew : n ∉ c.names := by
          have hd := c'.distinct
          rw [hc, List.map_append, List.map_cons, List.nodup_append] at hd
          exact fun hn => hd.2.2 n hn n List.mem_cons_self rfl
        have hc' : c'.entries = (c.insert n b).entries ++ es := by
          rw [hc, Table.entries_insert_of_notMem hnew, List.append_assoc, List.singleton_append]
        exact .inr ⟨n, b, m, hdef, hnew, (ih (by omega)).2 ⟨es, hes, hr, hc', rfl⟩⟩

/-- All definitions of a program, from an empty table on. -/
theorem allDefinitions_eq_ok_iff :
    allDefinitions ⟨q, x⟩ = .ok c ⟨r, y⟩ ↔
      q.GivesDefinitions c.entries r ∧ r.front.text = "BEGIN" ∧ y = x := by
  rw [show allDefinitions ⟨q, x⟩ = definitions q.size .empty ⟨q, x⟩ from rfl,
    definitions_eq_ok_iff q.size (Nat.le_refl _)]
  constructor
  · rintro ⟨es, hes, hr, hc, rfl⟩
    obtain rfl : c.entries = es := hc
    exact ⟨hes, hr, rfl⟩
  · rintro ⟨hes, hr, rfl⟩
    exact ⟨c.entries, hes, hr, rfl, rfl⟩

/-! ### Programs -/

theorem programOpening_eq_ok_iff :
    programOpening ⟨q, x⟩ = .ok n ⟨r, y⟩ ↔
      Word.isIdentifier n = true ∧ q.Gives ["PROGRAM", n, "IS"] r ∧ y = x := by
  simp only [programOpening, bind_eq_ok_iff, identifier_eq_ok_iff,
    expect_eq_ok_iff (show "PROGRAM" ≠ Token.endText by decide),
    expect_eq_ok_iff (show "IS" ≠ Token.endText by decide), pure_eq_ok_iff]
  constructor
  · rintro ⟨_, m, _, ⟨hm, -, rfl⟩, name, l, _, ⟨hi, hl, -, rfl⟩, _, _, _, ⟨hr, -, rfl⟩, rfl, rfl,
      rfl⟩
    exact ⟨hi, hm.cons (hl.cons hr), rfl⟩
  · rintro ⟨hi, hg, rfl⟩
    obtain ⟨m, hm, hg⟩ := gives_cons_iff.1 hg
    obtain ⟨l, hl, hr⟩ := gives_cons_iff.1 hg
    have hf := hl.front_text
    exact ⟨_, m, _, ⟨hm, rfl, rfl⟩, m.front, l, _, ⟨by rwa [hf], by rwa [hf], rfl, rfl⟩, _, r, _,
      ⟨hr, rfl, rfl⟩, hf.symm, rfl, rfl⟩

/-- The parts of a program, up to the end of the input; the target is not touched. -/
def programParts {τ : Type} : Reader τ Program := do
  let name ← programOpening
  let context ← allDefinitions
  let _ ← expect "BEGIN"
  let body ← newBlock allItems
  let _ ← expect "END"
  closing name
  ending
  return ⟨name, context, body⟩

/-- Writes the parts of a program to the target, one after the other. -/
def writeParts (parts : Program) : Reader Program Unit := do
  update fun p => p.setName (some parts.name)
  update fun p => (p.swapContext parts.context).map Prod.fst
  update fun p => (p.swapBody parts.body).map Prod.fst

/-- All parts of a program are read before the first of them is written. -/
theorem program_eq_bind : program = programParts >>= writeParts := by
  unfold program programParts writeParts
  simp only [bind_assoc, pure_bind]

/-- What has been read makes a program: the three checks on the way find nothing to object to. -/
theorem writeParts_eq {parts p : Program} (hn : Word.isIdentifier parts.name = true)
    (hc : ∀ e ∈ parts.context.entries, Word.isIdentifier e.1 = true ∧ e.2.kind = .block)
    (hb : parts.body.kind = .block) : writeParts parts ⟨q, p⟩ = .ok () ⟨q, parts⟩ := by
  unfold writeParts update
  simp only [Program.setName_some hn, Program.swapContext_of_forall hc,
    Program.swapBody_of_block hb]
  rfl

/-- The body of a program is a block of its own. -/
theorem newBlock_allItems_eq_ok_iff :
    newBlock allItems ⟨q, x⟩ = .ok t ⟨r, y⟩ ↔
      ∃ ts, q.GivesBlock ts r ∧ endsBlock r.front = true ∧ t = .block ts ∧ y = x :=
  (readsItems_allItems q.size).newBlock_eq_ok_iff (Nat.le_refl _)

/-- **Reading the parts of a program** succeeds exactly if the queue begins with a program and the
    input ends behind it. -/
theorem programParts_eq_ok_iff {p : Program} :
    programParts ⟨q, x⟩ = .ok p ⟨r, y⟩ ↔
      q.GivesProgram p r ∧ r.front.isEnd = true ∧ y = x := by
  rw [programParts, givesProgram_iff]
  constructor
  · intro h
    obtain ⟨name, m, _, ho, h₁⟩ := bind_eq_ok_iff.1 h
    obtain ⟨hn, hm, rfl⟩ := programOpening_eq_ok_iff.1 ho
    have hname := ne_endText_of_isIdentifier hn
    obtain ⟨context, l, _, hd, h₂⟩ := bind_eq_ok_iff.1 h₁
    obtain ⟨hdefs, -, rfl⟩ := allDefinitions_eq_ok_iff.1 hd
    obtain ⟨l', hl', h₃⟩ := (expect_bind_eq_ok_iff (by decide)).1 h₂
    obtain ⟨_, k, _, hb, h₄⟩ := bind_eq_ok_iff.1 h₃
    obtain ⟨ss, hss, -, rfl, rfl⟩ := newBlock_allItems_eq_ok_iff.1 hb
    obtain ⟨k', hk', h₅⟩ := (end_closing_eq_ok_iff hname).1 h₄
    obtain ⟨_, _, _, hend, hparts⟩ := bind_eq_ok_iff.1 h₅
    obtain ⟨he, rfl, rfl⟩ := ending_eq_ok_iff.1 hend
    obtain ⟨rfl, rfl, rfl⟩ := pure_eq_ok_iff.1 hparts
    exact ⟨⟨ss, m, l, l', k, rfl, hn, hm, hdefs, hl', hss, hk'⟩, he, rfl⟩
  · rintro ⟨⟨ss, m, l, l', k, hbody, hn, hm, hdefs, hl', hss, hr⟩, he, rfl⟩
    have hname := ne_endText_of_isIdentifier hn
    -- The steps in their order, each from the queue that the one before it leaves.
    refine bind_eq_ok_iff.2 ⟨p.name, m, _, programOpening_eq_ok_iff.2 ⟨hn, hm, rfl⟩, ?_⟩
    refine bind_eq_ok_iff.2 ⟨p.context, l, _,
      allDefinitions_eq_ok_iff.2 ⟨hdefs, hl'.front_text, rfl⟩, ?_⟩
    refine (expect_bind_eq_ok_iff (by decide)).2 ⟨l', hl', ?_⟩
    refine bind_eq_ok_iff.2 ⟨p.body, k, _,
      newBlock_allItems_eq_ok_iff.2 ⟨ss, hss, hr.endsBlock_of_end, hbody, rfl⟩, ?_⟩
    refine (end_closing_eq_ok_iff hname).2 ⟨r, hr, ?_⟩
    exact bind_eq_ok_iff.2 ⟨(), r, _, ending_eq_ok_iff.2 ⟨he, rfl, rfl⟩,
      pure_eq_ok_iff.2 ⟨rfl, rfl, rfl⟩⟩

/-- **Writing the parts** that were read always succeeds. -/
theorem writeParts_eq_of_gives {p p₀ : Program} {m : TokenQueue} (h : q.GivesProgram p r) :
    writeParts p ⟨m, p₀⟩ = .ok () ⟨m, p⟩ := by
  obtain ⟨ss, _, _, _, _, hbody, hn, -, hdefs, -⟩ := givesProgram_iff.1 h
  exact writeParts_eq hn hdefs.forall_entries (by rw [hbody, Statement.kind_block])

/-- **Reading a program** succeeds exactly if the queue begins with one and the input ends behind
    it, whatever the target was. -/
theorem program_eq_ok_iff {p p' : Program} :
    program ⟨q, p⟩ = .ok u ⟨r, p'⟩ ↔ q.GivesProgram p' r ∧ r.front.isEnd = true := by
  rw [program_eq_bind, bind_eq_ok_iff]
  simp only [programParts_eq_ok_iff]
  constructor
  · rintro ⟨parts, m, _, ⟨hg, he, rfl⟩, hw⟩
    rw [writeParts_eq_of_gives hg] at hw
    cases hw
    exact ⟨hg, he⟩
  · rintro ⟨hg, he⟩
    exact ⟨p', r, p, ⟨hg, he, rfl⟩, writeParts_eq_of_gives hg⟩

end Reader

/-- **Reading a program from a source** succeeds exactly if its words are those of a program, and
    gives this program. -/
theorem Program.ofSource_eq_ok_iff {source : String} {p : Program} :
    Program.ofSource source = .ok p ↔ IsProgram (Source.words source) p := by
  rw [Program.ofSource, Reader.result_eq_ok_iff]
  simp only [Reader.program_eq_ok_iff]
  constructor
  · rintro ⟨-, r, ⟨ws, hg, h⟩, he⟩
    obtain ⟨rfl, -⟩ := hg.eq_of_isEnd he
    exact h
  · intro h
    exact ⟨(), _, ⟨_, gives_words_ofSource source, h⟩, isEnd_last _⟩

end BL
