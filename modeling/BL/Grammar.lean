import BL.Program.Basic

namespace BL.Grammar

/-!
# The grammar of the language

The sequences of words that make statements, blocks and programs, each together with the tree that
they stand for. Nothing is said here about how a text is read.

* `IsStatement`, `IsBlock`, `IsDefinitions`, `IsProgram` — the words of a construct and its tree;
* `Sentence` — the words of some program, whose definitions may share a name;
* `Viable` — the words with which a sentence can begin;
* `Statement.words`, `Program.words` — the words of a tree;
* `isStatement_iff`, `isProgram_iff` — a well-formed tree has exactly one sequence of words.
-/

/-! ### Statements and blocks -/

mutual
/-- The words are those of a statement with this tree. -/
inductive IsStatement : List String → Statement → Prop where
  | call {name : String} (h : Word.isIdentifier name = true) : IsStatement [name] (.call name)
  | ifThen {ws : List String} {ss : List Statement} (c : Condition) (h : IsBlock ws ss) :
      IsStatement ("IF" :: c.spelling :: "THEN" :: (ws ++ ["END", "IF"])) (.ifThen c (.block ss))
  | ifElse {ws vs : List String} {ss ts : List Statement} (c : Condition) (h : IsBlock ws ss)
      (h' : IsBlock vs ts) :
      IsStatement ("IF" :: c.spelling :: "THEN" :: (ws ++ "ELSE" :: (vs ++ ["END", "IF"])))
        (.ifElse c (.block ss) (.block ts))
  | whileDo {ws : List String} {ss : List Statement} (c : Condition) (h : IsBlock ws ss) :
      IsStatement ("WHILE" :: c.spelling :: "DO" :: (ws ++ ["END", "WHILE"]))
        (.whileDo c (.block ss))

/-- The words are those of statements with these trees, one after the other. -/
inductive IsBlock : List String → List Statement → Prop where
  | nil : IsBlock [] []
  | cons {ws vs : List String} {s : Statement} {ss : List Statement} (h : IsStatement ws s)
      (h' : IsBlock vs ss) : IsBlock (ws ++ vs) (s :: ss)
end

/-! ### Programs -/

/-- The words are those of definitions with these names and blocks. -/
inductive IsDefinitions : List String → List (String × Statement) → Prop where
  | nil : IsDefinitions [] []
  | cons {name : String} {ws vs : List String} {ss : List Statement}
      {es : List (String × Statement)} (hi : Word.isIdentifier name = true)
      (hp : Word.isPrimitive name = false) (h : IsBlock ws ss) (h' : IsDefinitions vs es) :
      IsDefinitions ("INSTRUCTION" :: name :: "IS" :: (ws ++ "END" :: name :: vs))
        ((name, .block ss) :: es)

/-- The words are those of a program with this name, these definitions and this body. Names of
    definitions may be the same. -/
inductive IsProgramOf : List String → String → List (String × Statement) → Statement → Prop where
  | mk {name : String} {ds ws : List String} {es : List (String × Statement)}
      {ss : List Statement} (hn : Word.isIdentifier name = true) (hd : IsDefinitions ds es)
      (hb : IsBlock ws ss) :
      IsProgramOf ("PROGRAM" :: name :: "IS" :: (ds ++ "BEGIN" :: (ws ++ ["END", name]))) name es
        (.block ss)

/-- The words are those of the program. -/
def IsProgram (ws : List String) (p : Program) : Prop :=
  IsProgramOf ws p.name p.context.entries p.body

/-- The words are those of some program, except that names may be defined twice. -/
def Sentence (ws : List String) : Prop := ∃ name es s, IsProgramOf ws name es s

/-- A sentence can begin with the words. -/
def Viable (ws : List String) : Prop := ∃ vs, Sentence (ws ++ vs)

/-- A block can begin with the words. -/
def ViableBlock (ws : List String) : Prop := ∃ vs ss, IsBlock (ws ++ vs) ss

end BL.Grammar

namespace BL

/-! ### The words of a tree -/

namespace Statement

mutual
/-- The words of a statement. -/
def words : Statement → List String
  | .block children => wordsAll children
  | .ifThen c body => "IF" :: c.spelling :: "THEN" :: (words body ++ ["END", "IF"])
  | .ifElse c body alternative =>
    "IF" :: c.spelling :: "THEN" :: (words body ++ "ELSE" :: (words alternative ++ ["END", "IF"]))
  | .whileDo c body => "WHILE" :: c.spelling :: "DO" :: (words body ++ ["END", "WHILE"])
  | .call name => [name]

/-- The words of several statements. -/
def wordsAll : List Statement → List String
  | [] => []
  | s :: ss => words s ++ wordsAll ss
end

theorem wordsAll_eq_flatMap (ss : List Statement) : wordsAll ss = ss.flatMap words := by
  induction ss with
  | nil => rfl
  | cons s ss ih => simp [wordsAll, ih]

@[simp] theorem words_block (ss : List Statement) : (block ss).words = ss.flatMap words := by
  rw [words, wordsAll_eq_flatMap]

end Statement

namespace Program

/-- The words of a definition. -/
def definitionWords (e : String × Statement) : List String :=
  "INSTRUCTION" :: e.1 :: "IS" :: (e.2.words ++ ["END", e.1])

/-- The words of a program. -/
def words (p : Program) : List String :=
  "PROGRAM" :: p.name :: "IS" :: (p.context.entries.flatMap definitionWords ++
    "BEGIN" :: (p.body.words ++ ["END", p.name]))

end Program

namespace Grammar

/-! ### One sequence of words to a tree -/

theorem isBlock_words {ss : List Statement} (h : ∀ s ∈ ss, IsStatement s.words s) :
    IsBlock (ss.flatMap Statement.words) ss := by
  induction ss with
  | nil => exact .nil
  | cons s ss ih =>
    exact .cons (h s List.mem_cons_self) (ih fun t ht => h t (.tail _ ht))

theorem isStatement_words {s : Statement} (hs : s.WellFormed) (hk : s.kind ≠ .block) :
    IsStatement s.words s := by
  suffices h : (s.kind ≠ .block → IsStatement s.words s) ∧
      ∀ ss, s = .block ss → IsBlock s.words ss from h.1 hk
  clear hk
  induction s with
  | block ss ih =>
    rw [Statement.wellFormed_block] at hs
    refine ⟨fun h => absurd rfl h, fun ts e => ?_⟩
    obtain rfl : ss = ts := by simpa using e
    rw [Statement.words_block]
    exact isBlock_words fun s h => (ih s h (hs s h).2).1 (hs s h).1
  | ifThen c s ih =>
    rw [Statement.wellFormed_ifThen] at hs
    obtain ⟨ss, rfl⟩ := Statement.kind_eq_block_iff.1 hs.1
    exact ⟨fun _ => by rw [Statement.words]; exact .ifThen c ((ih hs.2).2 ss rfl),
      fun _ e => by simp at e⟩
  | ifElse c s t ih ih' =>
    rw [Statement.wellFormed_ifElse] at hs
    obtain ⟨ss, rfl⟩ := Statement.kind_eq_block_iff.1 hs.1.1
    obtain ⟨ts, rfl⟩ := Statement.kind_eq_block_iff.1 hs.2.1
    exact ⟨fun _ => by
      rw [Statement.words]; exact .ifElse c ((ih hs.1.2).2 ss rfl) ((ih' hs.2.2).2 ts rfl),
      fun _ e => by simp at e⟩
  | whileDo c s ih =>
    rw [Statement.wellFormed_whileDo] at hs
    obtain ⟨ss, rfl⟩ := Statement.kind_eq_block_iff.1 hs.1
    exact ⟨fun _ => by rw [Statement.words]; exact .whileDo c ((ih hs.2).2 ss rfl),
      fun _ e => by simp at e⟩
  | call n =>
    rw [Statement.wellFormed_call] at hs
    exact ⟨fun _ => by rw [Statement.words]; exact .call hs, fun _ e => by simp at e⟩

theorem words_of_isStatement {ws : List String} {s : Statement} (h : IsStatement ws s) :
    s.WellFormed ∧ s.kind ≠ .block ∧ ws = s.words :=
  IsStatement.rec (motive_1 := fun ws s _ => s.WellFormed ∧ s.kind ≠ .block ∧ ws = s.words)
    (motive_2 := fun ws ss _ => (Statement.block ss).WellFormed ∧
      ws = (Statement.block ss).words)
    (fun h => by simp [h, Statement.words])
    (fun c _ ih => by
      rw [Statement.words, Statement.wellFormed_ifThen]; simp [ih.1, ← ih.2])
    (fun c _ _ ih ih' => by
      rw [Statement.words, Statement.wellFormed_ifElse]; simp [ih.1, ih'.1, ← ih.2, ← ih'.2])
    (fun c _ ih => by
      rw [Statement.words, Statement.wellFormed_whileDo]; simp [ih.1, ← ih.2])
    (by simp)
    (fun _ _ ih ih' => by
      refine ⟨?_, ?_⟩
      · rw [Statement.wellFormed_block]
        intro t ht
        rcases List.mem_cons.1 ht with rfl | ht
        · exact ⟨ih.2.1, ih.1⟩
        · exact Statement.wellFormed_block.1 ih'.1 t ht
      · simp [ih.2.2, ih'.2])
    h

/-- A tree is derived from exactly one sequence of words, and only if it is well formed and no
    block. -/
theorem isStatement_iff {ws : List String} {s : Statement} :
    IsStatement ws s ↔ s.WellFormed ∧ s.kind ≠ .block ∧ ws = s.words :=
  ⟨words_of_isStatement, fun ⟨hs, hk, e⟩ => e ▸ isStatement_words hs hk⟩

/-- The same for blocks. -/
theorem isBlock_iff {ws : List String} {ss : List Statement} :
    IsBlock ws ss ↔ (Statement.block ss).WellFormed ∧ ws = (Statement.block ss).words := by
  constructor
  · intro h
    induction ss generalizing ws with
    | nil => cases h; simp
    | cons s ss ih =>
      cases h with
      | cons h h' =>
        obtain ⟨hs, hk, rfl⟩ := words_of_isStatement h
        obtain ⟨hss, rfl⟩ := ih h'
        refine ⟨Statement.wellFormed_block.2 fun t ht => ?_, by simp⟩
        rcases List.mem_cons.1 ht with rfl | ht
        · exact ⟨hk, hs⟩
        · exact Statement.wellFormed_block.1 hss t ht
  · rintro ⟨hs, rfl⟩
    rw [Statement.words_block]
    have hs := Statement.wellFormed_block.1 hs
    exact isBlock_words fun s h => isStatement_words (hs s h).2 (hs s h).1

/-- The same for definitions: the names are identifiers but no primitive instructions. -/
theorem isDefinitions_iff {ws : List String} {es : List (String × Statement)} :
    IsDefinitions ws es ↔
      (∀ e ∈ es, Word.isIdentifier e.1 = true ∧ Word.isPrimitive e.1 = false ∧
        BL.Program.IsBlock e.2) ∧ ws = es.flatMap Program.definitionWords := by
  induction es generalizing ws with
  | nil =>
    constructor
    · intro h; cases h; simp
    · rintro ⟨-, rfl⟩; exact .nil
  | cons e es ih =>
    constructor
    · intro h
      cases h with
      | cons hi hp h h' =>
        obtain ⟨hb, rfl⟩ := isBlock_iff.1 h
        obtain ⟨hes, rfl⟩ := ih.1 h'
        refine ⟨fun f hf => ?_, by simp [Program.definitionWords]⟩
        rcases List.mem_cons.1 hf with rfl | hf
        · exact ⟨hi, hp, rfl, hb⟩
        · exact hes f hf
    · rintro ⟨h, rfl⟩
      obtain ⟨name, s⟩ := e
      obtain ⟨hi, hp, hk, hs⟩ := h _ List.mem_cons_self
      obtain ⟨ss, rfl⟩ := Statement.kind_eq_block_iff.1 hk
      have := IsDefinitions.cons hi hp (isBlock_iff.2 ⟨hs, rfl⟩)
        (ih.2 ⟨fun f hf => h f (.tail _ hf), rfl⟩)
      simpa [Program.definitionWords] using this

/-- A well-formed program that defines no primitive instruction has exactly one sequence of words,
    and no other program has one. -/
theorem isProgram_iff {ws : List String} {p : BL.Program} :
    IsProgram ws p ↔
      p.WellFormed ∧ (∀ n ∈ p.context.names, Word.isPrimitive n = false) ∧ ws = p.words := by
  obtain ⟨name, context, body⟩ := p
  simp only [IsProgram, Table.names, List.mem_map, forall_exists_index, and_imp]
  constructor
  · rintro (@⟨_, ds, vs, _, ss, hn, hd, hb⟩)
    obtain ⟨hes, rfl⟩ := isDefinitions_iff.1 hd
    obtain ⟨hs, rfl⟩ := isBlock_iff.1 hb
    refine ⟨⟨hn, fun e he => ⟨(hes e he).1, (hes e he).2.2⟩, rfl, hs⟩, ?_, rfl⟩
    rintro n e he rfl
    exact (hes e he).2.1
  · rintro ⟨⟨hn, hes, hk, hs⟩, hp, rfl⟩
    obtain ⟨ss, rfl⟩ := Statement.kind_eq_block_iff.1 hk
    exact .mk hn
      (isDefinitions_iff.2 ⟨fun e he => ⟨(hes e he).1, hp _ e he rfl, (hes e he).2⟩, rfl⟩)
      (isBlock_iff.2 ⟨hs, rfl⟩)

end Grammar

end BL
