import BL.Condition

namespace BL.Word

/-!
# Words

A word is a letter followed by letters, digits and hyphens. Some words are reserved: the keywords,
which hold the constructs together, and the names of the conditions. Every other word is an
identifier; five identifiers name instructions that need no definition.

* `keywords`, `conditions`, `primitives` — the words with a meaning of their own;
* `isLetter`, `isWordChar`, `hasShape` — how a word is spelled;
* `isKeyword`, `isCondition`, `isIdentifier`, `isPrimitive` — the classes of words.
-/

/-! ### The words of the language -/

/-- The words that open, join and close constructs. -/
def keywords : List String :=
  ["PROGRAM", "IS", "BEGIN", "END", "INSTRUCTION", "IF", "THEN", "ELSE", "WHILE", "DO"]

/-- The words that name conditions. -/
def conditions : List String := Condition.all.map Condition.spelling

/-- The names of the instructions that every program may call without a definition. -/
def primitives : List String := ["move", "turnleft", "turnright", "infect", "skip"]

/-! ### Spelling -/

/-- A letter of the Latin alphabet, `A` to `Z` or `a` to `z`; no letter beyond ASCII begins a
    word. -/
def isLetter (c : Char) : Bool := c.isAlpha

/-- A character that may follow the first one of a word: an ASCII letter or digit, or a hyphen. -/
def isWordChar (c : Char) : Bool := c.isAlphanum || c == '-'

/-- The characters spell a word: a letter, then letters, digits and hyphens. -/
def hasShape : List Char → Bool
  | [] => false
  | c :: cs => isLetter c && cs.all isWordChar

theorem isWordChar_of_isLetter {c : Char} (h : isLetter c = true) : isWordChar c = true := by
  simp_all [isLetter, isWordChar, Char.isAlphanum]

/-! ### Classes -/

/-- One of the keywords. -/
def isKeyword (s : String) : Bool := keywords.contains s

/-- The name of a condition. -/
def isCondition (s : String) : Bool := conditions.contains s

/-- A word that is not reserved. -/
def isIdentifier (s : String) : Bool := hasShape s.toList && !isKeyword s && !isCondition s

/-- The name of a primitive instruction. -/
def isPrimitive (s : String) : Bool := primitives.contains s

/-- An identifier is neither a keyword nor the name of a condition. -/
theorem not_reserved_of_isIdentifier {s : String} (h : isIdentifier s = true) :
    isKeyword s = false ∧ isCondition s = false := by
  simp only [isIdentifier, Bool.and_eq_true, Bool.not_eq_true'] at h
  exact ⟨h.1.2, h.2⟩

theorem isCondition_spelling (c : Condition) : isCondition c.spelling = true := by
  simp only [isCondition, conditions, List.contains_iff_mem]
  exact List.mem_map_of_mem (Condition.mem_all c)

theorem exists_spelling_of_isCondition {s : String} (h : isCondition s = true) :
    ∃ c : Condition, c.spelling = s := by
  simp only [isCondition, conditions, List.contains_iff_mem, List.mem_map] at h
  obtain ⟨c, -, hc⟩ := h
  exact ⟨c, hc⟩

end BL.Word
