namespace BL

/-!
# Tables

A table keeps values under names, in the order in which the names first came in.

* `Table` — entries with distinct names;
* `Table.find?`, `Table.insert`, `Table.names` — looking up, putting in, and the names in order;
* `Table.find?_insert`, `Table.names_insert` — what putting in does to both;
* `Table.agrees` — the same entries, in whatever order.
-/

/-- Values under distinct names, in the order of insertion. -/
structure Table (α : Type) where
  entries : List (String × α)
  distinct : (entries.map Prod.fst).Nodup

namespace Table

variable {α : Type}

/-- The table without entries. -/
def empty : Table α := ⟨[], .nil⟩

instance : Inhabited (Table α) := ⟨empty⟩

/-! ### Looking up -/

/-- The names, in order of insertion. -/
def names (t : Table α) : List String := t.entries.map Prod.fst

/-- The value under a name. -/
def find? (t : Table α) (name : String) : Option α := t.entries.lookup name

/-- Whether there is a value under the name. -/
def contains (t : Table α) (name : String) : Bool := (t.find? name).isSome

@[simp] theorem names_empty : (empty : Table α).names = [] := rfl
@[simp] theorem find?_empty (name : String) : (empty : Table α).find? name = none := rfl

theorem ext {t u : Table α} (h : t.entries = u.entries) : t = u := by
  cases t; cases u; simp_all

/-! ### Putting in -/

/-- Puts a value under a name: at the name's place, or behind all entries if the name is new. -/
def insertEntry (name : String) (v : α) : List (String × α) → List (String × α)
  | [] => [(name, v)]
  | e :: es => if e.1 = name then (name, v) :: es else e :: insertEntry name v es

theorem map_fst_insertEntry (name : String) (v : α) (es : List (String × α)) :
    (insertEntry name v es).map Prod.fst =
      if name ∈ es.map Prod.fst then es.map Prod.fst else es.map Prod.fst ++ [name] := by
  induction es with
  | nil => rfl
  | cons e es ih =>
    by_cases h : e.1 = name
    · simp [insertEntry, h]
    · have h' : ¬ name = e.1 := fun eq => h eq.symm
      simp only [insertEntry, h, if_false, List.map_cons, ih, List.mem_cons, h', false_or]
      split <;> simp

/-- Looking up passes over an entry under another name. -/
theorem lookup_cons_of_ne {name other : String} (h : name ≠ other) (v : α)
    (es : List (String × α)) : ((other, v) :: es).lookup name = es.lookup name := by
  rw [List.lookup_cons, beq_eq_false_iff_ne.2 h]

theorem lookup_insertEntry (name other : String) (v : α) (es : List (String × α)) :
    (insertEntry name v es).lookup other = if other = name then some v else es.lookup other := by
  induction es with
  | nil =>
    by_cases h : other = name
    · simp [insertEntry, h]
    · simp [insertEntry, h, lookup_cons_of_ne h]
  | cons e es ih =>
    obtain ⟨k, w⟩ := e
    by_cases hk : k = name
    · subst hk
      by_cases h : other = k
      · simp [insertEntry, h]
      · simp [insertEntry, h, lookup_cons_of_ne h]
    · by_cases h : other = k
      · subst h
        simp [insertEntry, hk]
      · simp [insertEntry, hk, lookup_cons_of_ne h, ih]

/-- The table with the value under the name. -/
def insert (t : Table α) (name : String) (v : α) : Table α where
  entries := insertEntry name v t.entries
  distinct := by
    rw [map_fst_insertEntry]
    split
    · exact t.distinct
    · rename_i h
      refine List.nodup_append.2 ⟨t.distinct, by simp, fun a ha b hb => ?_⟩
      rintro rfl
      exact h (List.mem_singleton.1 hb ▸ ha)

@[simp] theorem find?_insert (t : Table α) (name other : String) (v : α) :
    (t.insert name v).find? other = if other = name then some v else t.find? other :=
  lookup_insertEntry name other v t.entries

theorem names_insert (t : Table α) (name : String) (v : α) :
    (t.insert name v).names = if name ∈ t.names then t.names else t.names ++ [name] :=
  map_fst_insertEntry name v t.entries

/-! ### Agreement -/

/-- Every entry of one table is in the other. -/
def within [DecidableEq α] (t u : Table α) : Bool :=
  t.entries.all fun e => u.find? e.1 == some e.2

/-- Both tables have the same values under the same names. -/
def agrees [DecidableEq α] (t u : Table α) : Bool := t.within u && u.within t

theorem find?_eq_some_iff (t : Table α) {name : String} {v : α} :
    t.find? name = some v ↔ (name, v) ∈ t.entries := by
  obtain ⟨es, hd⟩ := t
  simp only [find?]
  induction es with
  | nil => simp
  | cons e es ih =>
    obtain ⟨k, w⟩ := e
    simp only [List.map_cons, List.nodup_cons] at hd
    by_cases h : name = k
    · subst h
      simp only [List.lookup_cons_self, List.mem_cons, Prod.mk.injEq, true_and, Option.some.injEq]
      refine ⟨fun e => .inl e.symm, ?_⟩
      rintro (rfl | hm)
      · rfl
      · exact absurd (List.mem_map_of_mem hm) hd.1
    · simp [lookup_cons_of_ne h, h, ih hd.2]

theorem agrees_iff [DecidableEq α] {t u : Table α} :
    t.agrees u = true ↔ ∀ name, t.find? name = u.find? name := by
  simp only [agrees, within, Bool.and_eq_true, List.all_eq_true, beq_iff_eq]
  constructor
  · rintro ⟨h, h'⟩ name
    cases ht : t.find? name with
    | some v => exact (h _ (t.find?_eq_some_iff.1 ht)).symm
    | none =>
      cases hu : u.find? name with
      | none => rfl
      | some v => exact absurd (h' _ (u.find?_eq_some_iff.1 hu)) (by simp [ht])
  · intro h
    exact ⟨fun e he => (h e.1).symm.trans (t.find?_eq_some_iff.2 he),
      fun e he => (h e.1).trans (u.find?_eq_some_iff.2 he)⟩

end Table

end BL
