import BL.Proofs.Layout.Words

namespace BL

open Layout

/-!
# The tree in parentheses tells the statement

No two statements are written as the same tree.  The text of a tree is an expression: an atom, or
the name of a construct and expressions in parentheses.  An expression ends where the parentheses
close or where a space or a parenthesis ends the atom, so that it cannot be the beginning of a
longer one, and the parts of a construct are found one by one:

* `Layout.IsExpression` — the texts of expressions;
* `Layout.Separable`, `Layout.IsExpression.separable` — two texts, where either ends is seen in
  whatever both are followed by; expressions have this property;
* `Layout.node_inj` — expressions in parentheses have one name and one list of parts;
* `Statement.tree_eq_node`, `Statement.isExpression_of_mem_treeParts` — the tree of a statement as
  such an expression;
* `Statement.roots_agree`, `Statement.eq_of_tree_eq` — the same tree is that of one statement, level
  by level;
* `Statement.dump_identifies` — dumps are the same exactly if the statements are.
-/

namespace Layout

/-! ### Atoms -/

/-- A character that an atom may hold: neither a space nor a parenthesis. -/
def isAtomChar (c : Char) : Bool := c != ' ' && c != '(' && c != ')'

/-- A text that ends the expression in front of it: there is nothing more, or a space or a closing
    parenthesis follows. -/
def EndsExpression (cs : List Char) : Prop := ∀ c ∈ cs.head?, c = ' ' ∨ c = ')'

theorem endsExpression_space (cs : List Char) : EndsExpression (' ' :: cs) := by
  simp [EndsExpression]

theorem endsExpression_close (cs : List Char) : EndsExpression (')' :: cs) := by
  simp [EndsExpression]

theorem EndsExpression.isAtomChar_eq_false {c : Char} {cs : List Char}
    (h : EndsExpression (c :: cs)) : isAtomChar c = false := by
  rcases h c rfl with rfl | rfl <;> rfl

/-- An atom reaches as far as there are characters for it. -/
theorem takeWhile_atom {w us : List Char} (hw : ∀ c ∈ w, isAtomChar c = true)
    (hus : EndsExpression us) : (w ++ us).takeWhile isAtomChar = w := by
  rw [List.takeWhile_append_of_pos hw]
  cases us with
  | nil => simp
  | cons c us => simp [hus.isAtomChar_eq_false]

/-- **Atoms** are told apart: both end where the first character stands that no atom holds. -/
theorem append_inj_of_atoms {w v us vs : List Char} (hw : ∀ c ∈ w, isAtomChar c = true)
    (hv : ∀ c ∈ v, isAtomChar c = true) (hus : EndsExpression us) (hvs : EndsExpression vs)
    (h : w ++ us = v ++ vs) : w = v ∧ us = vs := by
  have hwv : w = v := by
    rw [← takeWhile_atom hw hus, h, takeWhile_atom hv hvs]
  subst hwv
  exact ⟨rfl, List.append_cancel_left h⟩

/-! ### Expressions -/

/-- Atoms, and expressions in parentheses behind the name of a construct. -/
inductive IsExpression : String → Prop where
  | atom {w : String} (hne : w ≠ "") (h : ∀ c ∈ w.toList, isAtomChar c = true) : IsExpression w
  | node (k : Kind) {parts : List String} (h : ∀ p ∈ parts, IsExpression p) :
    IsExpression (node k parts)

/-- Where what follows ends an expression, neither text is taken for the other one. -/
def Separable (x y : String) : Prop :=
  ∀ us vs, EndsExpression us → EndsExpression vs → x.toList ++ us = y.toList ++ vs →
    x = y ∧ us = vs

/-- Words are atoms. -/
theorem isExpression_of_hasShape {w : String} (h : Word.hasShape w.toList = true) :
    IsExpression w := by
  refine .atom ?_ fun c hc => ?_
  · rintro rfl
    cases h
  · have hchar := Word.isWordChar_of_mem h hc
    have hne : ∀ d, Word.isWordChar d = false → c ≠ d := by
      rintro d hd rfl
      rw [hd] at hchar
      cases hchar
    simp [isAtomChar, hne ' ' rfl, hne '(' rfl, hne ')' rfl]

theorem isAtomChar_of_mem_label {k : Kind} {c : Char} (h : c ∈ k.label.toList) :
    isAtomChar c = true := by
  have hall : k.label.toList.all isAtomChar = true := by cases k <;> decide
  exact List.all_eq_true.1 hall c h

theorem label_injective {k l : Kind} (h : k.label = l.label) : k = l := by
  cases k <;> cases l <;> first | rfl | exact absurd h (by decide)

/-- The characters of an expression in parentheses. -/
theorem toList_node (k : Kind) (parts : List String) (us : List Char) :
    (node k parts).toList ++ us =
      '(' :: (k.label.toList ++ ((spaced parts).toList ++ ')' :: us)) := by
  simp [node]

/-- Behind the name of a construct its parts begin, or the parentheses close. -/
theorem endsExpression_spaced (parts : List String) (us : List Char) :
    EndsExpression ((spaced parts).toList ++ ')' :: us) := by
  rw [toList_spaced]
  cases parts with
  | nil => exact endsExpression_close us
  | cons p parts =>
    rw [List.flatMap_cons, List.cons_append, List.cons_append]
    exact endsExpression_space _

/-- **Parts** that can be told apart are found one by one, up to the closing parenthesis. -/
theorem spaced_append_inj {ps qs : List String} {us vs : List Char}
    (hsep : ∀ p ∈ ps, ∀ q ∈ qs, Separable p q)
    (h : (spaced ps).toList ++ ')' :: us = (spaced qs).toList ++ ')' :: vs) :
    ps = qs ∧ us = vs := by
  induction ps generalizing qs with
  | nil =>
    cases qs with
    | nil => exact ⟨rfl, by simpa [spaced] using h⟩
    | cons q qs => simp [spaced] at h
  | cons p ps ih =>
    cases qs with
    | nil => simp [spaced] at h
    | cons q qs =>
      have hcons : ∀ (r : String) (rs : List String) (ws : List Char),
          (spaced (r :: rs)).toList ++ ')' :: ws =
            ' ' :: (r.toList ++ ((spaced rs).toList ++ ')' :: ws)) := by
        intro r rs ws
        simp [toList_spaced]
      rw [hcons, hcons, List.cons.injEq] at h
      obtain ⟨rfl, hrest⟩ := hsep p List.mem_cons_self q List.mem_cons_self _ _
        (endsExpression_spaced ps us) (endsExpression_spaced qs vs) h.2
      obtain ⟨rfl, rfl⟩ := ih (fun p hp q hq => hsep p (.tail _ hp) q (.tail _ hq)) hrest
      exact ⟨rfl, rfl⟩

/-- **Constructs** are told apart if their parts are. -/
theorem node_append_inj {k l : Kind} {ps qs : List String} {us vs : List Char}
    (hsep : ∀ p ∈ ps, ∀ q ∈ qs, Separable p q)
    (h : (node k ps).toList ++ us = (node l qs).toList ++ vs) : k = l ∧ ps = qs ∧ us = vs := by
  rw [toList_node, toList_node, List.cons.injEq] at h
  obtain ⟨hlabel, hparts⟩ := append_inj_of_atoms (fun c hc => isAtomChar_of_mem_label hc)
    (fun c hc => isAtomChar_of_mem_label hc) (endsExpression_spaced ps us)
    (endsExpression_spaced qs vs) h.2
  exact ⟨label_injective (String.toList_inj.1 hlabel), spaced_append_inj hsep hparts⟩

/-- An atom does not begin with a parenthesis. -/
theorem atom_append_ne_node {w : String} (hne : w ≠ "") (hw : ∀ c ∈ w.toList, isAtomChar c = true)
    (k : Kind) (parts : List String) (us vs : List Char) :
    w.toList ++ us ≠ (node k parts).toList ++ vs := by
  rw [toList_node]
  intro h
  cases hl : w.toList with
  | nil => exact hne (by simpa using hl)
  | cons c cs =>
    rw [hl, List.cons_append] at h
    obtain ⟨rfl, -⟩ := List.cons.inj h
    have hc := hw '(' (hl ▸ List.mem_cons_self)
    cases hc

/-- **Expressions are told apart**, whatever follows them. -/
theorem IsExpression.separable {x y : String} (hx : IsExpression x) (hy : IsExpression y) :
    Separable x y := by
  -- One level of parentheses is opened in both texts at a time.
  induction hx generalizing y with
  | atom hne hw =>
    intro us vs hus hvs h
    cases hy with
    | atom _ hv =>
      obtain ⟨hwv, hrest⟩ := append_inj_of_atoms hw hv hus hvs h
      exact ⟨String.toList_inj.1 hwv, hrest⟩
    | node l _ => exact absurd h (atom_append_ne_node hne hw l _ us vs)
  | node k _ ih =>
    intro us vs hus hvs h
    cases hy with
    | atom hne hv => exact absurd h.symm (atom_append_ne_node hne hv k _ vs us)
    | node l hqs =>
      obtain ⟨rfl, rfl, hrest⟩ := node_append_inj (fun p hp q hq => ih p hp (hqs q hq)) h
      exact ⟨rfl, hrest⟩

/-- **One reading.** An expression in parentheses is that of one construct and one list of parts. -/
theorem node_inj {k l : Kind} {ps qs : List String} (hps : ∀ p ∈ ps, IsExpression p)
    (hqs : ∀ q ∈ qs, IsExpression q) (h : node k ps = node l qs) : k = l ∧ ps = qs := by
  have happend : (node k ps).toList ++ [] = (node l qs).toList ++ [] := by rw [h]
  obtain ⟨hk, hparts, -⟩ :=
    node_append_inj (fun p hp q hq => (hps p hp).separable (hqs q hq)) happend
  exact ⟨hk, hparts⟩

end Layout

namespace Statement

/-! ### Trees of statements -/

/-- The parts of a statement in its tree, each as a text. -/
def treeParts : Statement → List String
  | block children => children.map tree
  | ifThen c body => [c.spelling, body.tree]
  | ifElse c body alternative => [c.spelling, body.tree, alternative.tree]
  | whileDo c body => [c.spelling, body.tree]
  | call name => [name]

/-- The tree of a statement is the name of its construct and its parts in parentheses. -/
theorem tree_eq_node (s : Statement) : s.tree = node s.kind s.treeParts := by
  cases s with
  | block ss =>
    rw [tree, fold_block]
    rfl
  | ifThen | ifElse | whileDo | call =>
    rw [tree, fold]
    rfl

/-- The parts of a well-formed statement are expressions, and so is its tree. -/
theorem isExpression_of_mem_treeParts {s : Statement} (hs : s.WellFormed) :
    ∀ p ∈ s.treeParts, IsExpression p := by
  have htree : ∀ t : Statement, (∀ p ∈ t.treeParts, IsExpression p) → IsExpression t.tree := by
    intro t ht
    rw [tree_eq_node]
    exact .node t.kind ht
  induction s with
  | block ss ih =>
    rw [wellFormed_block] at hs
    intro p hp
    obtain ⟨s, hmem, rfl⟩ := List.mem_map.1 hp
    exact htree s (ih s hmem (hs s hmem).2)
  | ifThen c s ih =>
    rw [wellFormed_ifThen] at hs
    rw [treeParts, List.forall_mem_cons, List.forall_mem_singleton]
    exact ⟨isExpression_of_hasShape (Word.hasShape_spelling c), htree s (ih hs.2)⟩
  | ifElse c s t ih ih' =>
    rw [wellFormed_ifElse] at hs
    rw [treeParts, List.forall_mem_cons, List.forall_mem_cons, List.forall_mem_singleton]
    exact ⟨isExpression_of_hasShape (Word.hasShape_spelling c), htree s (ih hs.1.2),
      htree t (ih' hs.2.2)⟩
  | whileDo c s ih =>
    rw [wellFormed_whileDo] at hs
    rw [treeParts, List.forall_mem_cons, List.forall_mem_singleton]
    exact ⟨isExpression_of_hasShape (Word.hasShape_spelling c), htree s (ih hs.2)⟩
  | call n =>
    rw [wellFormed_call] at hs
    rw [treeParts, List.forall_mem_singleton]
    exact isExpression_of_hasShape (Word.hasShape_of_isIdentifier hs)

/-- Well-formed statements with the same tree have the same construct at their root, and the same
    parts. -/
theorem roots_agree {s t : Statement} (hs : s.WellFormed) (ht : t.WellFormed)
    (h : s.tree = t.tree) : s.kind = t.kind ∧ s.treeParts = t.treeParts := by
  rw [tree_eq_node, tree_eq_node] at h
  exact node_inj (isExpression_of_mem_treeParts hs) (isExpression_of_mem_treeParts ht) h

/-- Statements one by one from their trees. -/
theorem eq_of_map_tree_eq {ss ts : List Statement}
    (h : ∀ s ∈ ss, ∀ t ∈ ts, s.tree = t.tree → s = t) (htrees : ss.map tree = ts.map tree) :
    ss = ts := by
  induction ss generalizing ts with
  | nil => exact (List.map_eq_nil_iff.1 htrees.symm).symm
  | cons s ss ih =>
    cases ts with
    | nil => cases htrees
    | cons t ts =>
      rw [List.map_cons, List.map_cons, List.cons.injEq] at htrees
      rw [h s List.mem_cons_self t List.mem_cons_self htrees.1,
        ih (fun s hs t ht => h s (.tail _ hs) t (.tail _ ht)) htrees.2]

/-- **The tree tells the statement.** -/
theorem eq_of_tree_eq {s t : Statement} (hs : s.WellFormed) (ht : t.WellFormed)
    (h : s.tree = t.tree) : s = t := by
  -- The roots agree, and by induction so does what stands below them.
  induction s generalizing t with
  | block ss ih =>
    obtain ⟨hk, hparts⟩ := roots_agree hs ht h
    cases t with
    | block ts =>
      rw [wellFormed_block] at hs ht
      have hchild : ∀ s ∈ ss, ∀ t ∈ ts, s.tree = t.tree → s = t :=
        fun s hmem t hmem' => ih s hmem (hs s hmem).2 (ht t hmem').2
      rw [eq_of_map_tree_eq hchild hparts]
    | ifThen | ifElse | whileDo | call => cases hk
  | ifThen c s ih =>
    obtain ⟨hk, hparts⟩ := roots_agree hs ht h
    cases t with
    | ifThen d t =>
      rw [wellFormed_ifThen] at hs ht
      simp only [treeParts, List.cons.injEq, and_true] at hparts
      rw [Condition.spelling_injective hparts.1, ih hs.2 ht.2 hparts.2]
    | block | ifElse | whileDo | call => cases hk
  | ifElse c s s' ih ih' =>
    obtain ⟨hk, hparts⟩ := roots_agree hs ht h
    cases t with
    | ifElse d t t' =>
      rw [wellFormed_ifElse] at hs ht
      simp only [treeParts, List.cons.injEq, and_true] at hparts
      rw [Condition.spelling_injective hparts.1, ih hs.1.2 ht.1.2 hparts.2.1,
        ih' hs.2.2 ht.2.2 hparts.2.2]
    | block | ifThen | whileDo | call => cases hk
  | whileDo c s ih =>
    obtain ⟨hk, hparts⟩ := roots_agree hs ht h
    cases t with
    | whileDo d t =>
      rw [wellFormed_whileDo] at hs ht
      simp only [treeParts, List.cons.injEq, and_true] at hparts
      rw [Condition.spelling_injective hparts.1, ih hs.2 ht.2 hparts.2]
    | block | ifThen | ifElse | call => cases hk
  | call n =>
    obtain ⟨hk, hparts⟩ := roots_agree hs ht h
    cases t with
    | call m =>
      simp only [treeParts, List.cons.injEq, and_true] at hparts
      rw [hparts]
    | block | ifThen | ifElse | whileDo => cases hk

/-- **The dump identifies the statement.** Two well-formed statements, of whatever kinds, can be
    dumped, and both dumps are the same text exactly if both statements are the same tree. -/
theorem dump_identifies (s t : Statement) (hs : s.WellFormed) (ht : t.WellFormed) :
    ∃ x y, s.dump = .ok (x, s) ∧ t.dump = .ok (y, t) ∧ (x = y ↔ s = t) := by
  refine ⟨s.tree, t.tree, dump_eq hs, dump_eq ht, eq_of_tree_eq hs ht, ?_⟩
  rintro rfl
  rfl

/-- Two blocks with the same words between their parentheses: the call stands inside the conditional
    or behind it. -/
theorem dump_identifies_sample :
    ∃ x y,
      (block [.ifThen .random (.block [.call "go"])]).dump =
        .ok (x, .block [.ifThen .random (.block [.call "go"])]) ∧
      (block [.ifThen .random (.block []), .call "go"]).dump =
        .ok (y, .block [.ifThen .random (.block []), .call "go"]) ∧
      x ≠ y := by
  obtain ⟨x, y, hx, hy, hxy⟩ := dump_identifies (.block [.ifThen .random (.block [.call "go"])])
    (.block [.ifThen .random (.block []), .call "go"]) (by decide) (by decide)
  refine ⟨x, y, hx, hy, fun h => ?_⟩
  have hst := hxy.1 h
  simp at hst

end Statement

end BL
