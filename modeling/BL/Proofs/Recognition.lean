import BL.Proofs.Grammar.Prefix
import BL.Proofs.Reading.Program

namespace BL

open Grammar TokenQueue

/-!
# Recognition

The readers recognise the grammar: they accept exactly the sequences of words that it derives, give
the tree of the derivation and leave what follows.

* `Reader.exists_statement_eq_ok_iff`, `Reader.exists_block_eq_ok_iff` — which tokens are accepted;
* `Reader.recognises_statements` — what the readers of statements and of blocks accept, what they
  give and what they leave;
* `Reader.recognises_programs` — the same for the sources of programs.
-/

namespace Reader

variable {q r : TokenQueue} {s t : Statement}

/-! ### Accepted beginnings -/

/-- A statement is read exactly if some beginning of the tokens is one, whatever follows. -/
theorem exists_statement_eq_ok_iff :
    (∃ st, statement ⟨q, s⟩ = .ok () st) ↔
      ∃ w r t, q.toList = w ++ r ∧ IsStatement (w.map Token.text) t := by
  constructor
  · rintro ⟨⟨r, t⟩, h⟩
    obtain ⟨w, hw, ht⟩ := givesStatement_iff_tokens.1 (statement_eq_ok_iff.1 h)
    exact ⟨w, r.toList, t, hw, ht⟩
  · rintro ⟨w, r, t, hw, ht⟩
    -- The last token of the queue is no word of a statement, so that something follows.
    have hr : r ≠ [] := by
      rintro rfl
      refine ht.endText_notMem (List.mem_map.2 ⟨q.last, ?_, q.last_text⟩)
      rw [List.append_nil] at hw
      simp [← hw, toList]
    obtain ⟨m, rfl⟩ := exists_toList_eq hw hr
    exact ⟨⟨m, t⟩, statement_eq_ok_iff.2 (givesStatement_iff_tokens.2 ⟨w, hw, ht⟩)⟩

/-- What a block is read from, token by token. -/
theorem block_eq_ok_iff_tokens :
    block ⟨q, s⟩ = .ok () ⟨r, t⟩ ↔
      ∃ w ss, q.toList = w ++ r.toList ∧ IsBlock (w.map Token.text) ss ∧ t = .block ss ∧
        r.front.text ∈ [Token.endText, "ELSE", "END"] := by
  rw [block_eq_ok_iff]
  simp only [givesBlock_iff_tokens, endsBlock_iff]
  constructor
  · rintro ⟨ss, ⟨w, hw, h⟩, he, rfl⟩
    exact ⟨w, ss, hw, h, rfl, he⟩
  · rintro ⟨w, ss, hw, h, rfl, he⟩
    exact ⟨ss, ⟨w, hw, h⟩, he, rfl⟩

/-- A block is read exactly if some beginning of the tokens is one, followed by a token that ends
    it. -/
theorem exists_block_eq_ok_iff :
    (∃ st, block ⟨q, s⟩ = .ok () st) ↔
      ∃ w e r ss, q.toList = w ++ e :: r ∧ IsBlock (w.map Token.text) ss ∧
        e.text ∈ [Token.endText, "ELSE", "END"] := by
  constructor
  · rintro ⟨⟨r, t⟩, h⟩
    obtain ⟨w, ss, hw, hss, -, he⟩ := block_eq_ok_iff_tokens.1 h
    obtain ⟨e, us, hr⟩ := List.exists_cons_of_ne_nil (l := r.toList) (by simp [toList])
    rw [front_eq_of_toList hr] at he
    exact ⟨w, e, us, ss, by rw [hw, hr], hss, he⟩
  · rintro ⟨w, e, us, ss, hw, hss, he⟩
    obtain ⟨m, hm⟩ := exists_toList_eq hw (by simp)
    refine ⟨⟨m, .block ss⟩, block_eq_ok_iff_tokens.2 ⟨w, ss, by rw [hm, hw], hss, rfl, ?_⟩⟩
    rwa [front_eq_of_toList hm]

/-- **Recognition.** Whatever the target was, a statement is read exactly if the tokens begin with
    the words of one; these words are the only such beginning, the target becomes their tree and
    exactly the other tokens are left.  A block is read exactly if the tokens begin with statements
    in a row and go on with a token that ends a block.  From a source, statements are read exactly
    if all its words together are statements in a row. -/
theorem recognises_statements :
    (∀ (q : TokenQueue) (s : Statement),
      (∀ r t, statement ⟨q, s⟩ = .ok () ⟨r, t⟩ ↔
        ∃ w, q.toList = w ++ r.toList ∧ IsStatement (w.map Token.text) t) ∧
      ((∃ st, statement ⟨q, s⟩ = .ok () st) ↔
        ∃ w r t, q.toList = w ++ r ∧ IsStatement (w.map Token.text) t) ∧
      (∀ r t, block ⟨q, s⟩ = .ok () ⟨r, t⟩ ↔
        ∃ w ss, q.toList = w ++ r.toList ∧ IsBlock (w.map Token.text) ss ∧ t = .block ss ∧
          r.front.text ∈ [Token.endText, "ELSE", "END"]) ∧
      ((∃ st, block ⟨q, s⟩ = .ok () st) ↔
        ∃ w e r ss, q.toList = w ++ e :: r ∧ IsBlock (w.map Token.text) ss ∧
          e.text ∈ [Token.endText, "ELSE", "END"])) ∧
    (∀ (w r w' r' : List Token) (t t' : Statement), w ++ r = w' ++ r' →
      IsStatement (w.map Token.text) t → IsStatement (w'.map Token.text) t' →
        w = w' ∧ r = r' ∧ t = t') ∧
    ∀ (source : String) (s : Statement), Statement.ofSource source = .ok s ↔
      ∃ ss, s = .block ss ∧ IsBlock (Source.words source) ss := by
  refine ⟨fun q s => ⟨fun r t => statement_eq_ok_iff.trans givesStatement_iff_tokens,
    exists_statement_eq_ok_iff, fun r t => block_eq_ok_iff_tokens, exists_block_eq_ok_iff⟩,
    fun w r w' r' t t' e h h' => ?_, fun source s => Statement.ofSource_eq_ok_iff⟩
  have he : w.map Token.text ++ r.map Token.text = w'.map Token.text ++ r'.map Token.text := by
    rw [← List.map_append, e, List.map_append]
  obtain ⟨hw, -, rfl⟩ := h.eq_of_append h' he
  obtain ⟨rfl, rfl⟩ := List.append_inj e (by simpa using congrArg List.length hw)
  exact ⟨rfl, rfl, rfl⟩

/-- **Recognition of programs.** A program is read from a source exactly if the words of the source
    are those of a program, with pairwise distinct names of definitions; its name, its definitions
    in their order and its body are those derived.  No source has two derivations. -/
theorem recognises_programs (source : String) :
    (∀ p, Program.ofSource source = .ok p ↔
      IsProgramOf (Source.words source) p.name p.context.entries p.body) ∧
    ((∃ p, Program.ofSource source = .ok p) ↔
      ∃ n es s, IsProgramOf (Source.words source) n es s ∧ (es.map Prod.fst).Nodup) ∧
    ∀ n es s n' es' s', IsProgramOf (Source.words source) n es s →
      IsProgramOf (Source.words source) n' es' s' → n = n' ∧ es = es' ∧ s = s' := by
  refine ⟨fun p => Program.ofSource_eq_ok_iff, ?_, fun n es s n' es' s' h h' => h.unique h'⟩
  constructor
  · rintro ⟨p, hp⟩
    exact ⟨p.name, p.context.entries, p.body, Program.ofSource_eq_ok_iff.1 hp, p.context.distinct⟩
  · rintro ⟨n, es, s, h, hd⟩
    have hp : IsProgram (Source.words source) ⟨n, ⟨es, hd⟩, s⟩ := h
    exact ⟨_, Program.ofSource_eq_ok_iff.2 hp⟩

end Reader

end BL
