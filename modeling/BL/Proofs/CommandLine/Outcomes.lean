import BL.CommandLine.Run
import BL.Proofs.Reports
import BL.Proofs.RoundTrip

namespace BL

/-!
# What the command does to files

A run ends in one of a few ways, and what the arguments ask for and what is found at the input tell
in which one.  Only in the last of them a text is written, so that a run that stops early leaves
every file as it is, also the file that it was to write.  This is so on every file system on which
writing changes no other file:

* `Document.Formats` — a source and the text that is printed of what it holds;
* `Document.exists_dump`, `Document.exists_pretty`, `Document.ofSource_eq_error` — what is read can
  be shown and printed, and of what is not read a token is rejected;
* `CommandLine.Ends` — the ways in which a run ends, each with its status and with what is written;
* `CommandLine.ends_effects` — every run ends in one of them;
* `CommandLine.run_of_written`, `CommandLine.run_of_written_none` — what a run does to the state;
* `CommandLine.Promises`, `CommandLine.run_promises` — what every run promises.
-/

/-! ### Documents -/

namespace Document

/-- The source holds a program, or statements if these are asked for, and the text is printed
    of it. -/
def Formats (asStatements : Bool) (source text : String) : Prop :=
  if asStatements then
    ∃ s, Statement.ofSource source = .ok s ∧ s.pretty 0 = .ok (text, s)
  else ∃ p, Program.ofSource source = .ok p ∧ p.pretty = .ok (text, p)

variable {asStatements : Bool} {source text : String} {d : Document}

/-- What is read as statements are well-formed statements. -/
theorem ofSource_true_eq_ok (h : ofSource true source = .ok d) :
    ∃ s, Statement.ofSource source = .ok s ∧ d = statements s ∧ s.WellFormed := by
  cases hs : Statement.ofSource source with
  | ok s =>
    simp only [ofSource, hs, if_true, Except.map, Except.ok.injEq] at h
    exact ⟨s, rfl, h.symm, (Statement.wellFormed_of_ofSource hs).1⟩
  | error f => simp [ofSource, hs, Except.map] at h

/-- What is read as a program is a well-formed program. -/
theorem ofSource_false_eq_ok (h : ofSource false source = .ok d) :
    ∃ p, Program.ofSource source = .ok p ∧ d = program p ∧ p.WellFormed := by
  cases hp : Program.ofSource source with
  | ok p =>
    simp only [ofSource, hp, Bool.false_eq_true, if_false, Except.map, Except.ok.injEq] at h
    exact ⟨p, rfl, h.symm, (Program.wellFormed_of_ofSource hp).1⟩
  | error f => simp [ofSource, hp, Except.map] at h

/-- Both sorts of documents are read first and then printed. -/
theorem formats_iff : Formats asStatements source text ↔
    ∃ d, ofSource asStatements source = .ok d ∧ d.pretty = .ok text := by
  cases asStatements with
  | true =>
    constructor
    · rintro ⟨s, hs, hprint⟩
      exact ⟨statements s, by simp [ofSource, hs, Except.map], by simp [pretty, hprint, Except.map]⟩
    · rintro ⟨d, hd, hprint⟩
      obtain ⟨s, hs, rfl, hwf⟩ := ofSource_true_eq_ok hd
      have hpretty := Statement.pretty_eq hwf 0
      simp only [pretty, hpretty, Except.map, Except.ok.injEq] at hprint
      exact ⟨s, hs, hprint ▸ hpretty⟩
  | false =>
    constructor
    · rintro ⟨p, hp, hprint⟩
      exact ⟨program p, by simp [ofSource, hp, Except.map], by simp [pretty, hprint, Except.map]⟩
    · rintro ⟨d, hd, hprint⟩
      obtain ⟨p, hp, rfl, hwf⟩ := ofSource_false_eq_ok hd
      have hpretty := hwf.pretty_eq
      simp only [pretty, hpretty, Except.map, Except.ok.injEq] at hprint
      exact ⟨p, hp, hprint ▸ hpretty⟩

/-- A name and a well-formed tree can be shown. -/
theorem exists_namedTree (name : String) {s : Statement} (hs : s.WellFormed) :
    ∃ text, namedTree name s = .ok text := by
  rw [namedTree, Statement.dump_eq hs]
  exact ⟨_, rfl⟩

/-- A step that succeeds at each entry succeeds at all of them. -/
theorem exists_mapM {α β ε : Type} {f : α → Except ε β} {xs : List α}
    (h : ∀ x ∈ xs, ∃ y, f x = .ok y) : ∃ ys, xs.mapM f = .ok ys := by
  induction xs with
  | nil => exact ⟨[], rfl⟩
  | cons x xs ih =>
    obtain ⟨y, hy⟩ := h x List.mem_cons_self
    obtain ⟨ys, hys⟩ := ih fun z hz => h z (.tail _ hz)
    rw [List.mapM_cons, hy]
    exact ⟨y :: ys, by rw [show xs.mapM f = .ok ys from hys]; rfl⟩

/-- What is read can be shown as trees. -/
theorem exists_dump (h : ofSource asStatements source = .ok d) : ∃ shown, d.dump = .ok shown := by
  cases asStatements with
  | true =>
    obtain ⟨s, -, rfl, hs⟩ := ofSource_true_eq_ok h
    rw [dump, Statement.dump_eq hs]
    exact ⟨_, rfl⟩
  | false =>
    obtain ⟨p, -, rfl, hp⟩ := ofSource_false_eq_ok h
    obtain ⟨definitions, hd⟩ := exists_mapM fun e he => exists_namedTree e.1 (hp.entries e he).2.2
    obtain ⟨body, hb⟩ := exists_namedTree p.name hp.body.2
    rw [dump, hd, hb]
    exact ⟨_, rfl⟩

/-- What is read can be printed. -/
theorem exists_pretty (h : ofSource asStatements source = .ok d) :
    ∃ text, d.pretty = .ok text := by
  cases asStatements with
  | true =>
    obtain ⟨s, -, rfl, hs⟩ := ofSource_true_eq_ok h
    rw [pretty, Statement.pretty_eq hs]
    exact ⟨_, rfl⟩
  | false =>
    obtain ⟨p, -, rfl, hp⟩ := ofSource_false_eq_ok h
    rw [pretty, hp.pretty_eq]
    exact ⟨_, rfl⟩

/-- What is not read is rejected at a token. -/
theorem ofSource_eq_error {f : Fault} (h : ofSource asStatements source = .error f) :
    ∃ e, f = .rejected e ∧ e.token ∈ Source.tokens source := by
  cases asStatements with
  | true =>
    cases hs : Statement.ofSource source with
    | ok s => simp [ofSource, hs, Except.map] at h
    | error g =>
      obtain rfl : g = f := by simpa [ofSource, hs, Except.map] using h
      exact Source.rejects_token (.inr hs)
  | false =>
    cases hp : Program.ofSource source with
    | ok p => simp [ofSource, hp, Except.map] at h
    | error g =>
      obtain rfl : g = f := by simpa [ofSource, hp, Except.map] using h
      exact Source.rejects_token (.inl hp)

end Document

namespace CommandLine

/-! ### The ways to end -/

/-- A formatted text is asked for, and to be written to this path. -/
structure Request.WritesTo (r : Request) (path : String) : Prop where
  format : r.tree = false
  output : r.output = some path
  named : path ≠ ""

theorem Request.WritesTo.unique {r : Request} {path other : String} (h : r.WritesTo path)
    (h' : r.WritesTo other) : path = other :=
  Option.some.inj (h.output.symm.trans h'.output)

variable {σ φ ε : Type}

/-- How a run ends, by what its arguments ask for and by what is found at paths: with which status,
    and with what text written at what path, if any. -/
inductive Ends (find : String → Found ε) :
    Except Ending Request → Status ε → Option (String × String) → Prop
  /-- Help was asked for. -/
  | help : Ends find (.error .help) (.exited 0) none
  /-- The arguments are wrong. -/
  | usage (e : UsageError) : Ends find (.error (.usage e)) (.exited 2) none
  /-- The input is named otherwise than source files are. -/
  | suffix {r : Request} (h : hasSourceSuffix r.input = false) : Ends find (.ok r) (.exited 1) none
  /-- There is no such input. -/
  | missing {r : Request} (h : find r.input = .nothing) : Ends find (.ok r) (.exited 1) none
  /-- No text can be read there. -/
  | unreadable {r : Request} {e : ε} (hs : hasSourceSuffix r.input = true)
      (h : find r.input = .unreadable e) : Ends find (.ok r) (.unreadable e r.input) none
  /-- A token of the input is rejected. -/
  | rejected {r : Request} {content : String} {e : Rejection}
      (h : find r.input = .text content)
      (he : Document.ofSource r.statements (Text.readText content) = .error (.rejected e)) :
      Ends find (.ok r) (.exited 1) none
  /-- What the input holds is shown, or printed on the standard output. -/
  | shown {r : Request} {content : String} {d : Document}
      (hs : hasSourceSuffix r.input = true) (h : find r.input = .text content)
      (hd : Document.ofSource r.statements (Text.readText content) = .ok d)
      (hw : ∀ path, ¬ r.WritesTo path) : Ends find (.ok r) (.exited 0) none
  /-- What the input holds is printed to the output path. -/
  | written {r : Request} {content path text : String} {d : Document}
      (hs : hasSourceSuffix r.input = true) (h : find r.input = .text content)
      (hd : Document.ofSource r.statements (Text.readText content) = .ok d)
      (ht : d.pretty = .ok text) (hw : r.WritesTo path) :
      Ends find (.ok r) (.exited 0) (some (path, text))

namespace Ends

variable {find : String → Found ε} {r : Request} {content path text : String} {d : Document}
  {status : Status ε} {written : Option (String × String)}

theorem of_help (h : Ends find (.error .help) status written) :
    status = .exited 0 ∧ written = none := by
  cases h; exact ⟨rfl, rfl⟩

theorem of_usage {e : UsageError} (h : Ends find (.error (.usage e)) status written) :
    status = .exited 2 ∧ written = none := by
  cases h; exact ⟨rfl, rfl⟩

theorem of_suffix (h : Ends find (.ok r) status written) (hs : hasSourceSuffix r.input = false) :
    status = .exited 1 ∧ written = none := by
  cases h <;> simp_all

theorem of_missing (h : Ends find (.ok r) status written) (hf : find r.input = .nothing) :
    status = .exited 1 ∧ written = none := by
  cases h <;> simp_all

theorem of_unreadable {e : ε} (h : Ends find (.ok r) status written)
    (hs : hasSourceSuffix r.input = true) (hf : find r.input = .unreadable e) :
    status = .unreadable e r.input ∧ written = none := by
  cases h <;> simp_all

theorem of_rejected {f : Fault} (h : Ends find (.ok r) status written)
    (hc : find r.input = .text content)
    (hf : Document.ofSource r.statements (Text.readText content) = .error f) :
    status = .exited 1 ∧ written = none := by
  cases h <;> simp_all

/-- Only formatted texts are written, and only to where they are to be written. -/
theorem of_writing {asked : Except Ending Request}
    (h : Ends find asked status (some (path, text))) :
    status = .exited 0 ∧ ∃ r content, asked = .ok r ∧ hasSourceSuffix r.input = true ∧
      find r.input = .text content ∧ r.WritesTo path ∧
      Document.Formats r.statements (Text.readText content) text := by
  cases h with
  | written hs hc hd ht hw => exact ⟨rfl, _, _, rfl, hs, hc, hw, Document.formats_iff.2 ⟨_, hd, ht⟩⟩

/-- What is read is printed to the output path if there is one. -/
theorem of_document (h : Ends find (.ok r) status written)
    (hs : hasSourceSuffix r.input = true) (hc : find r.input = .text content)
    (hd : Document.ofSource r.statements (Text.readText content) = .ok d) :
    status = .exited 0 ∧ ((∀ path, ¬ r.WritesTo path) ∧ written = none ∨
      ∃ path text, r.WritesTo path ∧ d.pretty = .ok text ∧ written = some (path, text)) := by
  cases h with
  | shown _ _ _ hw => exact ⟨rfl, .inl ⟨hw, rfl⟩⟩
  | written _ hc' hd' ht hw =>
    obtain rfl := Found.text.inj (hc.symm.trans hc')
    obtain rfl := Except.ok.inj (hd.symm.trans hd')
    exact ⟨rfl, .inr ⟨_, _, hw, ht, rfl⟩⟩
  | _ => simp_all

end Ends

/-! ### Effects -/

/-- What is to be written, and where. -/
def Effects.written (e : Effects ε) : Option (String × String) :=
  e.writing.map fun w => (w.path, w.text)

variable {r : Request} {source text path : String} {d : Document} {e : Effects ε}

/-- What becomes of a source comes behind its tokens, which are listed only if they are asked
    for. -/
theorem sourceEffects_of_document (hd : Document.ofSource r.statements source = .ok d)
    (he : documentEffects r d = .ok e) :
    ∃ listing, (r.tokens = false → listing = "") ∧ sourceEffects r source = e.after listing := by
  refine ⟨if r.tokens then String.join ((Source.tokens source).map tokenLine) else "",
    fun h => by simp [h], ?_⟩
  simp [sourceEffects, hd, he, bind, Except.bind]

/-- A rejected source ends the run with code one. -/
theorem sourceEffects_of_rejected {x : Rejection}
    (hd : Document.ofSource r.statements source = .error (.rejected x)) :
    (sourceEffects r source : Effects ε).status = .exited 1 ∧
      (sourceEffects r source : Effects ε).written = none := by
  simp [sourceEffects, hd, bind, Except.bind, Effects.after, Effects.complain, Effects.written]

/-- Trees are shown on the standard output. -/
theorem documentEffects_of_tree (ht : r.tree = true) (hd : d.dump = .ok text) :
    documentEffects r d = .ok (.print text 0 : Effects ε) := by
  simp [documentEffects, ht, hd, Except.map]

/-- A formatted text is written to the output path. -/
theorem documentEffects_of_writesTo (hw : r.WritesTo path) (hd : d.pretty = .ok text) :
    documentEffects r d = .ok (⟨"", "", .exited 0, some ⟨path, text,
      "Success! Pretty-printed program written to: " ++ path ++ "\n"⟩⟩ : Effects ε) := by
  simp [documentEffects, hw.format, hd, Except.map, textEffects, hw.output, Option.filter,
    hw.named]

/-- Without an output path it is printed. -/
theorem documentEffects_of_not_writesTo (ht : r.tree = false) (hw : ∀ path, ¬ r.WritesTo path)
    (hd : d.pretty = .ok text) : documentEffects r d = .ok (.print text 0 : Effects ε) := by
  have hnone : r.output.filter (· ≠ "") = none := by
    rw [Option.filter_eq_none_iff]
    intro path hpath hne
    exact hw path ⟨ht, hpath, by simpa using hne⟩
  have hprint : textEffects r text = (.print text 0 : Effects ε) := by rw [textEffects, hnone]
  simp [documentEffects, ht, hd, Except.map, hprint]

/-- **Requests.** Every request ends in one of the ways. -/
theorem ends_request (r : Request) (find : String → Found ε) :
    Ends find (.ok r) (r.effects (find r.input)).status (r.effects (find r.input)).written := by
  cases hs : hasSourceSuffix r.input with
  | false => simpa [Request.effects, hs, Effects.print] using .suffix hs
  | true =>
    cases hf : find r.input with
    | nothing => simpa [Request.effects, hs, Effects.print] using .missing hf
    | unreadable e => simpa [Request.effects, hs] using .unreadable hs hf
    | text content =>
      have heq : r.effects (.text content : Found ε) = sourceEffects r (Text.readText content) := by
        simp [Request.effects, hs]
      rw [heq]
      cases hd : Document.ofSource r.statements (Text.readText content) with
      | error f =>
        obtain ⟨x, rfl, -⟩ := Document.ofSource_eq_error hd
        obtain ⟨hstatus, hwritten⟩ := sourceEffects_of_rejected hd
        rw [hstatus, hwritten]
        exact .rejected hf hd
      | ok d =>
        -- What is left is a matter of the options.
        obtain ⟨shown, hshown⟩ := Document.exists_dump hd
        obtain ⟨text, htext⟩ := Document.exists_pretty hd
        by_cases hw : ∃ path, r.WritesTo path
        · obtain ⟨path, hw⟩ := hw
          obtain ⟨listing, -, he⟩ :=
            sourceEffects_of_document hd (documentEffects_of_writesTo hw htext)
          rw [he]
          exact .written hs hf hd htext hw
        · have hw := not_exists.1 hw
          obtain ⟨printed, he⟩ :
              ∃ printed, documentEffects r d = .ok (.print printed 0 : Effects ε) := by
            cases ht : r.tree with
            | true => exact ⟨shown, documentEffects_of_tree ht hshown⟩
            | false => exact ⟨text, documentEffects_of_not_writesTo ht hw htext⟩
          obtain ⟨listing, -, he⟩ := sourceEffects_of_document hd he
          rw [he]
          exact .shown hs hf hd hw

/-- **Arguments.** Every run ends in one of the ways, whatever its arguments are and whatever is
    found. -/
theorem ends_effects (edition : Edition) (arguments : List String) (find : String → Found ε) :
    Ends find (Request.ofArguments edition arguments) (effects edition arguments find).status
      (effects edition arguments find).written := by
  unfold effects
  cases h : Request.ofArguments edition arguments with
  | ok r => exact ends_request r find
  | error e =>
    cases e with
    | help => exact .help
    | usage e => exact .usage e

/-! ### States -/

variable {edition : Edition} {fs : FileSystem σ φ ε} {arguments : List String} {s : σ} {file : φ}

/-- A run without anything to write leaves the state as it is. -/
theorem run_of_written_none (h : (effects edition arguments (fs.find s)).written = none) :
    run edition fs arguments s =
      ⟨(effects edition arguments (fs.find s)).status,
        (effects edition arguments (fs.find s)).stdout,
        (effects edition arguments (fs.find s)).stderr, s⟩ := by
  simp [run, Option.map_eq_none_iff.1 h]

/-- A run with a text to write writes it, and ends as this ends. -/
theorem run_of_written (h : (effects edition arguments (fs.find s)).written = some (path, text)) :
    (run edition fs arguments s).state = (fs.write s path text).2 ∧
      ((fs.write s path text).1 = .ok () ∧
          (run edition fs arguments s).status = (effects edition arguments (fs.find s)).status ∨
        ∃ e, (fs.write s path text).1 = .error e ∧
          (run edition fs arguments s).status = .unwritable e path) := by
  obtain ⟨w, hw, hpair⟩ := Option.map_eq_some_iff.1 h
  cases hpair
  rcases hwrite : fs.write s w.path w.text with ⟨⟨⟩ | e, s'⟩ <;> simp [run, hw, hwrite]

/-- The run ends with the code and leaves the state as it is. -/
def Outcome.Leaves (o : Outcome σ ε) (s : σ) (code : Nat) : Prop :=
  o.status = .exited code ∧ o.state = s

/-! ### Files of one directory -/

/-- The text is the name of a file in a directory. -/
def IsFileName (path : String) : Prop := path ∉ ["", ".", ".."] ∧ '/' ∉ path.toList

instance (path : String) : Decidable (IsFileName path) := inferInstanceAs (Decidable (_ ∧ _))

/-- The files of one directory, under their names.  Nothing can be written elsewhere. -/
def FileSystem.flat : FileSystem (Table String) String Unit where
  find files path := (files.find? path).elim .nothing .text
  write files path text :=
    if IsFileName path then (.ok (), files.insert path text) else (.error (), files)
  content? files name := (files.find? name).map String.toUTF8
  target? _ path := if IsFileName path then some path else none

/-- What is written in a directory is found there again, and nothing else changes. -/
theorem FileSystem.flat_readsBack : FileSystem.flat.ReadsBack where
  others {files path name} text h := by
    by_cases hp : IsFileName path
    · have hne : name ≠ path := by
        rintro rfl
        exact h (if_pos hp)
      simp [flat, hp, Table.find?_insert, hne]
    · simp [flat, hp]
  written {files path name text} _ h := by
    obtain ⟨hp, rfl⟩ : IsFileName path ∧ path = name := by simpa [flat] using h
    simp [flat, hp, Table.find?_insert]
  found {files path name text} h hc := by
    obtain ⟨-, rfl⟩ : IsFileName path ∧ path = name := by simpa [flat] using h
    obtain ⟨content, hfind, hbytes⟩ := Option.map_eq_some_iff.1 hc
    obtain rfl := String.toByteArray_inj.1 hbytes
    simp [flat, hfind]
  target _ := rfl
  again {files path text} h := by
    by_cases hp : IsFileName path
    · simp [flat, hp]
    · simp [flat, hp] at h

/-! ### Promises -/

/-- What a run promises for its arguments and for the file system on which it begins. -/
structure Promises (edition : Edition) (fs : FileSystem σ φ ε) (arguments : List String) (s : σ)
    (o : Outcome σ ε) : Prop where
  /-- No file changes or comes into being but the one that the output path leads to; and it does so
      only for valid arguments, from an input that is there, is named as source files are and holds
      what it is to hold.  It holds the formatted text then, unless writing it failed. -/
  changed : ∀ file, fs.content? o.state file ≠ fs.content? s file →
    ∃ r content path text, Request.ofArguments edition arguments = .ok r ∧
      hasSourceSuffix r.input = true ∧ fs.find s r.input = .text content ∧
      Document.Formats r.statements (Text.readText content) text ∧ r.WritesTo path ∧
      fs.target? s path = some file ∧
      (o.status = .exited 0 ∧ fs.content? o.state file = some text.toUTF8 ∨
        ∃ e, o.status = .unwritable e path)
  /-- The same conditions hold whenever a text is written, whether it changes a file or not. -/
  written : ∀ path text, (effects edition arguments (fs.find s)).written = some (path, text) →
    ∃ r content, Request.ofArguments edition arguments = .ok r ∧
      hasSourceSuffix r.input = true ∧ fs.find s r.input = .text content ∧
      Document.Formats r.statements (Text.readText content) text ∧ r.WritesTo path ∧
      o.state = (fs.write s path text).2
  /-- If no text is written, then there is no new state. -/
  unwritten : (effects edition arguments (fs.find s)).written = none → o.state = s
  /-- Wrong arguments. -/
  usage : ∀ e, Request.ofArguments edition arguments = .error (.usage e) → o.Leaves s 2
  /-- Help. -/
  help : Request.ofArguments edition arguments = .error .help → o.Leaves s 0
  /-- An input that is named otherwise than source files are. -/
  suffix : ∀ r, Request.ofArguments edition arguments = .ok r → hasSourceSuffix r.input = false →
    o.Leaves s 1
  /-- An input that is not there. -/
  missing : ∀ r, Request.ofArguments edition arguments = .ok r → fs.find s r.input = .nothing →
    o.Leaves s 1
  /-- An input that cannot be read. -/
  unreadable : ∀ r e, Request.ofArguments edition arguments = .ok r →
    hasSourceSuffix r.input = true → fs.find s r.input = .unreadable e →
    o.status = .unreadable e r.input ∧ o.state = s
  /-- An input that is rejected. -/
  rejected : ∀ r content f, Request.ofArguments edition arguments = .ok r →
    fs.find s r.input = .text content →
    Document.ofSource r.statements (Text.readText content) = .error f → o.Leaves s 1
  /-- An input that is read: the run succeeds, unless its text cannot be written, and the file that
      the output path leads to holds the text if there is such a path. -/
  success : ∀ r content d, Request.ofArguments edition arguments = .ok r →
    hasSourceSuffix r.input = true → fs.find s r.input = .text content →
    Document.ofSource r.statements (Text.readText content) = .ok d →
    ((∀ path, ¬ r.WritesTo path) → o.Leaves s 0) ∧
    ∀ path, r.WritesTo path → ∃ text, d.pretty = .ok text ∧ o.state = (fs.write s path text).2 ∧
      ((fs.write s path text).1 = .ok () ∧ o.status = .exited 0 ∧
          (∀ file, fs.target? s path = some file → fs.content? o.state file = some text.toUTF8) ∨
        ∃ e, (fs.write s path text).1 = .error e ∧ o.status = .unwritable e path)

/-- **Promises.** Every run keeps its promises, on every file system on which writing changes no
    other file. -/
theorem run_promises (hfs : fs.KeepsFiles) (edition : Edition) (arguments : List String) (s : σ) :
    Promises edition fs arguments s (run edition fs arguments s) := by
  have hends := ends_effects edition arguments (fs.find s)
  have leaves : ∀ {status : Status ε},
      (effects edition arguments (fs.find s)).status = status ∧
        (effects edition arguments (fs.find s)).written = none →
      (run edition fs arguments s).status = status ∧ (run edition fs arguments s).state = s := by
    rintro _ ⟨rfl, h⟩
    rw [run_of_written_none h]
    exact ⟨rfl, rfl⟩
  constructor
  case changed =>
    intro file hne
    cases h : (effects edition arguments (fs.find s)).written with
    | none => exact absurd (by rw [(leaves ⟨rfl, h⟩).2]) hne
    | some w =>
      obtain ⟨path, text⟩ := w
      obtain ⟨hstatus, r, content, hr, hs, hc, hw, hformats⟩ := (h ▸ hends).of_writing
      obtain ⟨hstate, hwrite⟩ := run_of_written h
      rw [hstate] at hne ⊢
      -- A file that changes is the one that the path leads to.
      have htarget : fs.target? s path = some file := by
        by_contra hother
        exact hne (hfs.others text hother)
      refine ⟨r, content, path, text, hr, hs, hc, hformats, hw, htarget, ?_⟩
      obtain ⟨hok, hrun⟩ | ⟨e, -, hrun⟩ := hwrite
      · exact .inl ⟨hrun.trans hstatus, hfs.written hok htarget⟩
      · exact .inr ⟨e, hrun⟩
  case written =>
    intro path text h
    obtain ⟨-, r, content, hr, hs, hc, hw, hformats⟩ := (h ▸ hends).of_writing
    exact ⟨r, content, hr, hs, hc, hformats, hw, (run_of_written h).1⟩
  case unwritten => exact fun h => (leaves ⟨rfl, h⟩).2
  case usage =>
    intro e h
    exact leaves (h ▸ hends).of_usage
  case help =>
    intro h
    exact leaves (h ▸ hends).of_help
  case suffix =>
    intro r h hs
    exact leaves ((h ▸ hends).of_suffix hs)
  case missing =>
    intro r h hf
    exact leaves ((h ▸ hends).of_missing hf)
  case unreadable =>
    intro r e h hs hf
    exact leaves ((h ▸ hends).of_unreadable hs hf)
  case rejected =>
    intro r content f h hc hf
    exact leaves ((h ▸ hends).of_rejected hc hf)
  case success =>
    intro r content d h hs hc hd
    obtain ⟨hstatus, ⟨hw, hnone⟩ | ⟨path, text, hw, ht, hsome⟩⟩ := (h ▸ hends).of_document hs hc hd
    · exact ⟨fun _ => leaves ⟨hstatus, hnone⟩, fun path hpath => absurd hpath (hw path)⟩
    · refine ⟨fun h => absurd hw (h path), fun other hother => ?_⟩
      obtain rfl := hw.unique hother
      obtain ⟨hstate, ⟨hok, hrun⟩ | hfailed⟩ := run_of_written hsome
      · refine ⟨text, ht, hstate, .inl ⟨hok, hrun.trans hstatus, fun file hfile => ?_⟩⟩
        rw [hstate]
        exact hfs.written hok hfile
      · exact ⟨text, ht, hstate, .inr hfailed⟩

/-- A directory with a program that breaks off, and with a file that was written before. -/
def brokenOff : Table String :=
  (Table.empty.insert "f.bl" "PROGRAM p IS BEGIN").insert "g.bl" "kept"

/-- Formatting this program leaves the directory as it is. -/
theorem run_promises_brokenOff :
    FileSystem.flat.KeepsFiles ∧
      Promises .second .flat ["f.bl", "--tokens", "-og.bl"] brokenOff
        (run .second .flat ["f.bl", "--tokens", "-og.bl"] brokenOff) ∧
      (run .second .flat ["f.bl", "--tokens", "-og.bl"] brokenOff).Leaves brokenOff 1 := by
  have hr : Request.ofArguments .second ["f.bl", "--tokens", "-og.bl"] =
      .ok ⟨"f.bl", some "g.bl", false, true, false⟩ := by decide
  have hf : FileSystem.flat.find brokenOff "f.bl" = .text "PROGRAM p IS BEGIN" := by decide
  obtain ⟨f, hd⟩ : ∃ f, Document.ofSource false (Text.readText "PROGRAM p IS BEGIN") = .error f :=
    ⟨_, by with_unfolding_all rfl⟩
  have hfs := FileSystem.flat_readsBack.toKeepsFiles
  have hpromises := run_promises hfs .second ["f.bl", "--tokens", "-og.bl"] brokenOff
  exact ⟨hfs, hpromises, hpromises.rejected _ _ f hr hf hd⟩

end CommandLine

end BL
