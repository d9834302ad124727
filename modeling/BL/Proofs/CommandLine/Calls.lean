import BL.CommandLine.Arguments
import BL.Violation
import Mathlib.Data.List.Basic

namespace BL.CommandLine

/-!
# Formatting calls

A formatting call names an input and perhaps an output path, and sets no option but that for
statements.  If its names are values then it asks for what it looks like; and in a call that makes a
request they are, since nothing but a value sets the input or follows the option for the output:

* `Calls` — the arguments of a formatting call;
* `IsValue` — names that do not look like options;
* `Draft.Asks` — what the arguments so far ask for, step by step;
* `Draft.input_add` — only a value sets the input;
* `Calls.ofArguments_eq` — what a call asks for;
* `Calls.isValue` — in a call that makes a request the names are values;
* `Request.ofArguments_eq_of_isShared` — both editions of the rules for arguments agree if no
  argument has attached to it what they take differently.
-/

/-- The option for statements, so many times. -/
def modes (n : Nat) : List String := .replicate n "--statements"

/-- What it looks like. -/
def modeLooks (n : Nat) : List Argument := .replicate n (.long .statements none)

/-- The arguments name the input, and then the output path if there is one.  The option for
    statements stands anywhere around them, or nowhere. -/
def Calls (asStatements : Bool) (input : String) (output : Option String)
    (arguments : List String) : Prop :=
  ∃ i j k, asStatements = decide (0 < i + j + k) ∧
    arguments = modes i ++ input :: (modes j ++ (output.elim [] (["-o", ·]) ++ modes k))

/-- The text looks like a value in front of the separator. -/
structure IsValue (text : String) : Prop where
  looks : Argument.ofText text = .ok (.plain text)
  ne : text ≠ "--"

/-! ### What arguments look like -/

namespace Argument

/-- What looks like a value is the value. -/
theorem eq_of_ofText {text t : String} (h : ofText text = .ok (.plain t)) : t = text := by
  have hother : ∀ {s}, ofOther text = plain s → s = text := by
    intro s hs
    unfold ofOther at hs
    split at hs <;> simp_all
  unfold ofText at h
  split at h
  · split at h
    · unfold ofLong at h
      split at h
      split at h
      · simp at h
      · split at h
        · exact hother (Except.ok.inj h)
        · simp at h
        · simp at h
    · unfold ofShort at h
      split at h
      · simp at h
      · exact hother (Except.ok.inj h)
  · simpa using h.symm

theorem ofTexts_cons {text : String} (h : text ≠ "--") (texts : List String) :
    ofTexts (text :: texts) = do
      let a ← ofText text
      let rest ← ofTexts texts
      return a :: rest := by
  rw [ofTexts, if_neg h]

/-- The option for statements, in front of anything. -/
theorem ofTexts_modes (n : Nat) (texts : List String) :
    ofTexts (modes n ++ texts) = (modeLooks n ++ ·) <$> ofTexts texts := by
  induction n with
  | zero => simp [modes, modeLooks]
  | succ n ih =>
    have hlook : ofText "--statements" = .ok (.long .statements none) := by decide
    rw [modes, List.replicate_succ, List.cons_append, ofTexts_cons (by decide), hlook, ← modes, ih]
    cases ofTexts texts <;> rfl

end Argument

/-! ### What options do -/

namespace Draft

variable {edition : Edition} {d e : Draft} {a : Argument}

/-- Setting an option does not touch the input. -/
theorem input_set {f : Flag} {value : String} (h : d.set edition f value = .ok e) :
    e.input = d.input := by
  cases f <;> simp only [set, Except.ok.injEq, reduceCtorEq] at h <;> rw [← h]

theorem input_setAll {fs : List Flag} {value : String} (h : d.setAll edition fs value = .ok e) :
    e.input = d.input := by
  induction fs generalizing d with
  | nil => exact congrArg input (Except.ok.inj h).symm
  | cons f fs ih =>
    rw [setAll, List.foldlM_cons] at h
    obtain ⟨d', hset, h⟩ := exists_of_bind_eq_ok h
    exact (ih h).trans (input_set hset)

theorem input_addOptions {o : Options} (h : d.addOptions edition o = .ok e) :
    e.input = d.input := by
  obtain ⟨fs, value, surplus⟩ := o
  cases value with
  | some value =>
    have hset : { d with surplus := d.surplus ++ surplus }.setAll edition fs value = .ok e := h
    exact (input_setAll hset).trans rfl
  | none =>
    simp only [addOptions] at h
    split at h
    · rw [← Except.ok.inj h]
    · exact (input_setAll h).trans rfl

/-- Only values come behind options that wait. -/
theorem exists_plain_of_waiting (hw : d.waiting ≠ []) (h : d.add edition a = .ok e) :
    ∃ value, a = .plain value ∧
      { d with waiting := [], besideInput := false }.setAll edition d.waiting value = .ok e := by
  obtain ⟨f, fs, hw⟩ := List.exists_cons_of_ne_nil hw
  cases a <;> simp only [add, hw, reduceCtorEq] at h
  exact ⟨_, rfl, hw ▸ h⟩

/-- **Input.** Only a value sets the input, and only if no option waits for it. -/
theorem input_add (h : d.add edition a = .ok e) (hi : e.input ≠ d.input) :
    d.waiting = [] ∧ ∃ t, a = .plain t := by
  by_cases hw : d.waiting = []
  · refine ⟨hw, ?_⟩
    cases a with
    | plain t => exact ⟨t, rfl⟩
    | separator =>
      simp only [add, hw] at h
      split at h <;> cases h <;> exact absurd rfl hi
    | unknown t =>
      simp only [add, hw] at h
      cases h
      exact absurd rfl hi
    | long f value =>
      simp only [add, hw] at h
      obtain ⟨o, -, h⟩ := exists_of_bind_eq_ok h
      exact absurd (input_addOptions h) hi
    | short f attached =>
      simp only [add, hw] at h
      obtain ⟨o, -, h⟩ := exists_of_bind_eq_ok h
      exact absurd (input_addOptions h) hi
  · obtain ⟨value, -, h⟩ := exists_plain_of_waiting hw h
    exact absurd (input_setAll h) hi

theorem input_add_of_ne_plain (h : d.add edition a = .ok e) (ha : ∀ t, a ≠ .plain t) :
    e.input = d.input := by
  by_contra hi
  obtain ⟨-, t, ht⟩ := input_add h hi
  exact ha t ht

/-- A request has an input. -/
theorem input_ne_of_finish {r : Request} (h : d.finish = .ok r) : d.input ≠ none := by
  intro hnone
  unfold finish at h
  rw [hnone] at h
  split at h <;> simp_all

/-- The draft asks for nothing but this. -/
structure Asks (d : Draft) (input output : Option String) (asStatements : Bool) : Prop where
  input : d.input = input
  output : d.output = output
  statements : d.statements = asStatements
  tokens : d.tokens = false
  tree : d.tree = false
  surplus : d.surplus = []
  waiting : d.waiting = []

variable {input output : Option String} {asStatements : Bool} {text : String}

theorem asks_empty : Asks empty none none false := ⟨rfl, rfl, rfl, rfl, rfl, rfl, rfl⟩

theorem Asks.add_mode (h : Asks d input output asStatements) (edition : Edition) :
    ∃ e, d.add edition (.long .statements none) = .ok e ∧ Asks e input output true := by
  refine ⟨{ d with statements := true, waiting := [], besideInput := false }, ?_, ?_⟩
  · simp [add, h.waiting, Argument.longOptions, Options.bare, orUsage, addOptions, setAll, set,
      Flag.hasValue, bind, Except.bind, pure, Except.pure]
  · exact ⟨h.input, h.output, rfl, h.tokens, h.tree, h.surplus, rfl⟩

/-- The option for statements asks for nothing else. -/
theorem Asks.add_modes (h : Asks d input output asStatements) (edition : Edition) (n : Nat) :
    ∃ e, (modeLooks n).foldlM (add edition) d = .ok e ∧
      Asks e input output (asStatements || decide (0 < n)) := by
  induction n generalizing d asStatements with
  | zero => exact ⟨d, rfl, by simpa using h⟩
  | succ n ih =>
    obtain ⟨d', hadd, h'⟩ := h.add_mode edition
    obtain ⟨e, hfold, he⟩ := ih h'
    refine ⟨e, ?_, by simpa using he⟩
    rw [modeLooks, List.replicate_succ, List.foldlM_cons, hadd]
    exact hfold

/-- A value sets the input if there is none. -/
theorem Asks.add_input (h : Asks d none output asStatements) (edition : Edition)
    (text : String) :
    ∃ e, d.add edition (.plain text) = .ok e ∧ Asks e (some text) output asStatements := by
  refine ⟨{ d with input := some text, waiting := [], besideInput := true }, ?_, ?_⟩
  · simp [add, h.waiting, addPlain, h.input]
  · exact ⟨rfl, h.output, h.statements, h.tokens, h.tree, h.surplus, rfl⟩

/-- The option for the output sets it to the value behind it. -/
theorem Asks.add_output (h : Asks d input output asStatements) (edition : Edition)
    (hp : text ≠ "--") :
    ∃ e, [.short .output [], .plain text].foldlM (add edition) d = .ok e ∧
      Asks e input (some text) asStatements := by
  refine ⟨{ d with output := some text, waiting := [], besideInput := false }, ?_, ?_⟩
  · simp [add, h.waiting, Argument.shortOptions, Options.bare, orUsage, addOptions, setAll, set,
      Flag.hasValue, Edition.outputOf, hp, bind, Except.bind, pure, Except.pure]
  · exact ⟨h.input, rfl, h.statements, h.tokens, h.tree, h.surplus, rfl⟩

theorem Asks.finish (h : Asks d (some text) output asStatements) :
    d.finish = .ok ⟨text, output, asStatements, false, false⟩ := by
  simp [Draft.finish, h.waiting, h.input, h.surplus, h.output, h.statements, h.tokens, h.tree]

/-- The option for statements does not set the input. -/
theorem input_modes {n : Nat} (h : (modeLooks n).foldlM (add edition) d = .ok e) :
    e.input = d.input := by
  induction n generalizing d with
  | zero => exact congrArg input (Except.ok.inj h).symm
  | succ n ih =>
    rw [modeLooks, List.replicate_succ, List.foldlM_cons] at h
    obtain ⟨d', hadd, h⟩ := exists_of_bind_eq_ok h
    exact (ih h).trans (input_add_of_ne_plain hadd (by simp))

/-- The option for the output takes the value behind it, and leaves the input alone. -/
theorem exists_plain_of_output (h : [.short .output [], a].foldlM (add edition) d = .ok e) :
    (∃ t, a = .plain t) ∧ e.input = d.input := by
  rw [List.foldlM_cons] at h
  obtain ⟨d', hadd, h⟩ := exists_of_bind_eq_ok h
  have hinput : d'.input = d.input := input_add_of_ne_plain hadd (by simp)
  -- It waits for its value.
  have hwaits : d'.waiting ≠ [] := by
    cases hw : d.waiting with
    | nil =>
      simp [add, hw, Argument.shortOptions, Options.bare, orUsage, addOptions, Flag.hasValue, bind,
        Except.bind] at hadd
      simp [← hadd]
    | cons f fs => simp [add, hw] at hadd
  obtain ⟨e', hadd', h⟩ := exists_of_bind_eq_ok h
  obtain rfl : e' = e := Except.ok.inj h
  obtain ⟨t, rfl, hset⟩ := exists_plain_of_waiting hwaits hadd'
  exact ⟨⟨t, rfl⟩, (input_setAll hset).trans hinput⟩

end Draft

/-! ### Calls -/

namespace Calls

variable {edition : Edition} {asStatements : Bool} {input path : String} {output : Option String}
  {arguments : List String} {r : Request}

/-- What the option for an output path looks like, given what its value looks like. -/
def outputLooks : Option Argument → List Argument
  | none => []
  | some b => [.short .output [], b]

/-- What the arguments of a call look like. -/
def looks (i j k : Nat) (a : Argument) (b : Option Argument) : List Argument :=
  modeLooks i ++ a :: (modeLooks j ++ (outputLooks b ++ modeLooks k))

theorem ofTexts_eq (i j k : Nat) (hi : input ≠ "--") (ho : ∀ path ∈ output, path ≠ "--") :
    Argument.ofTexts (modes i ++ input :: (modes j ++ (output.elim [] (["-o", ·]) ++ modes k))) = do
      let a ← Argument.ofText input
      let b ← output.mapM Argument.ofText
      return looks i j k a b := by
  have hlook : Argument.ofText "-o" = .ok (.short .output []) := by decide
  have hend : Argument.ofTexts (modes k) = .ok (modeLooks k) := by
    simpa [Argument.ofTexts] using Argument.ofTexts_modes k []
  rw [Argument.ofTexts_modes, Argument.ofTexts_cons hi, Argument.ofTexts_modes]
  cases output with
  | none =>
    simp only [Option.elim, List.nil_append, hend]
    cases Argument.ofText input <;> rfl
  | some path =>
    simp only [Option.elim, List.cons_append, List.nil_append]
    rw [Argument.ofTexts_cons (by decide), Argument.ofTexts_cons (ho path rfl), hlook, hend,
      Option.mapM_some]
    cases Argument.ofText input <;> cases Argument.ofText path <;> rfl

/-- **Requests of calls.** A call whose names are values asks for what it looks like. -/
theorem ofArguments_eq (hc : Calls asStatements input output arguments) (hi : IsValue input)
    (ho : ∀ path ∈ output, IsValue path) :
    Request.ofArguments edition arguments = .ok ⟨input, output, asStatements, false, false⟩ := by
  obtain ⟨i, j, k, rfl, rfl⟩ := hc
  have hlooks := ofTexts_eq i j k hi.ne fun path hpath => (ho path hpath).ne
  have hb : output.mapM Argument.ofText = .ok (output.map .plain) := by
    cases output with
    | none => rfl
    | some path => rw [Option.mapM_some, (ho path rfl).looks]; rfl
  rw [hi.looks, hb] at hlooks
  -- The arguments are added one after the other.
  obtain ⟨d₀, hfront, h₀⟩ := Draft.asks_empty.add_modes edition i
  obtain ⟨d₁, hinput, h₁⟩ := h₀.add_input edition input
  obtain ⟨d₂, hmiddle, h₂⟩ := h₁.add_modes edition j
  obtain ⟨d₃, houtput, h₃⟩ :
      ∃ d₃, (outputLooks (output.map .plain)).foldlM (Draft.add edition) d₂ = .ok d₃ ∧
        d₃.Asks (some input) output (false || decide (0 < i) || decide (0 < j)) := by
    cases output with
    | none => exact ⟨d₂, rfl, h₂⟩
    | some path => exact h₂.add_output edition (ho path rfl).ne
  obtain ⟨last, hback, hlast⟩ := h₃.add_modes edition k
  have hfold : (looks i j k (.plain input) (output.map .plain)).foldlM (Draft.add edition)
      Draft.empty = .ok last := by
    simp [looks, hfront, hinput, hmiddle, houtput, hback, bind, Except.bind]
  have hmodes : (false || decide (0 < i) || decide (0 < j) || decide (0 < k)) =
      decide (0 < i + j + k) := by grind
  rw [Request.ofArguments, hlooks]
  exact (congrArg (· >>= Draft.finish) hfold).trans (hmodes ▸ hlast.finish)

/-- If there is an input behind all arguments of a call, then its names look like values. -/
theorem plain_of_looks {i j k : Nat} {a b : Argument} {d : Draft}
    (h : (looks i j k a (some b)).foldlM (Draft.add edition) Draft.empty = .ok d)
    (hd : d.input ≠ none) :
    (∃ t, a = .plain t) ∧ ∃ t, b = .plain t := by
  rw [looks, List.foldlM_append] at h
  obtain ⟨d₀, hfront, h⟩ := exists_of_bind_eq_ok h
  rw [List.foldlM_cons] at h
  obtain ⟨d₁, hinput, h⟩ := exists_of_bind_eq_ok h
  rw [List.foldlM_append] at h
  obtain ⟨d₂, hmiddle, h⟩ := exists_of_bind_eq_ok h
  rw [List.foldlM_append] at h
  obtain ⟨d₃, houtput, hback⟩ := exists_of_bind_eq_ok h
  obtain ⟨hb, h₃⟩ := Draft.exists_plain_of_output houtput
  -- There is no input before `a` comes, and none of the arguments behind it sets one.
  have hempty : d₀.input = none := Draft.input_modes hfront
  have hkept : d.input = d₁.input :=
    ((Draft.input_modes hback).trans h₃).trans (Draft.input_modes hmiddle)
  have hne : d₁.input ≠ d₀.input := by
    rw [← hkept, hempty]
    exact hd
  exact ⟨(Draft.input_add hinput hne).2, hb⟩

/-- **Names of calls.** In a call that makes a request the names are values. -/
theorem isValue (hc : Calls asStatements input (some path) arguments) (hi : input ≠ "--")
    (hp : path ≠ "--") (h : Request.ofArguments edition arguments = .ok r) :
    IsValue input ∧ IsValue path := by
  obtain ⟨i, j, k, rfl, rfl⟩ := hc
  rw [Request.ofArguments, ofTexts_eq i j k hi (by simpa using hp), Option.mapM_some] at h
  cases ha : Argument.ofText input with
  | error e => simp [ha, bind, Except.bind] at h
  | ok a =>
    cases hb : Argument.ofText path with
    | error e => simp [ha, hb, bind, Except.bind] at h
    | ok b =>
      rw [ha, hb] at h
      have h : (looks i j k a (some b)).foldlM (Draft.add edition) Draft.empty >>= Draft.finish =
          .ok r := h
      obtain ⟨d, hfold, hfinish⟩ := exists_of_bind_eq_ok h
      obtain ⟨⟨t, rfl⟩, u, rfl⟩ := plain_of_looks hfold (Draft.input_ne_of_finish hfinish)
      obtain rfl := Argument.eq_of_ofText ha
      obtain rfl := Argument.eq_of_ofText hb
      exact ⟨⟨ha, hi⟩, ⟨hb, hp⟩⟩

end Calls

/-! ### What the editions share -/

/-- Nothing is attached to a short option without a value, and two hyphens are no value. -/
def Argument.IsShared : Argument → Prop
  | .plain text => text ≠ "--"
  | .long _ value => value ≠ some "--"
  | .short f attached =>
    attached = [] ∨ f.hasValue = true ∧ attached ∉ [['-', '-'], ['=', '-', '-']]
  | .separator | .unknown _ => True

/-- A short option that has nothing else attached to it is read alike. -/
theorem Argument.exists_shortOptions {f : Flag} {attached : List Char}
    (h : (Argument.short f attached).IsShared) :
    ∃ o : Options, (∀ e, shortOptions e f attached = .ok o) ∧ o.value ≠ some "--" := by
  have hvalue : ∀ {value : List Char}, value ≠ ['-', '-'] →
      (Options.valued f (String.ofList value)).value ≠ some "--" :=
    fun hne hv => hne (String.ofList_injective (Option.some.inj hv))
  obtain rfl | ⟨hf, hne⟩ := h
  · exact ⟨.bare f, fun _ => rfl, nofun⟩
  rw [List.mem_cons, List.mem_singleton, not_or] at hne
  cases attached with
  | nil => exact ⟨.bare f, fun _ => rfl, nofun⟩
  | cons c cs =>
    by_cases hc : c = '='
    · subst hc
      exact ⟨_, fun e => cluster_of_hasValue hf e true cs, hvalue fun h => hne.2 (by rw [h])⟩
    · exact ⟨_, fun e => (shortOptions_cons hc e f cs).trans (cluster_of_hasValue hf e false _),
        hvalue hne.1⟩

theorem Argument.value_longOptions {f : Flag} {value : Option String} {o : Options}
    (h : longOptions f value = .ok o) : o.value = value := by
  cases value with
  | none => exact congrArg Options.value (Except.ok.inj h).symm
  | some value =>
    simp only [longOptions] at h
    split at h
    · exact congrArg Options.value (Except.ok.inj h).symm
    · cases h

namespace Draft

variable {e e' : Edition} {d : Draft} {a : Argument}

theorem setAll_eq_of_ne {value : String} (h : value ≠ "--") (e e' : Edition) (d : Draft)
    (fs : List Flag) : d.setAll e fs value = d.setAll e' fs value := by
  have hset : ∀ (d : Draft) f, d.set e f value = d.set e' f value := by
    intro d f
    cases f <;> simp [set, Edition.outputOf, h]
  simp only [setAll, hset]

theorem addOptions_eq_of_ne {o : Options} (h : o.value ≠ some "--") :
    d.addOptions e o = d.addOptions e' o := by
  obtain ⟨fs, value, surplus⟩ := o
  cases value with
  | none =>
    have hnone : "" ≠ "--" := by decide
    simp only [addOptions, setAll_eq_of_ne hnone e e']
  | some value =>
    have hv : value ≠ "--" := fun hv => h (congrArg some hv)
    simp only [addOptions, setAll_eq_of_ne hv e e']

/-- Both editions add an argument in the same way. -/
theorem add_eq_of_isShared (h : a.IsShared) (e e' : Edition) (d : Draft) :
    d.add e a = d.add e' a := by
  cases hw : d.waiting with
  | nil =>
    cases a with
    | long f value =>
      simp only [add, hw]
      cases ho : Argument.longOptions f value with
      | error _ => rfl
      | ok o =>
        exact addOptions_eq_of_ne ((Argument.value_longOptions ho).trans_ne h)
    | short f attached =>
      obtain ⟨o, ho, hv⟩ := Argument.exists_shortOptions h
      simp only [add, hw, ho]
      exact addOptions_eq_of_ne hv
    | _ => simp only [add, hw]
  | cons f fs =>
    cases a with
    | plain text =>
      simp only [add, hw]
      exact setAll_eq_of_ne h e e' _ _
    | _ => simp only [add, hw]

theorem foldlM_add_eq {looks : List Argument} (h : ∀ a ∈ looks, a.IsShared) (d : Draft) :
    looks.foldlM (add e) d = looks.foldlM (add e') d := by
  induction looks generalizing d with
  | nil => rfl
  | cons a looks ih =>
    rw [List.foldlM_cons, List.foldlM_cons, add_eq_of_isShared (h a List.mem_cons_self) e e']
    exact congrArg _ (funext fun d => ih (fun b hb => h b (.tail _ hb)) d)

end Draft

/-- **Editions.** Both editions of the rules agree on arguments that share their looks. -/
theorem Request.ofArguments_eq_of_isShared {e e' : Edition} {arguments : List String}
    (h : ∀ looks, Argument.ofTexts arguments = .ok looks → ∀ a ∈ looks, a.IsShared) :
    ofArguments e arguments = ofArguments e' arguments := by
  unfold ofArguments
  cases hlooks : Argument.ofTexts arguments with
  | error _ => rfl
  | ok looks =>
    exact congrArg (· >>= Draft.finish) (Draft.foldlM_add_eq (h looks hlooks) .empty)

-- What they take differently: two hyphens as an output path, and what is attached to help.
example : Request.ofArguments .first ["f.bl", "-o--"] = .ok ⟨"f.bl", none, false, false, false⟩ ∧
    Request.ofArguments .second ["f.bl", "-o--"] =
      .ok ⟨"f.bl", some "--", false, false, false⟩ := by decide

example : Request.ofArguments .first ["-hx"] = .error (.usage (.unusedValue .help "x")) ∧
    Request.ofArguments .second ["-hx"] = .error .help := by decide

end BL.CommandLine
