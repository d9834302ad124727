import BL.Text.Number
import BL.Text.Quoted

namespace BL.CommandLine

/-!
# Arguments of the command line

Arguments are one input, and options in any order. A long option may be cut short as long as it
stays the only one that begins so; its value follows an equals sign or is the next argument. A short
option may have its value attached, with an equals sign or without, and short options without values
may share one hyphen. Behind two hyphens that stand alone nothing is an option.

There are two editions of these rules. They differ in what may be attached to a short option without
a value, and in what two hyphens mean that are attached as a value.

* `Edition` — the editions;
* `Flag`, `flags` — the options and their spellings;
* `Argument`, `Argument.ofText` — what an argument looks like;
* `Request` — what the arguments ask for;
* `Ending` — why there is no request: help was asked for, or the arguments are wrong;
* `Request.ofArguments` — the request that arguments make.
-/

/-! ### Editions -/

/-- An edition of the rules. -/
inductive Edition where
  | first
  | second
  deriving DecidableEq, Repr

/-! ### Options -/

/-- An option. -/
inductive Flag where
  | help
  | output
  | statements
  | tokens
  | tree
  deriving DecidableEq, Repr

/-- All spellings, in the order in which they are told. -/
def flags : List (String × Flag) := [
  ("-h", .help), ("--help", .help), ("-o", .output), ("--output", .output),
  ("--statements", .statements), ("--tokens", .tokens), ("--tree", .tree)]

/-- The option with a spelling. -/
def flag? (spelling : String) : Option Flag := flags.lookup spelling

namespace Flag

/-- The option has a value. -/
def hasValue (f : Flag) : Bool := f == output

/-- The spellings of the option, as error messages name it. -/
def title (f : Flag) : String :=
  String.intercalate "/" ((flags.filter (·.2 == f)).map Prod.fst)

end Flag

/-! ### Errors -/

/-- What is wrong with the arguments. -/
inductive UsageError where
  | ambiguous (argument : String) (candidates : List String)
  | missingValue (f : Flag)
  | unusedValue (f : Flag) (value : String)
  | missingInput
  | unrecognised (arguments : List String)
  deriving DecidableEq, Repr

namespace UsageError

/-- An error that is about an option. -/
def about (f : Flag) (text : String) : String := "argument " ++ f.title ++ ": " ++ text

/-- The text of the error. -/
def message : UsageError → String
  | ambiguous argument candidates =>
    "ambiguous option: " ++ argument ++ " could match " ++ String.intercalate ", " candidates
  | missingValue f => about f "expected one argument"
  | unusedValue f value => about f ("ignored explicit argument " ++ Text.quote value)
  | missingInput => "the following arguments are required: input"
  | unrecognised arguments => "unrecognized arguments: " ++ String.intercalate " " arguments

end UsageError

/-! ### Single arguments -/

/-- What an argument looks like. -/
inductive Argument where
  /-- A value, or the input. -/
  | plain (text : String)
  /-- The mark that nothing behind it is an option. -/
  | separator
  /-- An option in its long spelling, with the value behind its equals sign. -/
  | long (f : Flag) (value : Option String)
  /-- An option in its short spelling, with all characters attached to it. -/
  | short (f : Flag) (attached : List Char)
  /-- Something like an option that is none. -/
  | unknown (text : String)
  deriving DecidableEq, Repr

namespace Argument

/-- The text is spelled like a long option. -/
def isLong (text : String) : Bool := ['-', '-'].isPrefixOf text.toList

/-- What stands before the first equals sign, and what stands behind it. -/
def splitValue (text : String) : String × Option String :=
  match text.toList.span (· ≠ '=') with
  | (before, []) => (String.ofList before, none)
  | (before, _ :: behind) => (String.ofList before, some (String.ofList behind))

/-- What begins with a hyphen and is no option: a negative number or a text with a space is a value
    all the same. -/
def ofOther (text : String) : Argument :=
  if Text.isNegativeNumber text || text.contains ' ' then plain text else unknown text

/-- A text spelled like a long option, which is one if it is the beginning of one alone. -/
def ofLong (text : String) : Except UsageError Argument :=
  let (start, value) := splitValue text
  match flag? start with
  | some f => .ok (long f value)
  | none =>
    match flags.filter fun e => start.toList.isPrefixOf e.1.toList with
    | [] => .ok (ofOther text)
    | [(_, f)] => .ok (long f value)
    | several => .error (.ambiguous text (several.map Prod.fst))

/-- A text spelled like a short option. -/
def ofShort (text : String) : Argument :=
  match flag? (String.ofList (text.toList.take 2)) with
  | some f => short f (text.toList.drop 2)
  | none => ofOther text

/-- What an argument in front of the separator looks like. A hyphen alone is a value. -/
def ofText (text : String) : Except UsageError Argument :=
  match text.toList with
  | '-' :: _ :: _ => if isLong text then ofLong text else .ok (ofShort text)
  | _ => .ok (plain text)

/-- What arguments look like. -/
def ofTexts : List String → Except UsageError (List Argument)
  | [] => .ok []
  | text :: texts =>
    if text = "--" then .ok (separator :: texts.map plain)
    else do
      let a ← ofText text
      let rest ← ofTexts texts
      return a :: rest

end Argument

/-! ### Options of an argument -/

/-- The options in one argument. -/
structure Options where
  flags : List Flag
  /-- The value attached to the last of them. -/
  value : Option String
  /-- What is left of the argument and has no place. -/
  surplus : List String
  deriving DecidableEq, Repr

namespace Options

/-- One option with nothing attached to it. -/
def bare (f : Flag) : Options := ⟨[f], none, []⟩

/-- One option with its value. -/
def valued (f : Flag) (value : String) : Options := ⟨[f], some value, []⟩

/-- The same options behind another one. -/
def after (f : Flag) (o : Options) : Options := { o with flags := f :: o.flags }

end Options

namespace Edition

/-- What is attached to an option without a value must not begin with this character. In the first
    edition this is never so. In the second one nothing may stand behind an equals sign, and no
    hyphen may stand anywhere. -/
def refuses (edition : Edition) (equals : Bool) (c : Char) : Bool :=
  edition == second && (equals || c == '-')

/-- What is attached to an option without a value and begins with no option. The first edition
    rejects it; in the second one it is an argument without a place. -/
def leftOver (f : Flag) (attached : List Char) : Edition → Except UsageError Options
  | first => .error (.unusedValue f (String.ofList attached))
  | second => .ok ⟨[f], none, [String.ofList ('-' :: attached)]⟩

/-- What two hyphens stand for that are the value of the output option: in the first edition for no
    output at all. -/
def outputOf (edition : Edition) (value : String) : Option String :=
  if edition = first ∧ value = "--" then none else some value

end Edition

namespace Argument

/-- The options that share a hyphen, given the first one and what is attached to it, behind an
    equals sign or not. An option without a value is followed by other options, and in the second
    edition an equals sign may stand behind each of them. -/
def cluster (edition : Edition) (f : Flag) (equals : Bool) (attached : List Char) :
    Except UsageError Options :=
  if f.hasValue then .ok (.valued f (String.ofList attached))
  else
    match attached with
    | [] => .error (.unusedValue f "")
    | c :: rest =>
      if edition.refuses equals c then .error (.unusedValue f (String.ofList (c :: rest)))
      else
        match flag? (String.ofList ['-', c]) with
        | none => edition.leftOver f (c :: rest)
        | some g =>
          match edition, rest with
          | _, [] => .ok ((Options.bare g).after f)
          | .second, '=' :: value => (cluster edition g true value).map (.after f)
          | _, rest => (cluster edition g false rest).map (.after f)

/-- What is attached to an option with a value is its value. -/
theorem cluster_of_hasValue {f : Flag} (h : f.hasValue = true) (edition : Edition) (equals : Bool)
    (attached : List Char) :
    cluster edition f equals attached = .ok (.valued f (String.ofList attached)) := by
  unfold cluster
  exact if_pos h

/-- A short option with what is attached to it, which may follow an equals sign. -/
def shortOptions (edition : Edition) (f : Flag) : List Char → Except UsageError Options
  | [] => .ok (.bare f)
  | '=' :: value => cluster edition f true value
  | value => cluster edition f false value

theorem shortOptions_cons {c : Char} (h : c ≠ '=') (edition : Edition) (f : Flag) (cs : List Char) :
    shortOptions edition f (c :: cs) = cluster edition f false (c :: cs) := by
  unfold shortOptions
  split
  · contradiction
  · rename_i heq
    exact absurd (List.cons.inj heq).1 h
  · rfl

/-- A long option with the value attached to it. -/
def longOptions (f : Flag) : Option String → Except UsageError Options
  | none => .ok (.bare f)
  | some value => if f.hasValue then .ok (.valued f value) else .error (.unusedValue f value)

end Argument

/-! ### Requests -/

/-- What the arguments ask for. -/
structure Request where
  input : String
  output : Option String
  statements : Bool
  tokens : Bool
  tree : Bool
  deriving DecidableEq, Repr

/-- Why there is nothing to do. -/
inductive Ending where
  | help
  | usage (e : UsageError)
  deriving DecidableEq, Repr

/-- What the arguments so far ask for. -/
structure Draft where
  input : Option String
  output : Option String
  statements : Bool
  tokens : Bool
  tree : Bool
  /-- Arguments without a place. -/
  surplus : List String
  /-- Options that are set as soon as the last of them has its value. -/
  waiting : List Flag
  /-- The last argument was the input. -/
  besideInput : Bool
  deriving DecidableEq, Repr

namespace Draft

/-- Nothing is asked for. -/
def empty : Draft where
  input := none
  output := none
  statements := false
  tokens := false
  tree := false
  surplus := []
  waiting := []
  besideInput := false

/-- An argument without a place. -/
def addSurplus (d : Draft) (text : String) : Draft := { d with surplus := d.surplus ++ [text] }

/-- A value that is no option: the input, if there is none yet. -/
def addPlain (d : Draft) (text : String) : Draft :=
  match d.input with
  | none => { d with input := some text, besideInput := true }
  | some _ => d.addSurplus text

/-- An option with its value. -/
def set (edition : Edition) (d : Draft) (f : Flag) (value : String) : Except Ending Draft :=
  match f with
  | .help => .error .help
  | .output => .ok { d with output := edition.outputOf value }
  | .statements => .ok { d with statements := true }
  | .tokens => .ok { d with tokens := true }
  | .tree => .ok { d with tree := true }

/-- Sets options, the last of them with the value. -/
def setAll (edition : Edition) (d : Draft) (fs : List Flag) (value : String) :
    Except Ending Draft :=
  fs.foldlM (fun d f => d.set edition f value) d

/-- Sets options with the value attached to the last of them, or waits for its value. -/
def addOptions (edition : Edition) (d : Draft) (o : Options) : Except Ending Draft :=
  let d := { d with surplus := d.surplus ++ o.surplus }
  match o.value with
  | some value => d.setAll edition o.flags value
  | none =>
    if o.flags.any Flag.hasValue then .ok { d with waiting := o.flags }
    else d.setAll edition o.flags ""

/-- A usage error ends the arguments. -/
def orUsage {α : Type} : Except UsageError α → Except Ending α
  | .ok a => .ok a
  | .error e => .error (.usage e)

/-- The error for options that wait for a value in vain. -/
def missingValue (fs : List Flag) : Ending :=
  .usage (.missingValue ((fs.find? Flag.hasValue).getD .output))

/-- Adds the next argument. A separator beside the input, or before it, has done its work. -/
def add (edition : Edition) (d : Draft) (a : Argument) : Except Ending Draft :=
  let e := { d with waiting := [], besideInput := false }
  match d.waiting, a with
  | [], .plain text => .ok (e.addPlain text)
  | [], .separator => .ok (if d.besideInput || d.input.isNone then e else e.addSurplus "--")
  | [], .unknown text => .ok (e.addSurplus text)
  | [], .long f value => do e.addOptions edition (← orUsage (Argument.longOptions f value))
  | [], .short f attached => do
    e.addOptions edition (← orUsage (Argument.shortOptions edition f attached))
  | fs, .plain value => e.setAll edition fs value
  | fs, _ => .error (missingValue fs)

/-- The request, if no option waits, there is an input and nothing is left over. -/
def finish (d : Draft) : Except Ending Request :=
  match d.waiting, d.input with
  | f :: fs, _ => .error (missingValue (f :: fs))
  | [], none => .error (.usage .missingInput)
  | [], some input =>
    if d.surplus = [] then
      .ok {
        input := input
        output := d.output
        statements := d.statements
        tokens := d.tokens
        tree := d.tree }
    else .error (.usage (.unrecognised d.surplus))

end Draft

/-- The request that arguments make. -/
def Request.ofArguments (edition : Edition) (arguments : List String) : Except Ending Request :=
  match Argument.ofTexts arguments with
  | .error e => .error (.usage e)
  | .ok looks => do (← looks.foldlM (Draft.add edition) Draft.empty).finish

/-! ### Texts for users -/

/-- The name of the command. -/
def command : String := "blc"

/-- How the command is used. -/
def usageLine : String :=
  "usage: " ++ command ++ " [-h] [-o OUTPUT] [--statements] [--tokens] [--tree] input\n"

/-- The help text. -/
def helpText : String :=
  usageLine ++
  "\nBL parser (blc)\n" ++
  "\npositional arguments:\n" ++
  "  input                 Source .bl file\n" ++
  "\noptions:\n" ++
  "  -h, --help            show this help message and exit\n" ++
  "  -o OUTPUT, --output OUTPUT\n" ++
  "                        Write the pretty-printed result to this file\n" ++
  "  --statements          Input is a sequence of statements, not a program\n" ++
  "  --tokens              Print lexed tokens, one per line\n" ++
  "  --tree                Print parsed bodies as S-expressions\n"

/-- The text that reports wrong arguments. -/
def usageText (e : UsageError) : String :=
  usageLine ++ command ++ ": error: " ++ e.message ++ "\n"

end BL.CommandLine
