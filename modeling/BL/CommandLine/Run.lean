import BL.CommandLine.Arguments
import BL.CommandLine.Files
import BL.Document
import BL.Report

namespace BL.CommandLine

/-!
# Running the command

The command reads one file, and writes at most one.

* `Effects`, `effects` — what is printed and written for arguments, given what is found at paths;
* `Outcome`, `run` — the command on a file system.
-/

variable {σ φ ε : Type}

/-! ### Effects -/

/-- How a run ends. -/
inductive Status (ε : Type) where
  /-- With a code. -/
  | exited (code : Nat)
  /-- No text could be read at the path. -/
  | unreadable (e : ε) (path : String)
  /-- The text could not be written at the path. -/
  | unwritable (e : ε) (path : String)
  /-- A fault that no source text causes. -/
  | faulted (f : Fault)
  deriving DecidableEq, Repr

/-- A text for a file, and what is printed once it is written. -/
structure Writing where
  path : String
  text : String
  message : String

/-- What a run prints, what it writes then, and how it ends if the file can be written. -/
structure Effects (ε : Type) where
  stdout : String
  stderr : String
  status : Status ε
  writing : Option Writing

namespace Effects

/-- Text on the standard output alone. -/
def print (text : String) (code : Nat) : Effects ε := ⟨text, "", .exited code, none⟩

/-- Text on the error output alone. -/
def complain (text : String) (code : Nat) : Effects ε := ⟨"", text, .exited code, none⟩

/-- The same effects with a text before what they print. -/
def after (text : String) (e : Effects ε) : Effects ε := { e with stdout := text ++ e.stdout }

end Effects

/-- The line for a token. -/
def tokenLine (t : Token) : String :=
  toString t.line ++ ":" ++ toString t.column ++ " " ++ t.kind.label ++ " " ++ Text.quote t.text ++
    "\n"

/-- The report of a rejected file. -/
def rejectionText (r : Rejection) (source path : String) : String :=
  r.report.render (some source) (some path) ++ "\n\n" ++
    Report.coloured Report.red ("BL PARSER: parse of " ++ path ++ " failed") ++ "\n"

/-- The path ends as source files do. -/
def hasSourceSuffix (path : String) : Bool := ".bl".toList.isSuffixOf path.toList

/-- What becomes of a formatted text: it goes to the output file if there is one. -/
def textEffects (r : Request) (text : String) : Effects ε :=
  match r.output.filter (· ≠ "") with
  | some path => {
      stdout := ""
      stderr := ""
      status := .exited 0
      writing := some {
        path := path
        text := text
        message := "Success! Pretty-printed program written to: " ++ path ++ "\n" } }
  | none => .print text 0

/-- What becomes of a document. -/
def documentEffects (r : Request) (d : Document) : Except Fault (Effects ε) :=
  if r.tree then d.dump.map fun text => .print text 0
  else d.pretty.map (textEffects r)

/-- What becomes of a source text. -/
def sourceEffects (r : Request) (source : String) : Effects ε :=
  let listing := if r.tokens then String.join ((Source.tokens source).map tokenLine) else ""
  match Document.ofSource r.statements source >>= documentEffects r with
  | .ok e => e.after listing
  | .error (.rejected e) => (Effects.complain (rejectionText e source r.input) 1).after listing
  | .error f => ⟨listing, "", .faulted f, none⟩

/-- What becomes of a request, given what is found at its input. -/
def Request.effects (r : Request) (found : Found ε) : Effects ε :=
  if hasSourceSuffix r.input then
    match found with
    | .nothing => .print ("Error: " ++ r.input ++ " not found\n") 1
    | .unreadable e => ⟨"", "", .unreadable e r.input, none⟩
    | .text content => sourceEffects r (Text.readText content)
  else .print ("Error: Expected a .bl file, got " ++ r.input ++ "\n") 1

/-- What becomes of arguments that make no request. -/
def Ending.effects : Ending → Effects ε
  | help => .print helpText 0
  | usage e => .complain (usageText e) 2

/-- What becomes of arguments, given what is found at paths. -/
def effects (edition : Edition) (arguments : List String) (find : String → Found ε) : Effects ε :=
  match Request.ofArguments edition arguments with
  | .ok r => r.effects (find r.input)
  | .error e => e.effects

/-! ### Outcomes -/

/-- What the command prints, how it ends, and the state of the file system behind it. -/
structure Outcome (σ ε : Type) where
  status : Status ε
  stdout : String
  stderr : String
  state : σ

/-- The command on a file system. -/
def run (edition : Edition) (fs : FileSystem σ φ ε) (arguments : List String) (s : σ) :
    Outcome σ ε :=
  let e := effects edition arguments (fs.find s)
  match e.writing with
  | none => ⟨e.status, e.stdout, e.stderr, s⟩
  | some writing =>
    match fs.write s writing.path writing.text with
    | (.ok (), s) => ⟨e.status, e.stdout ++ writing.message, e.stderr, s⟩
    | (.error error, s) => ⟨.unwritable error writing.path, e.stdout, e.stderr, s⟩

end BL.CommandLine
