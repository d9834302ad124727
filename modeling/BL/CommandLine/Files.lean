namespace BL.CommandLine

/-!
# Files

The command finds a text at one path, and writes one at another. Which files paths lead to and what
may go wrong with them is up to the system, with its directories, links, devices and permissions: it
is a parameter of the command.

* `Found` — what is found at a path;
* `FileSystem` — finding and writing, and the files that are behind the paths;
* `FileSystem.KeepsFiles` — writing at a path changes no file but the one that it leads to;
* `FileSystem.ReadsBack` — a text that was written is found again, and can be written again.
-/

/-- What is found at a path. -/
inductive Found (ε : Type) where
  | nothing
  /-- Something that no text can be read from. -/
  | unreadable (e : ε)
  | text (content : String)
  deriving DecidableEq, Repr

/-- A file system, with its states, its files, which may share a content or be reached by several
    paths, and its errors. -/
structure FileSystem (σ φ ε : Type) where
  /-- What is found at a path. -/
  find : σ → String → Found ε
  /-- Writes a text at a path, in the place of what is there. Whether it succeeds or not, there may
      be a new state. -/
  write : σ → String → String → Except ε Unit × σ
  /-- The bytes that a file holds, if there is this file. -/
  content? : σ → φ → Option ByteArray
  /-- The file that a text goes to if it is written at a path. It need not be there yet, and a path
      that leads nowhere, to a directory or to a device, has none. -/
  target? : σ → String → Option φ

namespace FileSystem

variable {σ φ ε : Type}

/-- Writing at a path changes no file but the one that it leads to, which holds the text then. -/
structure KeepsFiles (fs : FileSystem σ φ ε) : Prop where
  /-- This is so also if writing fails. -/
  others : ∀ {s path file} (text : String), fs.target? s path ≠ some file →
    fs.content? (fs.write s path text).2 file = fs.content? s file
  written : ∀ {s path file text}, (fs.write s path text).1 = .ok () →
    fs.target? s path = some file →
    fs.content? (fs.write s path text).2 file = some text.toUTF8

/-- What was written to a file is found there, and can be written there again. -/
structure ReadsBack (fs : FileSystem σ φ ε) : Prop extends fs.KeepsFiles where
  /-- A path leads to a file that holds a text: this text is found. -/
  found : ∀ {s path file text}, fs.target? s path = some file →
    fs.content? s file = some text.toUTF8 → fs.find s path = .text text
  /-- The path leads to the file that was written. -/
  target : ∀ {s path text}, (fs.write s path text).1 = .ok () →
    fs.target? (fs.write s path text).2 path = fs.target? s path
  again : ∀ {s path text}, (fs.write s path text).1 = .ok () →
    (fs.write (fs.write s path text).2 path text).1 = .ok ()

end FileSystem

end BL.CommandLine
