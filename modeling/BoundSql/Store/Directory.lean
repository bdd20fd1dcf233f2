import BoundSql.Bytes
import BoundSql.OrderedMap

/-! # A directory of files
A directory as far as a store sees it, with the links that may be in it.
* **`FileError`** — the failures of file operations, with the messages of the operating system.
* **`Tree`** — the entries below a directory: files, each with one name or several, directories and
  symbolic links. **`Tree.follow`** finds what the names of a path lead to.
* **`Directory`** — what the path of a directory leads to: its entries, or no directory yet.
* Operations on it: `Directory.ensure` creates it, and `readFile`, `writeFile` and `rename` work on
  files directly inside it. -/

namespace BoundSql

/-- Why a file operation fails. -/
inductive FileError
  /-- Nothing has the name. -/
  | notFound
  /-- Something has the name already. -/
  | exists
  /-- A directory is needed and something else is there. -/
  | notDirectory
  /-- A directory is there. -/
  | isDirectory
  /-- The name or the whole path is too long. -/
  | nameTooLong
  /-- Links lead to links too often. -/
  | tooManyLinks
  /-- The name has a NUL character in it. -/
  | nulInName
  /-- Another failure, with its message. -/
  | other (message : String)
  deriving DecidableEq, Repr

/-- The operating system's message of a failure. -/
def FileError.message : FileError → String
  | notFound => "No such file or directory (os error 2)"
  | «exists» => "File exists (os error 17)"
  | notDirectory => "Not a directory (os error 20)"
  | isDirectory => "Is a directory (os error 21)"
  | nameTooLong => "File name too long (os error 36)"
  | tooManyLinks => "Too many levels of symbolic links (os error 40)"
  | nulInName => "file name contained an unexpected NUL byte"
  | other message => message

/-! ### Written paths -/

namespace Path

/-- The number of bytes a name may have. -/
def maxNameBytes : Nat := 255

/-- Whether a name is too long for a directory. -/
def isTooLong (name : String) : Bool := maxNameBytes < name.utf8ByteSize

/-- The number of bytes a whole path may have. -/
def maxBytes : Nat := 4095

/-- What is wrong with the text of a path. This is found before anything on the way is looked at. -/
def fault? (path : String) : Option FileError :=
  if path.toList.contains '\x00' then some .nulInName
  else if maxBytes < path.utf8ByteSize then some .nameTooLong
  else none

/-- The path of a name below a directory. -/
def join (dir name : String) : String :=
  if dir = "" ∨ dir.toList.getLast? = some '/' then dir ++ name else dir ++ "/" ++ name

end Path

/-! ### Entries -/

/-- A path from a directory on: the names on the way, the last one naming the entry. Two points lead
to the directory that the one reached is in, and so out of the one where the path begins. -/
abbrev RelativePath := List String

/-- An entry of a directory. -/
inductive Node
  /-- A file, by its number. It has several names if its number stands under several. -/
  | file (number : Nat)
  /-- A directory. -/
  | directory
  /-- A symbolic link to what a path leads to from the directory that the link is in. -/
  | link (target : RelativePath)
  deriving DecidableEq, Repr

/-- Whether an entry is a file. -/
def Node.isFile : Node → Bool
  | file _ => true
  | _ => false

/-- The number after that of a file. -/
def Node.next : Node → Nat
  | file number => number + 1
  | _ => 0

/-- The entries below a directory, and those elsewhere that links in it lead to. Files can be read
and written. -/
structure Tree where
  /-- The entries by their paths, which come by no link. A path begins with two points only if the
  entry is elsewhere. -/
  nodes : OrderedMap RelativePath Node
  /-- What files hold, by their numbers. A file that is not there holds nothing. -/
  contents : OrderedMap Nat Bytes
  deriving Inhabited

/-- What the names of a path lead to. -/
inductive Found
  /-- A file, by its number. -/
  | file (number : Nat)
  /-- A directory, by the path that is left of the names. -/
  | directory (path : RelativePath)
  /-- A path without an entry, in a directory that is there. -/
  | free (path : RelativePath)
  deriving DecidableEq, Repr

namespace Tree

/-- The entries of a new directory. -/
def empty : Tree := ⟨.empty, .empty⟩

/-- What a file holds. -/
def content (t : Tree) (number : Nat) : Bytes := (t.contents.get? number).getD []

/-- A number that no file has. -/
def freshNumber (t : Tree) : Nat := (t.nodes.entries.map fun e => e.2.next).foldr max 0

/-- The directory that a directory is in. -/
def above (reached : RelativePath) : RelativePath :=
  if reached.all (· == "..") then ".." :: reached else reached.dropLast

/-- Where names lead from a directory that is reached, up to the first link: what is found, or the
directory that the link is in and the names that are to go from there. -/
def walk (t : Tree) (reached : RelativePath) :
    RelativePath → Except FileError (Found ⊕ RelativePath × RelativePath)
  | [] => .ok (.inl (.directory reached))
  | name :: rest =>
    if name = "." then t.walk reached rest
    else if name = ".." then t.walk (above reached) rest
    else if Path.isTooLong name then .error .nameTooLong
    else
      match t.nodes.get? (reached ++ [name]) with
      | some .directory => t.walk (reached ++ [name]) rest
      | some (.link target) => .ok (.inr (reached, target ++ rest))
      | some (.file number) =>
        if rest.isEmpty then .ok (.inl (.file number)) else .error .notDirectory
      | none => if rest.isEmpty then .ok (.inl (.free (reached ++ [name]))) else .error .notFound

/-- What names lead to from a directory that is reached, over so many links at most. -/
def follow (t : Tree) (links : Nat) (reached names : RelativePath) : Except FileError Found :=
  match t.walk reached names with
  | .error e => .error e
  | .ok (.inl found) => .ok found
  | .ok (.inr (reached, names)) =>
    match links with
    | 0 => .error .tooManyLinks
    | links + 1 => t.follow links reached names

/-- The number of links that are followed on one path. -/
def maxLinks : Nat := 40

/-- What a name leads to. -/
def find (t : Tree) (name : String) : Except FileError Found := t.follow maxLinks [] [name]

/-- The content of what was found. -/
def bytes (t : Tree) : Found → Except FileError Bytes
  | .file number => .ok (t.content number)
  | .directory _ => .error .isDirectory
  | .free _ => .error .notFound

/-- The entries with a content in what was found: in a file that is there, or in a new one. -/
def fill (t : Tree) (content : Bytes) : Found → Except FileError Tree
  | .file number => .ok { t with contents := t.contents.insert number content }
  | .directory _ => .error .isDirectory
  | .free path =>
    .ok ⟨t.nodes.insert path (.file t.freshNumber), t.contents.insert t.freshNumber content⟩

/-- The content of a file. -/
def read (t : Tree) (name : String) : Except FileError Bytes :=
  match t.find name with
  | .error e => .error e
  | .ok found => t.bytes found

/-- The entries with a content in a file. -/
def write (t : Tree) (name : String) (content : Bytes) : Except FileError Tree :=
  match t.find name with
  | .error e => .error e
  | .ok found => t.fill content found

/-- The entries with a file, or a link to one, under another name, in place of what has that name.
Nothing is done to two names of one file. Links are not followed, and directories stay. -/
def rename (t : Tree) (old new : String) : Except FileError Tree :=
  if Path.isTooLong old || Path.isTooLong new then .error .nameTooLong
  else
    match t.nodes.get? [old] with
    | none => .error .notFound
    | some node =>
      if node = .directory ∨ t.nodes.get? [new] = some .directory then .error .isDirectory
      else if node.isFile && t.nodes.get? [new] == some node then .ok t
      else .ok { t with nodes := (t.nodes.erase [old]).insert [new] node }

end Tree

/-! ### The directory -/

/-- What creating a directory comes to. -/
inductive Creation
  /-- It fails. Those on the way may have been made, and then reading may fail in another way. -/
  | fails (error reading : FileError)
  /-- A directory is there then. A new one is empty. -/
  | opens (tree : Tree)
  deriving Inhabited

/-- What the path of a directory leads to. -/
inductive Directory
  /-- No directory, or not yet: why nothing is read below it, and what creating it comes to. -/
  | unreached (reading : FileError) (creation : Creation)
  /-- A directory with the entries below it. -/
  | entries (tree : Tree)

namespace Directory

/-- Nothing. -/
def absent : Directory := unreached .notFound (.opens .empty)

/-- A plain file. -/
def plainFile : Directory := unreached .notDirectory (.fails .exists .notDirectory)

instance : Inhabited Directory := ⟨absent⟩

/-- The directory, created if it is not there. -/
def ensure : Directory → Except FileError Unit × Directory
  | unreached _ (.fails e reading) => (.error e, unreached reading (.fails e reading))
  | unreached _ (.opens t) => (.ok (), entries t)
  | entries t => (.ok (), entries t)

/-- What is done to the entries, if the text of a path is right and the directory is there. -/
def within {α : Type} (path : String) (d : Directory) (f : Tree → Except FileError α) :
    Except FileError α :=
  match Path.fault? path with
  | some e => .error e
  | none =>
    match d with
    | unreached reading _ => .error reading
    | entries t => f t

/-- The content of a file directly inside the directory of a path. -/
def readFile (dir name : String) (d : Directory) : Except FileError Bytes :=
  d.within (Path.join dir name) fun t => t.read name

/-- The directory of a path with a file directly inside it, in place of the content of a file of the
same name. -/
def writeFile (dir name : String) (content : Bytes) (d : Directory) :
    Except FileError Directory :=
  (d.within (Path.join dir name) fun t => t.write name content).map entries

/-- The directory of a path with a file directly inside it under another name, in place of a file of
that name. -/
def rename (dir old new : String) (d : Directory) : Except FileError Directory :=
  match Path.fault? (Path.join dir old) with
  | some e => .error e
  | none => (d.within (Path.join dir new) fun t => t.rename old new).map entries

/-- An empty file at the directory's own path. -/
def replaceByFile : Directory → Except FileError Unit × Directory
  | unreached _ _ => (.ok (), plainFile)
  | entries t => (.error .isDirectory, entries t)

/-- The names directly inside the directory, in order; none if it cannot be listed. -/
def names : Directory → List String
  | unreached _ _ => []
  | entries t =>
    (t.nodes.keys.filterMap fun path => match path with
      | [name] => some name
      | _ => none).mergeSort (fun a b => a ≤ b)

end Directory

end BoundSql
