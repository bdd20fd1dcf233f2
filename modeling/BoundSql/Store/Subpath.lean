import BoundSql.Store.Directory

/-! # Paths below a directory
Written paths with several names, and what is created at them.
* **`Tree.locate`** finds where an entry would stand.
* **`makeDirectory`** creates a directory and those on the way to it, **`putFile`** writes a file
  into a directory that exists. Both return the directory that is left when they fail halfway. -/

namespace BoundSql

/-! ### Written paths of several names -/

namespace Path

/-- The names in the text of a path; separators that follow each other count as one. -/
def namesOf (text : String) : RelativePath := (text.splitOn "/").filter (· ≠ "")

/-- Whether the text of a path ends with a separator, or is empty. -/
def endsOpen (text : String) : Bool := (text.splitOn "/").getLast? == some ""

/-- Whether a name stands for a directory on the way itself: one point for the directory reached,
two for the one it is in. -/
def isDots (name : String) : Bool := name == "." || name == ".."

/-- A path and the paths on the way to it, the longest first. -/
def withStarts (path : RelativePath) : List RelativePath :=
  let plain := path.filter (· ≠ ".")
  path :: (List.range plain.length).reverse.map plain.take

end Path

namespace Tree

/-- Where the entry at a path stands or would stand; nothing if the path ends with points or is
empty, so that it can only be that of a directory. -/
def locate (t : Tree) (path : RelativePath) : Except FileError (Option RelativePath) :=
  match path.getLast?, t.follow maxLinks [] path.dropLast with
  | none, _ => .ok none
  | some _, .error e => .error e
  | some _, .ok (.file _) => .error .notDirectory
  | some _, .ok (.free _) => .error .notFound
  | some name, .ok (.directory reached) =>
    if Path.isDots name then .ok none
    else if Path.isTooLong name then .error .nameTooLong
    else .ok (some (reached ++ [name]))

/-- Whether a path leads to a directory. -/
def isDirectory (t : Tree) (path : RelativePath) : Bool :=
  match t.follow maxLinks [] path with
  | .ok (.directory _) => true
  | _ => false

/-- The entries with an empty directory at a path, when those on the way exist. -/
def makeOne (t : Tree) (path : RelativePath) : Except FileError Tree :=
  match t.locate path with
  | .error e => .error e
  | .ok none => .error .exists
  | .ok (some place) =>
    if t.nodes.contains place then .error .exists
    else .ok { t with nodes := t.nodes.insert place .directory }

/-- The entries with a file at the text of a path. Text that ends with a separator is the path of a
directory. -/
def placeFile (t : Tree) (text : String) (content : Bytes) : Except FileError Tree :=
  let path := Path.namesOf text
  match t.follow maxLinks [] (if Path.endsOpen text then path ++ ["."] else path) with
  | .error e => .error e
  | .ok found => t.fill content found

end Tree

/-! ### What is created -/

namespace Directory

/-- Whether a directory stands at a path. -/
def isDirectory (path : RelativePath) : Directory → Bool
  | entries t => t.isDirectory path
  | unreached _ _ => false

/-- The directory with an empty one at a path, when those on the way exist. The empty path is the
directory's own. -/
def createOne (path : RelativePath) : Directory → Except FileError Unit × Directory
  | unreached reading creation =>
    if path.isEmpty then (unreached reading creation).ensure
    else (.error reading, unreached reading creation)
  | entries t =>
    match t.makeOne path with
    | .error e => (.error e, entries t)
    | .ok t => (.ok (), entries t)

/-- A directory that is there already is no failure of creating it. -/
def settle (path : RelativePath) (r : Except FileError Unit × Directory) :
    Except FileError Unit × Directory :=
  if r.2.isDirectory path then (.ok (), r.2) else r

/-- The directory with those at the given paths, the longest first. A path is tried by itself, and
once more after the shorter ones if something on the way to it is missing. A directory that is there
already is no failure. -/
def createAll (d : Directory) : List RelativePath → Except FileError Unit × Directory
  | [] => (.ok (), d)
  | path :: shorter =>
    match d.createOne path with
    | (.ok _, d) => (.ok (), d)
    | (.error .notFound, d) =>
      match createAll d shorter with
      | (.error e, d) => (.error e, d)
      | (.ok _, d) => settle path (d.createOne path)
    | r => settle path r

/-- A directory at a path below this one. Those on the way are created too, this one included, and
stay when the last one cannot be created. -/
def makeDirectory (dir text : String) (d : Directory) : Except FileError Unit × Directory :=
  match Path.fault? (Path.join dir text) with
  | some e => (.error e, d)
  | none => d.createAll (Path.withStarts (Path.namesOf text))

/-- A file at a path below the directory, which is created if nothing is there and stays when the
file cannot be written. -/
def putFile (dir text : String) (content : Bytes) (d : Directory) :
    Except FileError Unit × Directory :=
  match d.ensure with
  | (.error e, d) => (.error e, d)
  | (.ok _, d) =>
    match d.within (Path.join dir text) fun t => t.placeFile text content with
    | .error e => (.error e, d)
    | .ok t => (.ok (), entries t)

end Directory

end BoundSql
