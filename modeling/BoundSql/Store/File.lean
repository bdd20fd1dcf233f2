import BoundSql.Store.Basic
import BoundSql.Store.Directory

/-! # One file per key
**`FileStore`** — a store that keeps each value in a file of a directory. The file's name is the key
with every character outside `[A-Za-z0-9_.-]` replaced (`fileName`). A value is written to a
temporary file first, which then takes the file's place. -/

namespace BoundSql

/-- A store in a directory. -/
structure FileStore where
  /-- The path of the directory. -/
  dir : String
  deriving DecidableEq, Repr

namespace FileStore

/-- Whether a character may stand in a file's name. -/
def isNameChar (c : Char) : Bool := c.isAlphanum || c == '-' || c == '_' || c == '.'

/-- A key with every other character replaced by an underscore. -/
def stem (key : String) : String :=
  String.ofList (key.toList.map fun c => if isNameChar c then c else '_')

/-- The name of the file of a key. -/
def fileName (key : String) : String := stem key ++ ".json"

/-- The name of the temporary file of a key. The extension of the file's name is replaced by
`json.tmp`; a name that starts with its only point has no extension and gets one, and the name that
is left of `..json` without its extension is that of the directory above. -/
def tempName (key : String) : String :=
  let s := stem key
  if s = "." then ".."
  else if s = "" then ".json.json.tmp"
  else s ++ ".json.tmp"

/-- A failure of a file operation as an error of the store. -/
def storeError (e : FileError) : DbError := .store e.message

/-- The store's directory, created if it is not there. The empty path is that of a directory that is
there. -/
def ensure (store : FileStore) (d : Directory) : Except FileError Unit × Directory :=
  if store.dir = "" then (.ok (), d)
  else
    match Path.fault? store.dir with
    | some e => (.error e, d)
    | none => d.ensure

/-- The value of a key; a missing file means that there is none. -/
def read (store : FileStore) (key : String) (d : Directory) : Except DbError (Option Bytes) :=
  match d.readFile store.dir (fileName key) with
  | .ok content => .ok (some content)
  | .error .notFound => .ok none
  | .error e => .error (storeError e)

/-- The directory with the value of a key. A failure leaves what was done before it. -/
def write (store : FileStore) (key : String) (value : Bytes) (d : Directory) :
    Except DbError Unit × Directory :=
  match store.ensure d with
  | (.error e, d) => (.error (storeError e), d)
  | (.ok _, d) =>
    match d.writeFile store.dir (tempName key) value with
    | .error e => (.error (storeError e), d)
    | .ok d =>
      match d.rename store.dir (tempName key) (fileName key) with
      | .error e => (.error (storeError e), d)
      | .ok d => (.ok (), d)

/-- Access to a store. -/
def access (store : FileStore) : StoreAccess Unit Directory where
  read _ := store.read
  write _ := store.write

end FileStore

end BoundSql
