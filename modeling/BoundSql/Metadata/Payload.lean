import BoundSql.Document.Text
import BoundSql.Metadata.Entry
import BoundSql.Time.Stamp

/-! # Persisted metadata
**`Payload`** — metadata as it is kept in a store: a JSON document with a version, a time stamp and
the entry. `Payload.encode` writes it, `Payload.decode` reads it.

An object may hold unknown fields, which are skipped; a known field given twice or missing is a
fault, except that the numbered column may be missing. In place of an object a list of all its
fields in order is read too. -/

namespace BoundSql

/-- The version that is written and accepted. -/
def payloadVersion : Nat := 1

/-- Metadata as a store keeps it. -/
structure Payload where
  /-- The version of the form. -/
  version : Nat
  /-- The metadata. -/
  entry : Metadata
  deriving DecidableEq, Repr

namespace Payload

open Document (escape unescape)

/-! ### Writing -/

/-- A text as a document. -/
def textDocument (s : String) : Document := .string (escape s)

/-- Texts as a document. -/
def textsDocument (ss : List String) : Document := .list (ss.map textDocument)

/-- An optional text as a document. -/
def optionalDocument : Option String → Document
  | some s => textDocument s
  | none => .null

/-- A field under an ASCII name. -/
def field (name : String) (d : Document) : Bytes × Document := (asciiBytes name, d)

/-- Metadata as a document. -/
def entryDocument (m : Metadata) : Document :=
  .object
    [field "attributes" (textsDocument m.attributes),
      field "primary_key" (textsDocument m.primaryKey),
      field "non_primary_key" (textsDocument m.nonPrimaryKey),
      field "numeric" (textsDocument m.numeric),
      field "auto_increment" (optionalDocument m.autoIncrement)]

/-- A payload, retrieved at a moment, as a document. -/
def document (p : Payload) (retrievedAt : Moment) : Document :=
  .object
    [field "version" (.number (asciiBytes (toString p.version))),
      field "retrieved_at" (.string ((Time.stamp retrievedAt).map byte)),
      field "entry" (entryDocument p.entry)]

/-- The bytes of metadata, retrieved at a moment, in the current version. -/
def encode (m : Metadata) (retrievedAt : Moment) : Bytes :=
  (document ⟨payloadVersion, m⟩ retrievedAt).write

/-! ### Reading -/

/-- What is known of the fields of an object: for each expected name the document under it. Unknown
fields are skipped; a name that is no text, or an expected one that comes twice, is a fault. -/
def collect (expected : List String) :
    List (Bytes × Document) → List (String × Document) → Option (List (String × Document))
  | [], found => some found
  | (raw, d) :: rest, found =>
    (unescape raw).bind fun name =>
      if expected.contains name then
        if (found.lookup name).isSome then none
        else collect expected rest (found ++ [(name, d)])
      else collect expected rest found

/-- The documents of the expected fields, in the expected order, of an object or of a list in that
order. A field that an object lacks is absent. -/
def fieldsOf (expected : List String) : Document → Option (List (Option Document))
  | .object fields =>
    (collect expected fields []).map fun found => expected.map fun name => found.lookup name
  | .list items => if items.length = expected.length then some (items.map some) else none
  | _ => none

/-- The texts of a list of strings. -/
def texts? : Document → Option (List String)
  | .list items => items.mapM Document.text?
  | _ => none

/-- An optional text. -/
def optionalText? : Document → Option (Option String)
  | .null => some none
  | d => d.text?.map some

/-- The metadata of a document. -/
def entry? (d : Document) : Option Metadata :=
  match fieldsOf ["attributes", "primary_key", "non_primary_key", "numeric", "auto_increment"] d
    with
  | some [some a, some k, some o, some n, i] =>
    match texts? a, texts? k, texts? o, texts? n, optionalText? (i.getD .null) with
    | some attributes, some primaryKey, some nonPrimaryKey, some numeric, some autoIncrement =>
      some { attributes, primaryKey, nonPrimaryKey, numeric, autoIncrement }
    | _, _, _, _, _ => none
  | _ => none

/-- The version of a document: an unsigned number of 32 bits, written without fraction, exponent
or sign. -/
def version? : Document → Option Nat
  | .number text =>
    if text.all Document.isDigitByte then
      let n := Number.digitsValue 0 (text.map fun b => Char.ofNat b.toNat)
      if n < Nat.pow 2 32 then some n else none
    else none
  | _ => none

/-- Whether a document is a time stamp. -/
def isStamp (d : Document) : Bool :=
  match d.text? with
  | some s => Time.isStamp s.toList
  | none => false

/-- The payload of a document. -/
def ofDocument? (d : Document) : Option Payload :=
  match fieldsOf ["version", "retrieved_at", "entry"] d with
  | some [some v, some t, some e] =>
    match version? v, isStamp t, entry? e with
    | some version, true, some entry => some ⟨version, entry⟩
    | _, _, _ => none
  | _ => none

/-- The payload of bytes. -/
def decode (bs : Bytes) : Option Payload := (Document.read bs).bind ofDocument?

end Payload

end BoundSql
