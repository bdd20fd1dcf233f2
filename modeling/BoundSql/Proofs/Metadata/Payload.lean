import BoundSql.Metadata.Payload
import BoundSql.Proofs.Document.Reading
import BoundSql.Proofs.Document.Text
import BoundSql.Proofs.OrderedMap
import BoundSql.Proofs.Time.Stamp

/-! # Persisted metadata is read back
* **`Payload.fieldsOf_object`** — the fields of an object are found under their names.
* **`Payload.wellFormed_document`** — a payload is written as a well-formed document.
* **`Payload.decode_encode`** — the bytes that persist metadata are read as that metadata in the
  current version. -/

namespace BoundSql

open Document (escape WellFormed AllWellFormed FieldsWellFormed IsRaw isPlain)

namespace Time

/-- Digits need no escapes. -/
theorem isPlain_of_mem_padded (width n : Nat) : ∀ c ∈ padded width n, isPlain c = true := by
  intro c hc
  have hdigit := isDigit_of_mem_padded hc
  simp only [Char.isDigit, Bool.and_eq_true, decide_eq_true_eq, UInt32.le_iff_toNat_le,
    ge_iff_le] at hdigit
  change 48 ≤ c.toNat ∧ c.toNat ≤ 57 at hdigit
  have hne : ∀ d : Char, d.toNat < 48 ∨ 57 < d.toNat → c ≠ d := by
    rintro d hd rfl
    omega
  simp only [isPlain, Bool.and_eq_true, decide_eq_true_eq, bne_iff_ne]
  exact ⟨⟨⟨by omega, by omega⟩, hne _ (by decide)⟩, hne _ (by decide)⟩

theorem isPlain_of_mem_yearText (year : Int) : ∀ c ∈ yearText year, isPlain c = true := by
  rw [yearText]
  split_ifs
  · exact isPlain_of_mem_padded _ _
  · exact List.forall_mem_cons.2 ⟨by decide, isPlain_of_mem_padded _ _⟩
  · exact List.forall_mem_cons.2 ⟨by decide, isPlain_of_mem_padded _ _⟩

theorem isPlain_of_mem_fractionText (nanosecond : Nat) :
    ∀ c ∈ fractionText nanosecond, isPlain c = true := by
  have hpoint : isPlain '.' = true := by decide
  rw [fractionText]
  split_ifs
  · exact fun c hc => absurd hc List.not_mem_nil
  · exact List.forall_mem_cons.2 ⟨hpoint, isPlain_of_mem_padded _ _⟩
  · exact List.forall_mem_cons.2 ⟨hpoint, isPlain_of_mem_padded _ _⟩
  · exact List.forall_mem_cons.2 ⟨hpoint, isPlain_of_mem_padded _ _⟩

/-- A time stamp needs no escapes. -/
theorem isPlain_of_mem_stamp (m : Moment) : ∀ c ∈ stamp m, isPlain c = true := by
  simp only [stamp, List.forall_mem_append, List.forall_mem_cons]
  exact ⟨⟨⟨⟨⟨⟨⟨isPlain_of_mem_yearText _, by decide, isPlain_of_mem_padded _ _⟩,
    by decide, isPlain_of_mem_padded _ _⟩, by decide, isPlain_of_mem_padded _ _⟩,
    by decide, isPlain_of_mem_padded _ _⟩, by decide, isPlain_of_mem_padded _ _⟩,
    isPlain_of_mem_fractionText _⟩, by decide, fun c hc => absurd hc List.not_mem_nil⟩

/-- The bytes of a time stamp are those of its text between quotes. -/
theorem map_byte_stamp (m : Moment) : (stamp m).map byte = escape (String.ofList (stamp m)) := by
  have hplain : ∀ c ∈ (String.ofList (stamp m)).toList, isPlain c = true := by
    rw [String.toList_ofList]
    exact isPlain_of_mem_stamp m
  rw [Document.escape_of_isPlain hplain, asciiBytes, String.toList_ofList]

end Time

namespace Payload

/-! ### Texts -/

/-- Escaped text can stand between quotes. -/
theorem isRaw_escape (s : String) : IsRaw (escape s) := Document.scanString_escape s

theorem text?_textDocument (s : String) : (textDocument s).text? = some s :=
  Document.unescape_escape s

theorem wellFormed_textDocument (s : String) : (textDocument s).WellFormed := by
  rw [textDocument, WellFormed]
  exact isRaw_escape s

/-- Texts are read back in their order. -/
theorem texts?_textsDocument (ss : List String) : texts? (textsDocument ss) = some ss := by
  rw [textsDocument, texts?]
  induction ss with
  | nil => rfl
  | cons s ss ih =>
    rw [List.map_cons, List.mapM_cons, text?_textDocument, ih]
    rfl

theorem wellFormed_textsDocument (ss : List String) : (textsDocument ss).WellFormed := by
  rw [textsDocument, WellFormed]
  induction ss with
  | nil => trivial
  | cons s ss ih =>
    rw [List.map_cons, AllWellFormed]
    exact ⟨wellFormed_textDocument s, ih⟩

/-- An absent text is told from every text. -/
theorem optionalText?_optionalDocument (o : Option String) :
    optionalText? (optionalDocument o) = some o := by
  cases o with
  | none => rfl
  | some s => exact congrArg (Option.map some) (text?_textDocument s)

theorem wellFormed_optionalDocument (o : Option String) : (optionalDocument o).WellFormed := by
  cases o with
  | none => trivial
  | some s => exact wellFormed_textDocument s

/-! ### Objects -/

/-- Whether names need no escapes and differ from each other. -/
def PlainNames (names : List String) : Prop :=
  (∀ name ∈ names, ∀ c ∈ name.toList, isPlain c = true) ∧ names.Nodup

/-- The fields of an object are collected under their names. -/
theorem collect_fields {expected : List String} {fields found : List (String × Document)}
    (hplain : ∀ name ∈ fields.map Prod.fst, ∀ c ∈ name.toList, isPlain c = true)
    (hexpected : ∀ f ∈ fields, f.1 ∈ expected)
    (hnodup : ((found ++ fields).map Prod.fst).Nodup) :
    collect expected (fields.map fun f => field f.1 f.2) found = some (found ++ fields) := by
  induction fields generalizing found with
  | nil => rw [List.map_nil, collect, List.append_nil]
  | cons f fields ih =>
    obtain ⟨name, d⟩ := f
    rw [List.map_cons, List.forall_mem_cons] at hplain
    have hname : Document.unescape (asciiBytes name) = some name := by
      rw [← Document.escape_of_isPlain hplain.1, Document.unescape_escape]
    have hknown : expected.contains name = true :=
      List.contains_iff_mem.2 (hexpected _ List.mem_cons_self)
    have hnew : ¬ (found.lookup name).isSome = true := by
      rw [Option.isSome_iff_ne_none, not_not, List.lookup_eq_none_iff]
      intro f hf
      rw [List.map_append, List.nodup_append] at hnodup
      exact bne_iff_ne.2 (hnodup.2.2 _ (List.mem_map_of_mem hf) _ List.mem_cons_self).symm
    rw [List.append_cons] at hnodup ⊢
    rw [List.map_cons, field, collect, hname, Option.bind_some, if_pos hknown, if_neg hnew]
    exact ih hplain.2 (fun f hf => hexpected f (List.mem_cons_of_mem _ hf)) hnodup

/-- The fields of an object are found under their names. -/
theorem fieldsOf_object {fields : List (String × Document)}
    (h : PlainNames (fields.map Prod.fst)) :
    fieldsOf (fields.map Prod.fst) (.object (fields.map fun f => field f.1 f.2)) =
      some (fields.map fun f => some f.2) := by
  have hnodup : (([] ++ fields).map Prod.fst).Nodup := h.2
  have hcollect := collect_fields h.1 (fun f hf => List.mem_map_of_mem hf) hnodup
  rw [fieldsOf, hcollect, Option.map_some, List.nil_append, List.map_map]
  exact congrArg some (List.map_congr_left fun f hf =>
    OrderedMap.get?_of_mem_entries ⟨fields, h.2⟩ hf)

/-- An object of well-formed documents under plain names is well formed. -/
theorem wellFormed_object {fields : List (String × Document)}
    (h : PlainNames (fields.map Prod.fst)) (hfields : ∀ f ∈ fields, f.2.WellFormed) :
    (Document.object (fields.map fun f => field f.1 f.2)).WellFormed := by
  obtain ⟨hplain, -⟩ := h
  rw [WellFormed]
  induction fields with
  | nil => trivial
  | cons f fields ih =>
    rw [List.map_cons, List.forall_mem_cons] at hplain
    rw [List.forall_mem_cons] at hfields
    rw [List.map_cons, field, FieldsWellFormed]
    refine ⟨?_, hfields.1, ih hfields.2 hplain.2⟩
    rw [← Document.escape_of_isPlain hplain.1]
    exact isRaw_escape f.1

/-! ### Entries and payloads -/

/-- The fields of metadata. -/
def entryFields (m : Metadata) : List (String × Document) :=
  [("attributes", textsDocument m.attributes), ("primary_key", textsDocument m.primaryKey),
    ("non_primary_key", textsDocument m.nonPrimaryKey), ("numeric", textsDocument m.numeric),
    ("auto_increment", optionalDocument m.autoIncrement)]

theorem plainNames_entryFields (m : Metadata) : PlainNames ((entryFields m).map Prod.fst) := by
  change PlainNames ["attributes", "primary_key", "non_primary_key", "numeric", "auto_increment"]
  constructor
  · simp [isPlain]
  · decide

theorem wellFormed_entryDocument (m : Metadata) : (entryDocument m).WellFormed := by
  have hfields : ∀ f ∈ entryFields m, f.2.WellFormed := by
    simp only [entryFields, List.forall_mem_cons, wellFormed_textsDocument,
      wellFormed_optionalDocument, List.not_mem_nil, false_implies, implies_true, and_self]
  exact wellFormed_object (plainNames_entryFields m) hfields

/-- Metadata is read back from its document. -/
theorem entry?_entryDocument (m : Metadata) : entry? (entryDocument m) = some m := by
  have hfields := fieldsOf_object (plainNames_entryFields m)
  simp only [entryFields, List.map_cons, List.map_nil] at hfields
  simp only [entryDocument, entry?, hfields, texts?_textsDocument, Option.getD_some,
    optionalText?_optionalDocument]

/-- The fields of metadata in the current version, retrieved at a moment. -/
def payloadFields (m : Metadata) (retrievedAt : Moment) : List (String × Document) :=
  [("version", .number (asciiBytes (toString payloadVersion))),
    ("retrieved_at", .string ((Time.stamp retrievedAt).map byte)), ("entry", entryDocument m)]

theorem plainNames_payloadFields (m : Metadata) (retrievedAt : Moment) :
    PlainNames ((payloadFields m retrievedAt).map Prod.fst) := by
  change PlainNames ["version", "retrieved_at", "entry"]
  constructor
  · simp [isPlain]
  · decide

/-- The current version is written with one digit. -/
theorem asciiBytes_payloadVersion : asciiBytes (toString payloadVersion) = [byte '1'] := by
  rw [asciiBytes, Nat.toString_eq_ofList_toDigits, String.toList_ofList]
  rfl

/-- A payload is written as a well-formed document. -/
theorem wellFormed_document (m : Metadata) (retrievedAt : Moment) :
    (document ⟨payloadVersion, m⟩ retrievedAt).WellFormed := by
  have hversion : Document.IsNumber (asciiBytes (toString payloadVersion)) := by
    rw [asciiBytes_payloadVersion]
    exact Document.isNumber_digits (List.forall_mem_singleton.2 (by decide)) (by decide)
  have hstamp : IsRaw ((Time.stamp retrievedAt).map byte) := by
    rw [Time.map_byte_stamp]
    exact isRaw_escape _
  have hfields : ∀ f ∈ payloadFields m retrievedAt, f.2.WellFormed := by
    simp only [payloadFields, List.forall_mem_cons, WellFormed, hversion, hstamp,
      wellFormed_entryDocument, List.not_mem_nil, false_implies, implies_true, and_self]
  exact wellFormed_object (plainNames_payloadFields m retrievedAt) hfields

/-- A payload is read back from its document. -/
theorem ofDocument?_document (m : Metadata) (retrievedAt : Moment) :
    ofDocument? (document ⟨payloadVersion, m⟩ retrievedAt) = some ⟨payloadVersion, m⟩ := by
  have hfields := fieldsOf_object (plainNames_payloadFields m retrievedAt)
  have hversion : version? (.number (asciiBytes (toString payloadVersion))) =
      some payloadVersion := by
    rw [asciiBytes_payloadVersion]
    decide
  have hstamp : isStamp (.string ((Time.stamp retrievedAt).map byte)) = true := by
    rw [Time.map_byte_stamp]
    simp only [isStamp, Document.text?, Document.unescape_escape, String.toList_ofList,
      Time.isStamp_stamp]
  simp only [payloadFields, List.map_cons, List.map_nil] at hfields
  simp only [ofDocument?, document, hfields, hversion, hstamp, entry?_entryDocument]

/-- The bytes that persist metadata are read as that metadata, in the current version. -/
theorem decode_encode (m : Metadata) (retrievedAt : Moment) :
    decode (encode m retrievedAt) = some ⟨payloadVersion, m⟩ := by
  rw [decode, encode, Document.read_write (wellFormed_document m retrievedAt), Option.bind_some,
    ofDocument?_document]

end Payload

end BoundSql
