import BoundSql.Proofs.Select.Compiled
import BoundSql.Proofs.Session.Run
import BoundSql.Proofs.Template.Closed
import Mathlib.Data.Option.Basic

/-! # Names in queries
A query brackets the names of its sources, its aliases and its plain items. In the template they all
look alike, and are told apart by their text when the query is rendered.
* **`Select.Piece`**, **`Select.pieces`** — the text of a query with the role of each of its parts.
* **`Select.Arranged`** — what a query writes itself keeps the parts it was given apart.
* **`Engine.names_shown`** — a name is shown as the table of the source it names, and if it names no
  source of the query, as an escaped identifier. -/

namespace BoundSql

namespace Select

open Template

/-! ### The parts of a query -/

/-- A part of the text of a query. -/
inductive Piece
  /-- Keywords and separators. -/
  | own (text : String)
  /-- Statement text that was given. -/
  | given (text : String)
  /-- A name in the place of a source, in brackets. -/
  | source (name : String)
  /-- An alias or a plain item, in brackets. -/
  | label (name : String)
  deriving DecidableEq, Repr

namespace Piece

/-- The template text of a part. -/
def text : Piece → String
  | own text => text
  | given text => text
  | source name => bracketed name
  | label name => bracketed name

/-- The name a part brackets. -/
def name? : Piece → Option String
  | source name => some name
  | label name => some name
  | _ => none

end Piece

/-- The template text of parts. -/
def textOf (ps : List Piece) : String := String.join (ps.map Piece.text)

/-- Lists of parts with a comma between them. -/
def separated (parts : List (List Piece)) : List Piece := [Piece.own ", "].intercalate parts

/-- The part of a source. -/
def sourcePiece (source : String) : Piece :=
  if isRaw source then .given source else .source source

/-- The parts of an alias. -/
def aliasPieces : Option String → List Piece
  | some a => [.own " AS ", .label a]
  | none => []

/-- The parts of all columns of an entry of the FROM clause. -/
def FromItem.allColumnsPieces (s : FromItem) : List Piece :=
  match s.aliasName with
  | some a => [.label a, .own ".*"]
  | none => if isRaw s.source then [.own "*"] else [.source s.source, .own ".*"]

/-- The parts of an entry of the FROM clause. -/
def FromItem.pieces (s : FromItem) : List Piece := sourcePiece s.source :: aliasPieces s.aliasName

/-- The parts of a column. -/
def Column.pieces (c : Column) : List Piece :=
  .given c.expr :: match c.aliasName with
    | some a => [.own " AS ", if isRaw a then .given a else .label a]
    | none => []

/-- The keyword of a join. -/
def Join.keyword (j : Join) : String :=
  " " ++ (match j.kind with
    | some k => k.keyword ++ " "
    | none => "") ++ "JOIN "

/-- The parts of a join. -/
def Join.pieces (j : Join) : List Piece :=
  .own j.keyword :: sourcePiece j.source :: (aliasPieces j.aliasName ++ match j.condition with
    | some c => [.own " ON ", .given c]
    | none => [])

/-- The parts of an item of an ordering or grouping clause. -/
def itemPieces (item : String) : List Piece :=
  match bareItem? item.toList with
  | some (name, some direction) =>
    [.label (String.ofList name), .own (" " ++ String.ofList direction)]
  | some (name, none) => [.label (String.ofList name)]
  | none => [.given (Text.trimmed item)]

/-- The parts of an ordering or grouping clause. -/
def ItemList.pieces : ItemList → List Piece
  | raw clause => [.given clause]
  | items list => separated (list.map itemPieces)

/-- The parts of a clause with its keyword, or none. -/
def clausePieces (keyword : String) : Option (List Piece) → List Piece
  | some ps => .own (" " ++ keyword ++ " ") :: ps
  | none => []

/-- The parts of the columns of the result. -/
def columnsPieces (q : Select) : List Piece :=
  if q.columns.isEmpty then separated (q.sources.map FromItem.allColumnsPieces)
  else separated (q.columns.map Column.pieces)

/-- The parts of a query up to its ordering. -/
def pieces (q : Select) : List Piece :=
  .own ("SELECT " ++ distinctText q.distinct) :: (q.columnsPieces ++ .own " FROM " ::
    (separated (q.sources.map FromItem.pieces) ++ (q.joins.flatMap Join.pieces ++
      (clausePieces "WHERE" ((nonEmpty q.filter.expr).map fun t => [.given t]) ++
        (clausePieces "GROUP BY" (q.group.map ItemList.pieces) ++
          (clausePieces "HAVING" ((q.having.bind fun h => nonEmpty h.expr).map fun t =>
            [.given t]) ++
            clausePieces "ORDER BY" (q.order.map ItemList.pieces)))))))

/-! ### Their text -/

@[simp] theorem textOf_nil : textOf [] = "" := rfl

theorem textOf_cons (p : Piece) (ps : List Piece) : textOf (p :: ps) = p.text ++ textOf ps := by
  rw [textOf, List.map_cons, String.join_cons, textOf]

theorem textOf_append (l r : List Piece) : textOf (l ++ r) = textOf l ++ textOf r := by
  rw [textOf, List.map_append, String.join_append, textOf, textOf]

theorem textOf_separated {α : Type} {f : α → List Piece} {text : α → String}
    (h : ∀ a, textOf (f a) = text a) (as : List α) :
    textOf (separated (as.map f)) = ", ".intercalate (as.map text) := by
  induction as with
  | nil => rfl
  | cons a rest ih =>
    cases rest with
    | nil =>
      simp only [List.map_cons, List.map_nil, separated, List.intercalate_singleton,
        String.intercalate_singleton]
      exact h a
    | cons b rest =>
      simp only [List.map_cons, separated, List.intercalate_cons_cons,
        String.intercalate_cons_cons] at ih ⊢
      rw [textOf_append, textOf_append, h, ih]
      rfl

theorem text_sourcePiece (source : String) : (sourcePiece source).text = sourceText source := by
  rw [sourcePiece, sourceText]
  split <;> rfl

theorem textOf_allColumnsPieces (s : FromItem) : textOf s.allColumnsPieces = s.allColumns := by
  rw [FromItem.allColumnsPieces, FromItem.allColumns]
  cases s.aliasName with
  | some a => simp [textOf, Piece.text]
  | none =>
    simp only
    split <;> simp [textOf, Piece.text]

theorem textOf_fromPieces (s : FromItem) : textOf s.pieces = s.text := by
  rw [FromItem.pieces, FromItem.text, textOf_cons, text_sourcePiece]
  cases s.aliasName with
  | some a => simp [aliasPieces, textOf, Piece.text, String.append_assoc]
  | none => simp [aliasPieces]

theorem textOf_columnPieces (c : Column) : textOf c.pieces = c.text := by
  rw [Column.pieces, Column.text, textOf_cons]
  cases c.aliasName with
  | some a =>
    have halias : textOf [.own " AS ", if isRaw a then .given a else .label a] =
        " AS " ++ sourceText a := by
      rw [sourceText]
      split <;> simp [textOf, Piece.text]
    simp only [halias, ← String.append_assoc]
    rfl
  | none => simp [Piece.text]

theorem textOf_joinPieces (j : Join) : textOf j.pieces = j.text := by
  rw [Join.pieces, Join.text, Join.keyword, textOf_cons, textOf_cons, textOf_append,
    text_sourcePiece]
  cases j.aliasName <;> cases j.condition <;> cases j.kind <;>
    simp [aliasPieces, textOf, Piece.text, String.append_assoc]

theorem textOf_itemPieces (item : String) : textOf (itemPieces item) = itemText item := by
  rw [itemPieces, itemText]
  rcases bareItem? item.toList with - | ⟨name, - | direction⟩ <;>
    simp [textOf, Piece.text, String.append_assoc]

theorem textOf_itemListPieces (list : ItemList) : textOf list.pieces = list.text := by
  cases list with
  | raw clause => simp [ItemList.pieces, ItemList.text, textOf, Piece.text]
  | items list => exact textOf_separated textOf_itemPieces list

theorem textOf_clausePieces {ps : Option (List Piece)} {text : Option String}
    (h : ps.map textOf = text) (keyword : String) :
    textOf (clausePieces keyword ps) = clause keyword text := by
  subst h
  cases ps with
  | none => rfl
  | some ps => rw [clausePieces, textOf_cons, Option.map_some, clause, Piece.text]

/-- The parts of a query make up its text. -/
theorem textOf_pieces (q : Select) : textOf q.pieces = q.bodyText := by
  have hcolumns : textOf q.columnsPieces = q.columnsText := by
    rw [columnsPieces, columnsText]
    split
    · exact textOf_separated textOf_allColumnsPieces _
    · exact textOf_separated textOf_columnPieces _
  have hjoins : textOf (q.joins.flatMap Join.pieces) = String.join (q.joins.map Join.text) := by
    induction q.joins with
    | nil => rfl
    | cons j joins ih =>
      rw [List.flatMap_cons, textOf_append, textOf_joinPieces, ih, List.map_cons, String.join_cons]
  -- Clauses that are missing have neither parts nor text.
  have hgiven : ∀ text : Option String, (text.map fun t => [Piece.given t]).map textOf = text := by
    intro text
    cases text <;> simp [textOf, Piece.text]
  have hitems : ∀ list : Option ItemList,
      (list.map ItemList.pieces).map textOf = list.map ItemList.text := by
    intro list
    cases list with
    | none => rfl
    | some list => simp [textOf_itemListPieces]
  have hwhere := textOf_clausePieces (hgiven (nonEmpty q.filter.expr)) "WHERE"
  have hgroup := textOf_clausePieces (hitems q.group) "GROUP BY"
  have hhaving := textOf_clausePieces (hgiven (q.having.bind fun h => nonEmpty h.expr)) "HAVING"
  have horder := textOf_clausePieces (hitems q.order) "ORDER BY"
  have hsources := textOf_separated textOf_fromPieces q.sources
  rw [pieces, bodyText_eq, textOf_cons, textOf_append, textOf_cons, textOf_append, textOf_append,
    textOf_append, textOf_append, textOf_append, hcolumns, hsources, hjoins, hwhere, hgroup,
    hhaving, horder]
  simp only [Piece.text, String.append_assoc]

/-! ### Their arrangement -/

section Arranged

variable {d : Dialect}

/-- Whether a part sets what stands before it apart. -/
def Piece.IsApart (d : Dialect) : Piece → Prop
  | own text => text ≠ "" ∧ startsApart d text.toList = true
  | _ => False

/-- Whether the parts a query writes itself have no marks, and one of them follows every text that
was given, unless it is the last part. -/
def Arranged (d : Dialect) : List Piece → Prop
  | [] => True
  | .own text :: rest => IsUnmarked d text ∧ Arranged d rest
  | .given _ :: rest => (∀ p ∈ rest.head?, p.IsApart d) ∧ Arranged d rest
  | .source _ :: rest => Arranged d rest
  | .label _ :: rest => Arranged d rest

/-- Whether arranged parts can follow any other part. -/
def Trailing (d : Dialect) (ps : List Piece) : Prop :=
  Arranged d ps ∧ ∀ p ∈ ps.head?, p.IsApart d

theorem Arranged.append {l r : List Piece} (hl : Arranged d l) (hr : Trailing d r) :
    Arranged d (l ++ r) := by
  induction l with
  | nil => exact hr.1
  | cons p rest ih =>
    cases p with
    | own text => exact ⟨hl.1, ih hl.2⟩
    | given text =>
      refine ⟨?_, ih hl.2⟩
      cases rest with
      | nil => exact hr.2
      | cons p rest => exact hl.1
    | source name | label name => exact ih hl

theorem trailing_nil : Trailing d [] := ⟨trivial, fun p hp => by cases hp⟩

theorem Trailing.append {l r : List Piece} (hl : Trailing d l) (hr : Trailing d r) :
    Trailing d (l ++ r) := by
  refine ⟨hl.1.append hr, ?_⟩
  cases l with
  | nil => exact hr.2
  | cons p rest => exact hl.2

/-- The keywords and separators that texts which were given stand in front of. -/
def separators : List String :=
  [", ", " AS ", " ON ", " FROM ", " WHERE ", " GROUP BY ", " HAVING ", " ORDER BY ", " JOIN ",
    " INNER JOIN ", " LEFT JOIN ", " RIGHT JOIN "]

theorem trailing_cons_own {text : String} {rest : List Piece} (h : text ∈ separators)
    (hrest : Arranged d rest) : Trailing d (.own text :: rest) := by
  have hall : ∀ text ∈ separators,
      (text ≠ "" ∧ startsApart d text.toList = true) ∧ IsUnmarked d text := by
    cases d <;> decide
  obtain ⟨hapart, hunmarked⟩ := hall text h
  refine ⟨⟨hunmarked, hrest⟩, fun p hp => ?_⟩
  obtain rfl := Option.some.inj hp
  exact hapart

theorem arranged_separated {parts : List (List Piece)} (h : ∀ part ∈ parts, Arranged d part) :
    Arranged d (separated parts) := by
  induction parts with
  | nil => trivial
  | cons part rest ih =>
    obtain ⟨hpart, hrest⟩ := List.forall_mem_cons.1 h
    cases rest with
    | nil =>
      rw [separated, List.intercalate_singleton]
      exact hpart
    | cons part' rest =>
      rw [separated, List.intercalate_cons_cons, List.append_assoc]
      exact hpart.append (trailing_cons_own (by decide) (ih hrest))

theorem arranged_separated_map {α : Type} {f : α → List Piece} (h : ∀ a, Arranged d (f a))
    (as : List α) : Arranged d (separated (as.map f)) :=
  arranged_separated fun part hpart => by
    obtain ⟨a, -, rfl⟩ := List.mem_map.1 hpart
    exact h a

theorem trailing_aliasPieces (aliasName : Option String) : Trailing d (aliasPieces aliasName) := by
  cases aliasName with
  | none => exact trailing_nil
  | some a => exact trailing_cons_own (by decide) trivial

theorem Trailing.cons_sourcePiece {rest : List Piece} (h : Trailing d rest) (source : String) :
    Arranged d (sourcePiece source :: rest) := by
  rw [sourcePiece]
  split
  · exact ⟨h.2, h.1⟩
  · exact h.1

theorem arranged_given (text : String) : Arranged d [.given text] :=
  ⟨(fun p hp => by cases hp), trivial⟩

theorem arranged_allColumnsPieces (s : FromItem) : Arranged d s.allColumnsPieces := by
  have hstar : IsUnmarked d ".*" ∧ IsUnmarked d "*" := by cases d <;> decide
  rw [FromItem.allColumnsPieces]
  cases s.aliasName with
  | some a => exact ⟨hstar.1, trivial⟩
  | none =>
    simp only
    split
    · exact ⟨hstar.2, trivial⟩
    · exact ⟨hstar.1, trivial⟩

theorem arranged_fromPieces (s : FromItem) : Arranged d s.pieces :=
  (trailing_aliasPieces s.aliasName).cons_sourcePiece s.source

theorem arranged_columnPieces (c : Column) : Arranged d c.pieces := by
  have halias : ∀ a : String, Arranged d [if isRaw a then .given a else .label a] := by
    intro a
    split
    · exact arranged_given a
    · trivial
  have htrailing : Trailing d (match c.aliasName with
      | some a => [.own " AS ", if isRaw a then .given a else .label a]
      | none => []) := by
    cases c.aliasName with
    | some a => exact trailing_cons_own (by decide) (halias a)
    | none => exact trailing_nil
  exact ⟨htrailing.2, htrailing.1⟩

theorem trailing_joinPieces (j : Join) : Trailing d j.pieces := by
  have hkeyword : j.keyword ∈ separators := by
    rw [Join.keyword]
    rcases j.kind with - | - | - | - <;> decide
  have hcondition : Trailing d (match j.condition with
      | some c => [.own " ON ", .given c]
      | none => []) := by
    cases j.condition with
    | some c => exact trailing_cons_own (by decide) (arranged_given c)
    | none => exact trailing_nil
  exact trailing_cons_own hkeyword
    (((trailing_aliasPieces j.aliasName).append hcondition).cons_sourcePiece j.source)

theorem trailing_joinsPieces (joins : List Join) : Trailing d (joins.flatMap Join.pieces) := by
  induction joins with
  | nil => exact trailing_nil
  | cons j joins ih =>
    rw [List.flatMap_cons]
    exact (trailing_joinPieces j).append ih

/-- A direction of an item is one of two words. -/
theorem direction_of_bareItem?_eq_some {item name direction : List Char}
    (h : bareItem? item = some (name, some direction)) :
    direction = "ASC".toList ∨ direction = "DESC".toList := by
  rw [bareItem?] at h
  split at h
  · split at h
    · cases h
    · cases h
  · split at h
    · obtain ⟨upper, hupper, he⟩ := Option.map_eq_some_iff.1 h
      obtain rfl : upper = direction := Option.some.inj (Prod.mk.inj he).2
      rw [direction?] at hupper
      split at hupper
      · rename_i hwords
        obtain rfl := Option.some.inj hupper
        exact hwords
      · cases hupper
    · cases h
  · cases h

theorem arranged_itemPieces (item : String) : Arranged d (itemPieces item) := by
  have hdirections : IsUnmarked d " ASC" ∧ IsUnmarked d " DESC" := by cases d <;> decide
  rw [itemPieces]
  rcases hitem : bareItem? item.toList with - | ⟨name, - | direction⟩
  · exact arranged_given _
  · trivial
  · refine ⟨?_, trivial⟩
    rcases direction_of_bareItem?_eq_some hitem with rfl | rfl
    · exact hdirections.1
    · exact hdirections.2

theorem arranged_itemListPieces (list : ItemList) : Arranged d list.pieces := by
  cases list with
  | raw clause => exact arranged_given clause
  | items list => exact arranged_separated_map arranged_itemPieces list

theorem trailing_clausePieces {keyword : String} (h : " " ++ keyword ++ " " ∈ separators)
    {ps : Option (List Piece)} (hps : ∀ l ∈ ps, Arranged d l) :
    Trailing d (clausePieces keyword ps) := by
  cases ps with
  | none => exact trailing_nil
  | some l => exact trailing_cons_own h (hps l rfl)

/-- The parts of a query are arranged. -/
theorem arranged_pieces (d : Dialect) (q : Select) : Arranged d q.pieces := by
  have hselect : IsUnmarked d ("SELECT " ++ distinctText q.distinct) := by
    rcases q.distinct with - | - | - <;> cases d <;> decide
  have hcolumns : Arranged d q.columnsPieces := by
    rw [columnsPieces]
    split
    · exact arranged_separated_map arranged_allColumnsPieces _
    · exact arranged_separated_map arranged_columnPieces _
  have hgiven : ∀ text : Option String, ∀ l ∈ text.map fun t => [Piece.given t], Arranged d l := by
    intro text l hl
    obtain ⟨t, -, rfl⟩ := Option.mem_map.1 hl
    exact arranged_given t
  have hitems : ∀ list : Option ItemList, ∀ l ∈ list.map ItemList.pieces, Arranged d l := by
    intro list l hl
    obtain ⟨list, -, rfl⟩ := Option.mem_map.1 hl
    exact arranged_itemListPieces list
  -- Every clause begins with its keyword, which sets apart what was given in front of it.
  have hwhere : Trailing d (clausePieces "WHERE"
      ((nonEmpty q.filter.expr).map fun t => [.given t])) :=
    trailing_clausePieces (by decide) (hgiven _)
  have hgroup : Trailing d (clausePieces "GROUP BY" (q.group.map ItemList.pieces)) :=
    trailing_clausePieces (by decide) (hitems _)
  have hhaving : Trailing d (clausePieces "HAVING"
      ((q.having.bind fun h => nonEmpty h.expr).map fun t => [.given t])) :=
    trailing_clausePieces (by decide) (hgiven _)
  have horder : Trailing d (clausePieces "ORDER BY" (q.order.map ItemList.pieces)) :=
    trailing_clausePieces (by decide) (hitems _)
  have hsources : Arranged d (separated (q.sources.map FromItem.pieces)) :=
    arranged_separated_map arranged_fromPieces _
  exact ⟨hselect, hcolumns.append (trailing_cons_own (by decide) (hsources.append
    ((trailing_joinsPieces q.joins).append
      (hwhere.append (hgroup.append (hhaving.append horder))))))⟩

end Arranged

/-! ### How parts are read -/

/-- Whether a part closes what it opens: text that was given its literals, quoted identifiers and
brackets, and a name its own bracket. -/
def Piece.IsClosed (d : Dialect) : Piece → Prop
  | own _ => True
  | given text => Closed d text.toList
  | source name => ']' ∉ name.toList
  | label name => ']' ∉ name.toList

/-- The segments of a part that closes what it opens. -/
def Piece.segments (d : Dialect) : Piece → List Segment
  | own text => verbatim text
  | given text => scan d text.toList
  | source name => [.bracket name.toList]
  | label name => [.bracket name.toList]

section Reading

variable {d : Dialect}

theorem Piece.text_of_name? {p : Piece} {name : String} (h : p.name? = some name) :
    p.text = bracketed name := by
  cases p with
  | own text | given text => cases h
  | source other | label other =>
    obtain rfl := Option.some.inj h
    rfl

theorem Arranged.of_append {l r : List Piece} (h : Arranged d (l ++ r)) : Arranged d l := by
  induction l with
  | nil => trivial
  | cons p l ih =>
    cases p with
    | own text => exact ⟨h.1, ih h.2⟩
    | given text =>
      refine ⟨fun p hp => ?_, ih h.2⟩
      obtain ⟨rest, rfl⟩ := List.head?_eq_some_iff.1 hp
      exact h.1 p rfl
    | source name | label name => exact ih h

/-- Parts that begin with one that sets apart start apart. -/
theorem Piece.IsApart.startsApart_textOf {p : Piece} (h : p.IsApart d) (rest : List Piece)
    (tail : List Char) : startsApart d ((textOf (p :: rest)).toList ++ tail) = true := by
  cases p with
  | own text =>
    rw [textOf_cons, String.toList_append, List.append_assoc]
    exact startsApart_append h.2 fun he => absurd (String.toList_eq_nil_iff.1 he) h.1
  | given text | source name | label name => exact h.elim

/-- The parts of a query are read one by one, if they close what they open. -/
theorem readsAs_textOf {ps : List Piece} (harranged : Arranged d ps)
    (hclosed : ∀ p ∈ ps, p.IsClosed d) : ReadsAs d (textOf ps) (ps.flatMap (Piece.segments d)) := by
  intro tail htail
  induction ps with
  | nil => rfl
  | cons p ps ih =>
    obtain ⟨hp, hrest⟩ := List.forall_mem_cons.1 hclosed
    rw [textOf_cons, String.toList_append, List.append_assoc, List.flatMap_cons, List.append_assoc]
    cases p with
    | own text => rw [← ih harranged.2 hrest]; exact harranged.1.scan_append _
    | source other | label other => rw [← ih harranged hrest]; exact scan_bracketed_append hp _
    | given text =>
      rw [← ih harranged.2 hrest]
      refine scan_append hp ?_
      cases ps with
      | nil => exact htail
      | cons p' ps => exact (harranged.1 p' rfl).startsApart_textOf _ tail

/-- Parts that close what they open make up a text that does. -/
theorem closed_textOf {ps : List Piece} (harranged : Arranged d ps)
    (hclosed : ∀ p ∈ ps, p.IsClosed d) : Closed d (textOf ps).toList := by
  intro s hs
  rw [(readsAs_textOf harranged hclosed).scan_eq] at hs
  obtain ⟨p, hp, hs⟩ := List.mem_flatMap.1 hs
  cases p with
  | own text => exact Segment.isClosed_of_mem_verbatim hs
  | given text => exact hclosed _ hp s hs
  | source name | label name =>
    obtain rfl := List.mem_singleton.1 hs
    trivial

end Reading

/-- The native text of a bracketed name, where `sources` are resolved: the table of the source that
the name without blanks around it is registered with, and else the escaped name. -/
def shownName (d : Dialect) (registry : Registry) (sources : List String) (name : String) :
    String :=
  match if Text.trimmed name ∈ sources then registry.get? (Text.trimmed name) else none with
  | some source => source.tableReference d
  | none => d.escapeIdentifier (Text.trimmed name)

theorem shownName_of_not_mem {d : Dialect} {registry : Registry} {sources : List String}
    {name : String} (h : Text.trimmed name ∉ sources) :
    shownName d registry sources name = d.escapeIdentifier (Text.trimmed name) := by
  rw [shownName, if_neg h]

theorem shownName_of_get?_eq_some {d : Dialect} {registry : Registry} {sources : List String}
    {name : String} {source : Source} (h : Text.trimmed name ∈ sources)
    (hsource : registry.get? (Text.trimmed name) = some source) :
    shownName d registry sources name = source.tableReference d := by
  rw [shownName, if_pos h, hsource]

/-- Whether text is the native text of a part of a query: what the query writes stands for itself,
and so does text that was given, if it has no marks; names are shown as such. -/
def Piece.IsShownAs (d : Dialect) (registry : Registry) (sources : List String) :
    Piece → String → Prop
  | own text, shown => shown = text
  | given text, shown => IsUnmarked d text → shown = text
  | source name, shown => shown = shownName d registry sources name
  | label name, shown => shown = shownName d registry sources name

/-! ### Where sources stand -/

/-- The logical sources are those of the FROM clause and the joins that are no statement text. -/
theorem mem_logicalSources {q : Select} {name : String} : name ∈ q.logicalSources ↔
    isRaw name = false ∧
      name ∈ q.sources.map FromItem.source ++ q.joins.map Join.source := by
  -- Along the names, for any that were collected before.
  have hfold : ∀ all names : List String,
      name ∈ all.foldl (fun names s => if isRaw s || names.contains s then names
        else names ++ [s]) names ↔ name ∈ names ∨ isRaw name = false ∧ name ∈ all := by
    intro all
    induction all with
    | nil => simp
    | cons s all ih =>
      intro names
      rw [List.foldl_cons, ih, List.mem_cons]
      by_cases hs : name = s
      · -- The name itself is kept unless it is text or kept already.
        subst hs
        by_cases hraw : isRaw name = true
        · simp [hraw]
        · by_cases hmem : name ∈ names
          · simp [hraw, hmem]
          · simp [hraw, hmem]
      · split
        · simp [hs]
        · simp [hs]
  rw [logicalSources, hfold]
  simp

theorem mem_separated {p : Piece} {parts : List (List Piece)} (h : p ∈ separated parts) :
    p = .own ", " ∨ ∃ part ∈ parts, p ∈ part := by
  induction parts with
  | nil => cases h
  | cons part rest ih =>
    cases rest with
    | nil =>
      rw [separated, List.intercalate_singleton] at h
      exact .inr ⟨part, List.mem_cons_self, h⟩
    | cons part' rest =>
      rw [separated, List.intercalate_cons_cons, List.append_assoc, List.mem_append] at h
      rcases h with h | h
      · exact .inr ⟨part, List.mem_cons_self, h⟩
      · rcases List.mem_cons.1 h with h | h
        · exact .inl h
        · rcases ih h with h | ⟨part, hpart, h⟩
          · exact .inl h
          · exact .inr ⟨part, List.mem_cons_of_mem _ hpart, h⟩

section Sources

variable {name : String}

/-- The separators between parts are no names. -/
theorem of_source_mem_separated {α : Type} {f : α → List Piece} {as : List α}
    (h : Piece.source name ∈ separated (as.map f)) : ∃ a ∈ as, Piece.source name ∈ f a := by
  rcases mem_separated h with h | ⟨part, hpart, h⟩
  · cases h
  · obtain ⟨a, ha, rfl⟩ := List.mem_map.1 hpart
    exact ⟨a, ha, h⟩

theorem of_source_eq_sourcePiece {source : String} (h : Piece.source name = sourcePiece source) :
    isRaw name = false ∧ source = name := by
  rw [sourcePiece] at h
  split at h
  · cases h
  · rename_i hraw
    obtain rfl := Piece.source.inj h
    exact ⟨by simpa using hraw, rfl⟩

theorem source_not_mem_aliasPieces (aliasName : Option String) :
    Piece.source name ∉ aliasPieces aliasName := by
  cases aliasName <;> simp [aliasPieces]

theorem of_source_mem_allColumnsPieces {s : FromItem}
    (h : Piece.source name ∈ s.allColumnsPieces) : isRaw name = false ∧ s.source = name := by
  rw [FromItem.allColumnsPieces] at h
  split at h
  · simp at h
  · split at h
    · simp at h
    · rename_i hraw
      obtain rfl : name = s.source := by simpa using h
      exact ⟨by simpa using hraw, rfl⟩

theorem of_source_mem_fromPieces {s : FromItem} (h : Piece.source name ∈ s.pieces) :
    isRaw name = false ∧ s.source = name :=
  (List.mem_cons.1 h).elim of_source_eq_sourcePiece
    fun h => absurd h (source_not_mem_aliasPieces _)

theorem of_source_mem_joinPieces {j : Join} (h : Piece.source name ∈ j.pieces) :
    isRaw name = false ∧ j.source = name := by
  rcases List.mem_cons.1 h with h | h
  · cases h
  rcases List.mem_cons.1 h with h | h
  · exact of_source_eq_sourcePiece h
  rcases List.mem_append.1 h with h | h
  · exact absurd h (source_not_mem_aliasPieces _)
  · split at h <;> simp at h

theorem source_not_mem_columnPieces (c : Column) : Piece.source name ∉ c.pieces := by
  rw [Column.pieces]
  split
  · split <;> simp
  · simp

theorem source_not_mem_itemListPieces (list : ItemList) : Piece.source name ∉ list.pieces := by
  cases list with
  | raw clause => simp [ItemList.pieces]
  | items list =>
    intro h
    obtain ⟨item, -, h⟩ := of_source_mem_separated h
    rw [itemPieces] at h
    split at h <;> simp at h

theorem of_source_mem_clausePieces {keyword : String} {ps : Option (List Piece)}
    (h : Piece.source name ∈ clausePieces keyword ps) : ∃ l ∈ ps, Piece.source name ∈ l := by
  cases ps with
  | none => cases h
  | some l =>
    rcases List.mem_cons.1 h with h | h
    · cases h
    · exact ⟨l, rfl, h⟩

/-- The names in the places of sources are logical sources of the query. -/
theorem mem_logicalSources_of_source_mem {q : Select} (h : Piece.source name ∈ q.pieces) :
    name ∈ q.logicalSources := by
  have hfrom : ∀ s ∈ q.sources, isRaw name = false ∧ s.source = name →
      name ∈ q.logicalSources := by
    rintro s hs ⟨hraw, rfl⟩
    exact mem_logicalSources.2 ⟨hraw, List.mem_append_left _ (List.mem_map_of_mem hs)⟩
  have hgiven : ∀ text : Option String, ∀ l ∈ text.map fun t => [Piece.given t],
      Piece.source name ∉ l := by
    intro text l hl
    obtain ⟨t, -, rfl⟩ := Option.mem_map.1 hl
    simp
  have hitems : ∀ list : Option ItemList, ∀ l ∈ list.map ItemList.pieces,
      Piece.source name ∉ l := by
    intro list l hl
    obtain ⟨list, -, rfl⟩ := Option.mem_map.1 hl
    exact source_not_mem_itemListPieces list
  rw [pieces, List.mem_cons, List.mem_append, List.mem_cons, List.mem_append, List.mem_append,
    List.mem_append, List.mem_append, List.mem_append] at h
  -- Only the columns, the FROM clause and the joins have names in the places of sources.
  rcases h with h | h | h | h | h | h | h | h | h
  · cases h
  · rw [columnsPieces] at h
    split at h
    · obtain ⟨s, hs, h⟩ := of_source_mem_separated h
      exact hfrom s hs (of_source_mem_allColumnsPieces h)
    · obtain ⟨c, -, h⟩ := of_source_mem_separated h
      exact absurd h (source_not_mem_columnPieces c)
  · cases h
  · obtain ⟨s, hs, h⟩ := of_source_mem_separated h
    exact hfrom s hs (of_source_mem_fromPieces h)
  · obtain ⟨j, hj, h⟩ := List.mem_flatMap.1 h
    obtain ⟨hraw, rfl⟩ := of_source_mem_joinPieces h
    exact mem_logicalSources.2 ⟨hraw, List.mem_append_right _ (List.mem_map_of_mem hj)⟩
  all_goals
    obtain ⟨l, hl, h⟩ := of_source_mem_clausePieces h
    first
      | exact absurd h (hgiven _ l hl)
      | exact absurd h (hitems _ l hl)

end Sources

end Select

namespace Rendering

open Template

variable {t : Rendering}

variable {registry : Registry} {sources : List String}

/-- The image of a bracketed name. -/
theorem image_bracket
    (hget : ∀ name, t.resolved.get? name = if name ∈ sources then registry.get? name else none)
    (before : List Segment) (name : String) :
    t.image before (.bracket name.toList) =
      Select.shownName t.dialect registry sources name := by
  rw [Select.shownName, Text.trimmed, ← hget]
  rfl

/-- Parts that are read one by one are shown one by one. -/
theorem exists_shown
    (hget : ∀ name, t.resolved.get? name = if name ∈ sources then registry.get? name else none)
    (ps : List Select.Piece) (before : List Segment) :
    ∃ shown, String.join (t.images before (ps.flatMap (Select.Piece.segments t.dialect))) =
        String.join shown ∧
      List.Forall₂ (Select.Piece.IsShownAs t.dialect registry sources) ps shown := by
  induction ps generalizing before with
  | nil => exact ⟨[], rfl, .nil⟩
  | cons p ps ih =>
    obtain ⟨shown, hjoin, hshown⟩ := ih (before ++ p.segments t.dialect)
    refine ⟨String.join (t.images before (p.segments t.dialect)) :: shown, ?_, .cons ?_ hshown⟩
    · rw [List.flatMap_cons, images_append, String.join_append, hjoin, String.join_cons]
    · cases p with
      | own text => exact join_images_verbatim t before text
      | given text =>
        intro htext
        have hscan : scan t.dialect text.toList = verbatim text := (readsAs_unmarked htext).scan_eq
        rw [Select.Piece.segments, hscan]
        exact join_images_verbatim t before text
      | source name | label name =>
        have himage := image_bracket hget before name
        show String.join [t.image before (.bracket name.toList)] = _
        rw [himage, String.join_cons]
        exact String.append_empty

end Rendering

namespace Engine

open Template Select

variable {σ τ ι Stmt Row : Type}

/-- In the native form of a query, a name that it brackets stands after all that the query has
before it, if what stands before it and the name itself close what they open. Where the name without
blanks around it is a logical source of the query, it is shown as the table of that source, in
whatever place it stands, and elsewhere as an escaped identifier. Names in the places of sources are
logical sources. -/
theorem names_shown {e : Engine σ τ ι Stmt Row} {registry : Registry} {q : Select} {native : Native}
    (h : e.compile registry q = .ok native) {before after : List Piece} {p : Piece} {name : String}
    (hcut : q.pieces = before ++ p :: after) (hp : p.name? = some name)
    (hname : ']' ∉ name.toList) (hbefore : Closed e.backend.dialect (textOf before).toList) :
    let d := e.backend.dialect
    textOf q.pieces = q.bodyText ∧
      ∃ resolved shown s rest,
        resolveSources registry q.logicalSources OrderedMap.empty = .ok resolved ∧
        native.sql = shown ++ s ++ rest ∧
        shown = String.join
          ((q.template.rendering d resolved).images [] (scan d (textOf before).toList)) ∧
        ((∀ b ∈ before, b.IsClosed d) → ∃ parts, shown = String.join parts ∧
          List.Forall₂ (Piece.IsShownAs d registry q.logicalSources) before parts) ∧
        (Text.trimmed name ∉ q.logicalSources → s = d.escapeIdentifier (Text.trimmed name)) ∧
        (Text.trimmed name ∈ q.logicalSources → ∃ source,
          registry.get? (Text.trimmed name) = some source ∧ s = source.tableReference d) ∧
        (p = .source name → name ∈ q.logicalSources) := by
  intro d
  obtain ⟨-, resolved, hresolved, hrun⟩ := compile_eq_ok_iff.1 h
  let t := q.template.rendering d resolved
  have hget : ∀ name, t.resolved.get? name =
      if name ∈ q.logicalSources then registry.get? name else none := fun name =>
    (get?_of_resolveSources_eq_ok hresolved name).2
  -- What follows the text of the parts is the paging and the lock.
  let tail := pagingText "LIMIT" limitName q.limit ++ pagingText "OFFSET" offsetName q.offset ++
    q.lockText
  have hsql : t.sql = textOf q.pieces ++ tail := by
    rw [textOf_pieces]
    simp only [tail, ← String.append_assoc]
    rfl
  have hsource : t.source = scan d (textOf before).toList ++
      .bracket name.toList :: scan d ((textOf after).toList ++ tail.toList) := by
    rw [Rendering.source, hsql, hcut, textOf_append, textOf_cons, Piece.text_of_name? hp]
    simp only [String.toList_append, List.append_assoc]
    exact scan_append_bracketed hbefore hname _
  refine ⟨textOf_pieces q, resolved, _, shownName d registry q.logicalSources name,
    String.join (t.images (scan d (textOf before).toList ++ [.bracket name.toList])
      (scan d ((textOf after).toList ++ tail.toList))),
    hresolved, ?_, rfl, fun hclosed => ?_, shownName_of_not_mem, fun hmem => ?_, ?_⟩
  · rw [Rendering.sql_eq_join_images hrun, hsource, Rendering.images_append_cons, List.nil_append,
      String.join_append, String.join_cons, Rendering.image_bracket hget, String.append_assoc]
    rfl
  · have harranged := arranged_pieces d q
    rw [hcut] at harranged
    rw [(readsAs_textOf harranged.of_append hclosed).scan_eq]
    exact Rendering.exists_shown hget before []
  · obtain ⟨source, hsource⟩ := (OrderedMap.mem_keys_iff _ _).1
      ((get?_of_resolveSources_eq_ok hresolved _).1 hmem)
    exact ⟨source, hsource, shownName_of_get?_eq_some hmem hsource⟩
  · rintro rfl
    refine mem_logicalSources_of_source_mem ?_
    rw [hcut]
    simp

/-- A query whose ordering names a column by its alias and a source. -/
theorem names_shown_aliases :
    let e := Script.engine .mysql
    let registry := Registry.ofSources
      [⟨"orders", "orders", some "shop"⟩, ⟨"users", "app_users", none⟩]
    let q : Select :=
      { columns := [⟨"SUM(o.amount)", some "amount"⟩]
        sources := [⟨"orders", some "o"⟩]
        joins := [⟨"users", some "u.id = o.user_id", some "u", some .left⟩]
        group := some (.items ["user_id"])
        order := some (.items ["amount desc", "users"]) }
    let before : List Piece :=
      [.own "SELECT ", .given "SUM(o.amount)", .own " AS ", .label "amount", .own " FROM ",
        .source "orders", .own " AS ", .label "o", .own " LEFT JOIN ", .source "users",
        .own " AS ", .label "u", .own " ON ", .given "u.id = o.user_id", .own " GROUP BY ",
        .label "user_id", .own " ORDER BY "]
    ∃ native, e.compile registry q = .ok native ∧
      native.sql = "SELECT SUM(o.amount) AS `amount` FROM `shop`.`orders` AS `o` " ++
        "LEFT JOIN `app_users` AS `u` ON u.id = o.user_id GROUP BY `user_id` " ++
        "ORDER BY `amount` DESC, `app_users`" ∧
      ∃ parts rest, native.sql = String.join parts ++ "`amount`" ++ rest ∧
        List.Forall₂ (Piece.IsShownAs .mysql registry q.logicalSources) before parts := by
  intro e registry q before
  have hsql : (e.compile registry q).toOption.map Native.sql = some
      ("SELECT SUM(o.amount) AS `amount` FROM `shop`.`orders` AS `o` " ++
        "LEFT JOIN `app_users` AS `u` ON u.id = o.user_id GROUP BY `user_id` " ++
        "ORDER BY `amount` DESC, `app_users`") := by decide +kernel
  rcases hcompile : e.compile registry q with failure | native
  · rw [hcompile] at hsql
    cases hsql
  rw [hcompile] at hsql
  have hcut : q.pieces = before ++ .label "amount" ::
      [.own " DESC", .own ", ", .label "users"] := by decide +kernel
  have hgiven : IsUnmarked .mysql "SUM(o.amount)" ∧ IsUnmarked .mysql "u.id = o.user_id" := by
    decide
  have hbefore : ∀ b ∈ before, b.IsClosed .mysql := by
    simp only [before, List.forall_mem_cons, List.not_mem_nil, false_imp_iff, implies_true,
      and_true, Piece.IsClosed, true_and]
    exact ⟨hgiven.1.closed, by decide, by decide, by decide, by decide, by decide,
      hgiven.2.closed, by decide⟩
  have harranged : Arranged .mysql before := (hcut ▸ arranged_pieces .mysql q).of_append
  obtain ⟨-, -, shown, s, rest, -, hnative, -, hshown, hescaped, -, -⟩ :=
    names_shown (e := e) hcompile hcut rfl (by decide) (closed_textOf harranged hbefore)
  obtain rfl : s = "`amount`" := (hescaped (by decide +kernel)).trans (by decide +kernel)
  obtain ⟨parts, rfl, hparts⟩ := hshown hbefore
  exact ⟨native, rfl, Option.some.inj hsql, parts, rest, hnative, hparts⟩

/-- Names that are not shown as they are written: an alias and an item that share the name of a
source, an alias that holds a bracket, one with blanks around it, one after a text that opens a
literal, and a source that is registered with blanks around its name. -/
theorem shared_names_shown_as_tables :
    let e := Script.engine .mysql
    let registry := Registry.ofSources [⟨"orders", "orders", some "shop"⟩, ⟨" tags ", "t", none⟩]
    let sql := fun q => (e.compile registry q).toOption.map Native.sql
    let shared : Select := { sources := [⟨"orders", some "orders"⟩] }
    let sorted : Select := { Select.ofSource "orders" with order := some (.items ["orders"]) }
    Piece.label "orders" ∈ shared.pieces ∧ Piece.label "orders" ∈ sorted.pieces ∧
      Dialect.mysql.escapeIdentifier "orders" = "`orders`" ∧
      sql shared = some "SELECT `shop`.`orders`.* FROM `shop`.`orders` AS `shop`.`orders`" ∧
      sql sorted = some "SELECT `shop`.`orders`.* FROM `shop`.`orders` ORDER BY `shop`.`orders`" ∧
      sql { sources := [⟨"orders", some "a]b"⟩] } =
        some "SELECT `a`b].* FROM `shop`.`orders` AS `a`b]" ∧
      sql { sources := [⟨"orders", some " a "⟩] } =
        some "SELECT `a`.* FROM `shop`.`orders` AS `a`" ∧
      sql { Select.ofSource "orders" with columns := [⟨"'", some "a"⟩] } =
        some "SELECT ' AS [a] FROM [orders]" ∧
      sql (Select.ofSource " tags ") = some "SELECT `tags`.* FROM `tags`" := by
  decide +kernel

end Engine

end BoundSql
