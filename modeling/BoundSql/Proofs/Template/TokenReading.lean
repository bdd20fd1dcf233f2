import BoundSql.Inlined
import BoundSql.Proofs.Template.Image

/-! # Reading the tokens of native text
A placeholder ends at a colon that its token no longer has, so the text after the token may run on.
* **`Dialect.isTokenChar`**, **`Dialect.runsOn`** — the characters that make a token longer.
* **`Inlined.firstText`** — what the reader of native text takes as the first piece.
* **`Rendering.token_read_iff`** — a token is read as it was written exactly if the template does
  not go on with such a character after the closing colon. -/

namespace BoundSql

namespace Dialect

/-- Whether a character makes a token of a parameter longer. -/
def isTokenChar (d : Dialect) (c : Char) : Bool :=
  match d with
  | mysql => Text.isWordChar c
  | postgres => c.isDigit

/-- Whether text makes a token that stands right before it longer. -/
def runsOn (d : Dialect) (cs : List Char) : Bool := cs.head?.any d.isTokenChar

/-- The character a token of a named parameter begins with. -/
def tokenMark : Dialect → Char
  | mysql => ':'
  | postgres => '$'

variable {d : Dialect}

/-- The marks of a template and of native text make no token longer. -/
theorem isTokenChar_eq_false_of_mem {c : Char} (h : c ∈ [d.quoteChar, '*', '[', ':', '$', '?']) :
    d.isTokenChar c = false := by
  simp only [List.mem_cons, List.not_mem_nil, or_false] at h
  rcases h with rfl | rfl | rfl | rfl | rfl | rfl <;> cases d <;> decide

/-- Text makes a token longer exactly if it begins with characters of tokens. -/
theorem takeWhile_isTokenChar_eq_nil_iff {cs : List Char} :
    cs.takeWhile d.isTokenChar = [] ↔ d.runsOn cs = false := by
  cases cs with
  | nil => simp [runsOn]
  | cons c cs =>
    rw [runsOn, List.head?_cons, Option.any_some]
    by_cases hc : d.isTokenChar c = true
    · simp [hc]
    · simp [hc]

/-- No token makes another one longer. -/
theorem head?_token (d : Dialect) (refs : List BindKey) (key : BindKey) :
    ∃ c ∈ [':', '$', '?'], (d.token refs key).toList.head? = some c := by
  cases d with
  | mysql =>
    cases key with
    | index i => exact ⟨'?', by simp, by simp [token]⟩
    | name n => exact ⟨':', by simp, by simp [token]⟩
  | postgres => exact ⟨'$', by simp, by simp [token]⟩

/-- The token of a named parameter is its mark and characters of tokens. -/
theorem toList_token (refs : List BindKey) {name : List Char} (h : Text.isWord name = true) :
    ∃ body, (d.token refs (.name (String.ofList name))).toList = d.tokenMark :: body ∧
      body ≠ [] ∧ ∀ c ∈ body, d.isTokenChar c = true := by
  cases d with
  | mysql =>
    rw [Text.isWord, Bool.and_eq_true] at h
    refine ⟨name, by simp [token, tokenMark], ?_, List.all_eq_true.1 h.2⟩
    simpa using h.1
  | postgres =>
    have hdigits : ∀ n : Nat, (toString n).toList = Nat.toDigits 10 n := fun n => by
      rw [Nat.toString_eq_repr, Nat.toList_repr]
    refine ⟨Nat.toDigits 10 (refs.eraseDups.idxOf (.name (String.ofList name)) + 1), ?_, ?_, ?_⟩
    · rw [token, String.toList_append, hdigits]
      rfl
    · exact Nat.toDigits_ne_nil
    · exact fun c hc => Nat.isDigit_of_mem_toDigits (by decide) (by decide) hc

end Dialect

namespace Inlined

/-- The text of the first piece of native text. -/
def firstText (d : Dialect) (cs : List Char) : Option (List Char) :=
  (scan d cs).head?.map Piece.source

/-- The reader takes the longest run of token characters after a mark. -/
theorem firstText_token {d : Dialect} {body : List Char} (hne : body ≠ [])
    (hbody : ∀ c ∈ body, d.isTokenChar c = true) (rest : List Char) :
    firstText d (d.tokenMark :: (body ++ rest)) =
      some (d.tokenMark :: (body ++ rest.takeWhile d.isTokenChar)) := by
  have hrun : (body ++ rest).takeWhile d.isTokenChar = body ++ rest.takeWhile d.isTokenChar :=
    List.takeWhile_append_of_pos hbody
  cases d with
  | mysql =>
    have hword : (Text.splitWord (body ++ rest)).1 = body ++ rest.takeWhile Text.isWordChar := hrun
    rw [firstText, scan, Dialect.tokenMark, scanFrom, if_neg (by decide), if_neg (by decide),
      if_neg (by decide), if_neg (by decide), if_pos (by simp [hword, hne]), hword]
    rfl
  | postgres =>
    rw [firstText, scan, Dialect.tokenMark, scanFrom, if_neg (by decide), if_neg (by decide),
      if_neg (by decide), if_pos rfl]
    exact congrArg (fun run => some ('$' :: run)) hrun

end Inlined

/-! ### What native text goes on with -/

namespace Identifier

/-- A quoted segment begins with the quote character, unless it is a lone `*`. -/
theorem head?_quoteSegment (quote : Char) (segment : List Char) :
    ∃ c ∈ [quote, '*'], (quoteSegment quote segment).head? = some c := by
  unfold quoteSegment
  by_cases h : segment = ['*']
  · exact ⟨'*', by simp, by simp [h]⟩
  · exact ⟨quote, by simp, by rw [if_neg h]; rfl⟩

/-- An identifier begins with the quote character or `*`. -/
theorem head?_escape (quote : Char) (cs : List Char) :
    ∃ c ∈ [quote, '*'], (escape quote cs).head? = some c := by
  have hfirst : ∃ c ∈ [quote, '*'], (firstSegment quote cs).1.head? = some c := by
    unfold firstSegment
    split
    · exact head?_quoteSegment quote []
    · rename_i c cs
      by_cases h : c = quote
      · exact ⟨quote, by simp, by simp [h]⟩
      · rw [if_neg h]
        exact head?_quoteSegment quote _
  -- What follows the first segment is written after it.
  obtain ⟨c, hc, hf⟩ := hfirst
  refine ⟨c, hc, ?_⟩
  unfold escape
  split
  · exact hf
  · rw [List.head?_append, hf, Option.some_or]

end Identifier

namespace Rendering

open Template

variable {t : Rendering}

/-- The image of a bracket begins with the quote character or `*`. -/
theorem head?_identifier (t : Rendering) (name : String) :
    ∃ c ∈ [t.dialect.quoteChar, '*'], (t.identifier name).toList.head? = some c := by
  have hescape : ∀ s : String, ∃ c ∈ [t.dialect.quoteChar, '*'],
      (t.dialect.escapeIdentifier s).toList.head? = some c := fun s => by
    rw [Dialect.escapeIdentifier, String.toList_ofList]
    exact Identifier.head?_escape _ _
  unfold identifier
  split
  · rename_i source _
    unfold Source.tableReference
    split
    · rename_i schema _
      obtain ⟨c, hc, hs⟩ := hescape schema
      refine ⟨c, hc, ?_⟩
      rw [String.append_assoc, String.toList_append, List.head?_append, hs, Option.some_or]
    · exact hescape _
  · exact hescape name

/-- A segment stands for itself, or neither its text nor its image makes a token longer. -/
theorem image_or_not_runsOn (t : Rendering) (before : List Segment) (s : Segment) :
    (t.image before s).toList = s.source ∨
      ∃ c c' : Char, (t.image before s).toList.head? = some c ∧ s.source.head? = some c' ∧
        t.dialect.isTokenChar c = false ∧ t.dialect.isTokenChar c' = false := by
  have hmark : ∀ c ∈ [t.dialect.quoteChar, '*', '[', ':', '$', '?'],
      t.dialect.isTokenChar c = false := fun c => Dialect.isTokenChar_eq_false_of_mem
  -- Brackets, placeholders and question marks are rewritten, but both forms begin with a mark.
  cases s with
  | literal text => exact .inl String.toList_ofList
  | quoted text => exact .inl String.toList_ofList
  | unclosed rest => exact .inl String.toList_ofList
  | plain c => exact .inl String.toList_ofList
  | bracket inner =>
    obtain ⟨c, hc, hhead⟩ := t.head?_identifier (String.ofList (Text.trim inner))
    refine .inr ⟨c, '[', hhead, rfl, hmark c ?_, hmark '[' (by simp)⟩
    simp only [List.mem_cons] at hc ⊢
    tauto
  | placeholder name =>
    obtain ⟨c, hc, hhead⟩ := t.dialect.head?_token
      (t.referencesOf (before ++ [.placeholder name])) (.name (String.ofList name))
    rw [← image_of_reference rfl] at hhead
    refine .inr ⟨c, ':', hhead, rfl, hmark c ?_, hmark ':' (by simp)⟩
    simp only [List.mem_cons] at hc ⊢
    tauto
  | question =>
    cases hs : Segment.question.reference? t.binds.isPositional (questions before) with
    | none =>
      left
      unfold image
      rw [hs]
      exact String.toList_ofList
    | some key =>
      obtain ⟨c, hc, hhead⟩ := t.dialect.head?_token (t.referencesOf (before ++ [.question])) key
      rw [← image_of_reference hs] at hhead
      refine .inr ⟨c, '?', hhead, rfl, hmark c ?_, hmark '?' (by simp)⟩
      simp only [List.mem_cons] at hc ⊢
      tauto

/-- Native text makes a token before it longer exactly if the template text does. -/
theorem runsOn_images (t : Rendering) (before after : List Segment) :
    t.dialect.runsOn (String.join (t.images before after)).toList =
      t.dialect.runsOn (after.flatMap Segment.source) := by
  unfold Dialect.runsOn
  induction after generalizing before with
  | nil => rfl
  | cons s rest ih =>
    rw [images, String.join_cons, String.toList_append, List.flatMap_cons, List.head?_append,
      List.head?_append]
    rcases t.image_or_not_runsOn before s with hs | ⟨c, c', hc, hc', hi, hs⟩
    · -- A segment without text leaves the question to those after it.
      rw [hs]
      cases s.source.head? with
      | none => exact ih _
      | some c => rfl
    · rw [hc, hc', Option.some_or, Option.some_or, Option.any_some, Option.any_some, hi, hs]

/-- The token of the parameter a placeholder names. -/
def tokenOf (t : Rendering) (name : List Char) : List Char :=
  (t.dialect.token (t.referencesOf t.source) (.name (String.ofList name))).toList

/-- In native text stands, for every placeholder, the token of its parameter between the images of
the segments before and after. The reader takes it with the token characters that follow, so it is
read as it was written exactly if none follows the closing colon in the template. -/
theorem token_read_iff {native : Native} (h : t.run = .ok native) {before after : List Segment}
    {name : List Char} (hs : t.source = before ++ .placeholder name :: after) :
    ∃ following : List Char,
      native.sql.toList =
        (String.join (t.images [] before)).toList ++ (t.tokenOf name ++ following) ∧
      Inlined.firstText t.dialect (t.tokenOf name ++ following) =
        some (t.tokenOf name ++ following.takeWhile t.dialect.isTokenChar) ∧
      (Inlined.firstText t.dialect (t.tokenOf name ++ following) = some (t.tokenOf name) ↔
        t.dialect.runsOn (after.flatMap Segment.source) = false) := by
  have hword : Text.isWord name = true :=
    (segmented_scanFrom t.dialect none t.sql.toList).isWord_of_placeholder_mem
      (show .placeholder name ∈ t.source by simp [hs])
  have himage : (t.image before (.placeholder name)).toList = t.tokenOf name := by
    rw [image_eq_token rfl after, ← hs]
    rfl
  obtain ⟨body, htoken, hne, hbody⟩ := Dialect.toList_token (t.referencesOf t.source) hword
  have htoken : t.tokenOf name = t.dialect.tokenMark :: body := htoken
  let following := (String.join (t.images (before ++ [.placeholder name]) after)).toList
  have hread : Inlined.firstText t.dialect (t.tokenOf name ++ following) =
      some (t.tokenOf name ++ following.takeWhile t.dialect.isTokenChar) := by
    rw [htoken]
    exact Inlined.firstText_token hne hbody following
  refine ⟨following, ?_, hread, ?_⟩
  · rw [sql_eq_join_images h, hs, images_append_cons, String.join_append, String.join_cons,
      String.toList_append, String.toList_append, List.nil_append, himage]
  · rw [hread, Option.some_inj, List.append_right_eq_self, Dialect.takeWhile_isTokenChar_eq_nil_iff,
      runsOn_images]

/-- A placeholder that the template ends with. -/
theorem token_read_iff_at_end :
    let t : Rendering := ⟨.postgres, OrderedMap.empty, OrderedMap.ofList [(.name "a", .int 1)],
      OrderedMap.empty, "1:a:"⟩
    t.run = .ok ⟨"1$1", OrderedMap.ofList [(.index 0, .int 1)], OrderedMap.empty⟩ ∧
      t.source = [.plain '1'] ++ .placeholder ['a'] :: [] ∧
      ∃ following : List Char, Inlined.firstText .postgres (t.tokenOf ['a'] ++ following) =
        some (t.tokenOf ['a']) := by
  intro t
  have h : t.run = .ok ⟨"1$1", OrderedMap.ofList [(.index 0, .int 1)], OrderedMap.empty⟩ := by
    decide +kernel
  have hs : t.source = [.plain '1'] ++ .placeholder ['a'] :: [] := by decide +kernel
  obtain ⟨following, -, -, hread⟩ := token_read_iff h hs
  exact ⟨h, hs, following, hread.2 rfl⟩

/-- A letter after the closing colon makes the token of one parameter that of another. -/
theorem token_runs_on :
    let t : Rendering := ⟨.mysql, OrderedMap.empty,
      OrderedMap.ofList [(.name "a", .int 1), (.name "ab", .int 2)], OrderedMap.empty, ":a:b,:ab:"⟩
    (∃ after, t.source = [] ++ .placeholder ['a'] :: after) ∧
      (∃ native, t.run = .ok native ∧
        native.sql.toList = [] ++ (t.tokenOf ['a'] ++ ['b', ',', ':', 'a', 'b'])) ∧
      Inlined.firstText .mysql (t.tokenOf ['a'] ++ ['b', ',', ':', 'a', 'b']) =
        some (t.tokenOf ['a', 'b']) ∧
      t.tokenOf ['a', 'b'] ≠ t.tokenOf ['a'] := by
  intro t
  refine ⟨⟨[.plain 'b', .plain ',', .placeholder ['a', 'b']], by decide +kernel⟩, ⟨⟨":ab,:ab",
    OrderedMap.ofList [(.name "a", .int 1), (.name "ab", .int 2)], OrderedMap.empty⟩,
    by decide +kernel, ?_⟩, ?_, ?_⟩
  · decide +kernel
  · decide +kernel
  · decide +kernel

end Rendering

end BoundSql
