import BoundSql.Metadata.Entry
import BoundSql.Proofs.Text.Blank
import BoundSql.Proofs.Text.Words
import Mathlib.Data.List.Induction

/-! # Numeric types
Whether a type is numeric depends on its name only: its words in lower case, without pure numbers
and without the attributes they end with.
* **`typeName`** — the words that name a type; **`isNumericType_iff`** — a type is numeric exactly
  if its name is listed.
* **`TypeReads`** — how the words of a type are its name and then attributes;
  **`typeReads_iff`** — they are so in one way.
* **`Respelled`** — other texts of a type, which keep its name (`Respelled.typeName_eq`).
* **`numeric_by_name`** — the laws of numeric types. -/

namespace BoundSql

open Text (WordsOf isBlank words)

/-! ### Names of types -/

/-- A text in lower case. -/
def lowerCase (s : String) : List Char := s.toList.map Char.toLower

/-- Words with a blank between them. -/
def spelled (ws : List (List Char)) : String := " ".intercalate (ws.map String.ofList)

/-- Whether a word may follow a numeric type. -/
def IsAttribute (w : List Char) : Prop := String.ofList w ∈ typeAttributes

instance (w : List Char) : Decidable (IsAttribute w) := inferInstanceAs (Decidable (_ ∈ _))

/-- The words that name a type. -/
def typeName (dataType : String) : List (List Char) :=
  dropAttributes (typeWords (lowerCase dataType))

/-- The words of a type, pure numbers left out, are its name and then attributes. -/
structure TypeReads (dataType : String) (name attributes : List (List Char)) : Prop where
  /-- All words are accounted for. -/
  words_eq : ∃ ws, WordsOf isTypeSeparator (lowerCase dataType) ws ∧
    ws.filter (fun w => !isPrecision w) = name ++ attributes
  /-- The words behind the name are attributes. -/
  attributes : ∀ w ∈ attributes, IsAttribute w
  /-- The name does not end in one. -/
  last : ∀ w ∈ name.getLast?, ¬ IsAttribute w

theorem dropAttributes_append {ws attributes : List (List Char)}
    (h : ∀ w ∈ attributes, IsAttribute w) :
    dropAttributes (ws ++ attributes) = dropAttributes ws := by
  rw [dropAttributes, List.reverse_append, List.dropWhile_append_of_pos, ← dropAttributes]
  intro w hw
  exact List.contains_iff_mem.2 (h w (List.mem_reverse.1 hw))

theorem dropAttributes_eq_self {ws : List (List Char)} (h : ∀ w ∈ ws.getLast?, ¬ IsAttribute w) :
    dropAttributes ws = ws := by
  induction ws using List.reverseRecOn with
  | nil => rfl
  | append_singleton ws w _ =>
    have hw : ¬ IsAttribute w := h w List.getLast?_concat
    have hcontains : ¬ typeAttributes.contains (String.ofList w) = true := by
      rwa [List.contains_iff_mem]
    rw [dropAttributes, List.reverse_concat, List.dropWhile_cons_of_neg, List.reverse_cons,
      List.reverse_reverse]
    exact hcontains

/-- Behind the words that are kept there are attributes only. -/
theorem exists_dropAttributes_append (ws : List (List Char)) : ∃ attributes,
    ws = dropAttributes ws ++ attributes ∧ (∀ w ∈ attributes, IsAttribute w) ∧
      ∀ w ∈ (dropAttributes ws).getLast?, ¬ IsAttribute w := by
  induction ws using List.reverseRecOn with
  | nil => exact ⟨[], rfl, by simp, by simp [dropAttributes]⟩
  | append_singleton ws w ih =>
    by_cases hw : IsAttribute w
    · obtain ⟨attributes, hws, hall, hlast⟩ := ih
      have hone : ∀ v ∈ [w], IsAttribute v := List.forall_mem_singleton.2 hw
      rw [dropAttributes_append hone]
      refine ⟨attributes ++ [w], ?_, List.forall_mem_append.2 ⟨hall, hone⟩, hlast⟩
      rw [← List.append_assoc, ← hws]
    · have hlast : ∀ v ∈ (ws ++ [w]).getLast?, ¬ IsAttribute v := by simpa using hw
      rw [dropAttributes_eq_self hlast]
      exact ⟨[], (List.append_nil _).symm, by simp, hlast⟩

/-- A type is read in one way: by its name and the attributes behind it. -/
theorem typeReads_iff {dataType : String} {name attributes : List (List Char)} :
    TypeReads dataType name attributes ↔ typeName dataType = name ∧
      typeWords (lowerCase dataType) = name ++ attributes ∧ ∀ w ∈ attributes, IsAttribute w := by
  constructor
  · rintro ⟨⟨ws, hwords, hws⟩, hattributes, hlast⟩
    have htype : typeWords (lowerCase dataType) = name ++ attributes := by
      rw [typeWords, hwords.words_eq, hws]
    refine ⟨?_, htype, hattributes⟩
    rw [typeName, htype, dropAttributes_append hattributes, dropAttributes_eq_self hlast]
  · rintro ⟨rfl, htype, hattributes⟩
    obtain ⟨-, -, -, hlast⟩ := exists_dropAttributes_append (typeWords (lowerCase dataType))
    exact ⟨⟨_, Text.wordsOf_words _ _, htype⟩, hattributes, hlast⟩

theorem exists_typeReads (dataType : String) :
    ∃ attributes, TypeReads dataType (typeName dataType) attributes := by
  obtain ⟨attributes, hwords, hattributes, -⟩ :=
    exists_dropAttributes_append (typeWords (lowerCase dataType))
  exact ⟨attributes, typeReads_iff.2 ⟨rfl, hwords, hattributes⟩⟩

/-! ### Listed names -/

theorem mem_spelled {ws : List (List Char)} {w : List Char} (hw : w ∈ ws) {c : Char} (hc : c ∈ w) :
    c ∈ (spelled ws).toList := by
  induction ws with
  | nil => cases hw
  | cons v ws ih =>
    cases ws with
    | nil =>
      obtain rfl := List.mem_singleton.1 hw
      simpa [spelled] using hc
    | cons u ws =>
      have hcons : spelled (v :: u :: ws) = String.ofList v ++ " " ++ spelled (u :: ws) :=
        String.intercalate_cons_cons
      rw [hcons, String.toList_append, String.toList_append, String.toList_ofList, List.mem_append,
        List.mem_append]
      rcases List.mem_cons.1 hw with rfl | hw
      · exact .inl (.inl hc)
      · exact .inr (ih hw)

/-- No listed name holds a bracket. -/
theorem bracket_not_mem_of_mem_numericTypes {name : String} (h : name ∈ numericTypes) :
    '[' ∉ name.toList := by
  revert name
  decide

/-- A word character separates no words. -/
theorem isTypeSeparator_of_isWordChar {c : Char} (h : Text.isWordChar c = true) :
    isTypeSeparator c = false := by
  have hne : ∀ d, Text.isWordChar d = false → c ≠ d := by
    rintro d hd rfl
    rw [h] at hd
    cases hd
  simp [isTypeSeparator, Text.isBlank_of_isWordChar h, hne '(' (by decide), hne ')' (by decide)]

/-- Attributes are words in small letters. -/
theorem IsAttribute.letters {w : List Char} (h : IsAttribute w) {c : Char} (hc : c ∈ w) :
    Text.isWordChar c = true ∧ c.isUpper = false := by
  have hall : ∀ a ∈ typeAttributes, ∀ c ∈ a.toList,
      Text.isWordChar c = true ∧ c.isUpper = false := by
    simp [typeAttributes, Text.isWordChar]
  exact hall _ h c (by rwa [String.toList_ofList])

/-- A bracket in a type is in its name. -/
theorem bracket_mem_spelled {dataType : String} (h : '[' ∈ lowerCase dataType) :
    '[' ∈ (spelled (typeName dataType)).toList := by
  obtain ⟨attributes, hreads⟩ := exists_typeReads dataType
  obtain ⟨ws, hwords, hws⟩ := hreads.words_eq
  obtain ⟨w, hw, hbracket⟩ := hwords.exists_mem h (by decide)
  have hprecision : isPrecision w = false := by
    rw [isPrecision, List.all_eq_false]
    exact ⟨'[', hbracket, by decide⟩
  have hmem : w ∈ typeName dataType ++ attributes := by
    rw [← hws]
    exact List.mem_filter.2 ⟨hw, by simp [hprecision]⟩
  rcases List.mem_append.1 hmem with hname | hattribute
  · exact mem_spelled hname hbracket
  · exact absurd ((hreads.attributes w hattribute).letters hbracket).1 (by decide)

/-- A type is numeric exactly if its name is listed. -/
theorem isNumericType_iff (dataType : String) :
    isNumericType dataType = true ↔ spelled (typeName dataType) ∈ numericTypes := by
  have hdef : isNumericType dataType =
      (!(lowerCase dataType).contains '[' && numericTypes.contains (spelled (typeName dataType))) :=
    rfl
  rw [hdef, Bool.and_eq_true, List.contains_iff_mem, Bool.not_eq_true']
  refine and_iff_right_of_imp fun hname => ?_
  rw [← Bool.not_eq_true, List.contains_iff_mem]
  exact fun h => bracket_not_mem_of_mem_numericTypes hname (bracket_mem_spelled h)

/-! ### Other texts of a type -/

/-- White space only. -/
def IsBlanks (s : String) : Prop := ∀ c ∈ s.toList, isBlank c = true

/-- Digits, with white space around them. -/
def IsNumberText (s : String) : Prop :=
  ∃ left digits right, s = left ++ digits ++ right ∧ IsBlanks left ∧
    (∀ c ∈ digits.toList, c.isDigit = true) ∧ IsBlanks right

/-- A precision in parentheses. -/
inductive IsPrecisionText : String → Prop
  /-- One number. -/
  | single {blanks p : String} (hblanks : IsBlanks blanks) (hp : IsNumberText p) :
    IsPrecisionText (blanks ++ "(" ++ p ++ ")")
  /-- Two numbers. -/
  | scaled {blanks p s : String} (hblanks : IsBlanks blanks) (hp : IsNumberText p)
    (hs : IsNumberText s) : IsPrecisionText (blanks ++ "(" ++ p ++ "," ++ s ++ ")")

/-- Attributes, with white space between and around them. -/
def IsAttributesText (s : String) : Prop :=
  ∃ ws, WordsOf isBlank s.toList ws ∧ ∀ w ∈ ws, IsAttribute w

/-- `Respelled s t`: a type is written in another way. -/
inductive Respelled : String → String → Prop
  /-- In another ASCII case. -/
  | recased {s t : String} (h : lowerCase s = lowerCase t) : Respelled s t
  /-- With white space around it. -/
  | padded (t : String) {left right : String} (hleft : IsBlanks left) (hright : IsBlanks right) :
    Respelled t (left ++ t ++ right)
  /-- With other white space at a place where there is some. -/
  | widened (before after : String) {run wider : String} (hne : run ≠ "") (hrun : IsBlanks run)
    (hne' : wider ≠ "") (hwider : IsBlanks wider) :
    Respelled (before ++ run ++ after) (before ++ wider ++ after)
  /-- With a precision and attributes behind it. -/
  | qualified (t : String) {precision attributes : String} (hprecision : IsPrecisionText precision)
    (hattributes : IsAttributesText attributes) : Respelled t (t ++ precision ++ attributes)
  /-- In several of these ways. -/
  | trans {s t u : String} (hst : Respelled s t) (htu : Respelled t u) : Respelled s u

section Spelling

variable {s t : String}

@[simp] theorem lowerCase_append (s t : String) :
    lowerCase (s ++ t) = lowerCase s ++ lowerCase t := by
  simp [lowerCase]

theorem lowerCase_eq_self (h : ∀ c ∈ s.toList, c.isUpper = false) : lowerCase s = s.toList := by
  refine (List.map_congr_left fun c hc => ?_).trans (List.map_id _)
  exact dif_neg (of_decide_eq_false (h c hc))

/-- Separators have one case only. -/
theorem isUpper_of_isTypeSeparator {c : Char} (h : isTypeSeparator c = true) :
    c.isUpper = false := by
  by_contra hupper
  have hword : Text.isWordChar c = true := by
    have halpha : c.isAlpha = true := Bool.or_eq_true_iff.2 (.inl (Bool.of_not_eq_false hupper))
    simp [Text.isWordChar, Char.isAlphanum, halpha]
  rw [isTypeSeparator_of_isWordChar hword] at h
  cases h

theorem isUpper_of_isDigit {c : Char} (h : c.isDigit = true) : c.isUpper = false := by
  have hdigit := Text.toNat_of_isDigit h
  refine decide_eq_false fun hletter => ?_
  have hletter : 65 ≤ c.toNat ∧ c.toNat ≤ 90 := hletter
  omega

/-- White space separates words. -/
theorem IsBlanks.separators (h : IsBlanks s) : ∀ c ∈ s.toList, isTypeSeparator c = true := by
  intro c hc
  simp [isTypeSeparator, h c hc]

theorem IsBlanks.lowerCase_eq (h : IsBlanks s) : lowerCase s = s.toList :=
  lowerCase_eq_self fun c hc => isUpper_of_isTypeSeparator (h.separators c hc)

end Spelling

/-! ### What keeps the name -/

section Names

theorem typeWords_append_of_head {b : List Char} (hb : ∀ c ∈ b.head?, isTypeSeparator c = true)
    (a : List Char) : typeWords (a ++ b) = typeWords a ++ typeWords b := by
  rw [typeWords, Text.words_append_of_head hb, List.filter_append, ← typeWords, ← typeWords]

theorem typeWords_separators_append {separators : List Char}
    (h : ∀ c ∈ separators, isTypeSeparator c = true) (b : List Char) :
    typeWords (separators ++ b) = typeWords b := by
  rw [typeWords, Text.words_separators_append h, ← typeWords]

theorem typeWords_append_separators {separators : List Char} (hne : separators ≠ [])
    (h : ∀ c ∈ separators, isTypeSeparator c = true) (a b : List Char) :
    typeWords (a ++ separators ++ b) = typeWords a ++ typeWords b := by
  rw [typeWords, Text.words_append_separators hne h, List.filter_append, ← typeWords, ← typeWords]

/-- Whether a character may stand in a precision. -/
def IsPrecisionChar (c : Char) : Prop :=
  isTypeSeparator c = true ∨ c.isDigit = true ∨ c = ','

theorem IsPrecisionChar.isUpper_eq {c : Char} (h : IsPrecisionChar c) : c.isUpper = false := by
  rcases h with h | h | rfl
  · exact isUpper_of_isTypeSeparator h
  · exact isUpper_of_isDigit h
  · decide

/-- A precision has no words of its own. -/
theorem typeWords_eq_nil {cs : List Char} (h : ∀ c ∈ cs, IsPrecisionChar c) :
    typeWords cs = [] := by
  rw [typeWords, List.filter_eq_nil_iff]
  intro w hw
  have hall : isPrecision w = true := by
    refine List.all_eq_true.2 fun c hc => ?_
    obtain ⟨hmem, hletter⟩ := (Text.wordsOf_words isTypeSeparator cs).mem_of_mem hw hc
    rcases h c hmem with h | h | rfl
    · simp [h] at hletter
    · simp [h]
    · rfl
  simp [hall]

theorem IsBlanks.precisionChars {s : String} (h : IsBlanks s) : ∀ c ∈ s.toList, IsPrecisionChar c :=
  fun c hc => .inl (h.separators c hc)

theorem IsNumberText.precisionChars {s : String} (h : IsNumberText s) :
    ∀ c ∈ s.toList, IsPrecisionChar c := by
  obtain ⟨left, digits, right, rfl, hleft, hdigits, hright⟩ := h
  simp only [String.toList_append, List.forall_mem_append]
  exact ⟨⟨hleft.precisionChars, fun c hc => .inr (.inl (hdigits c hc))⟩, hright.precisionChars⟩

/-- A precision begins with a separator and ends with one. -/
theorem IsPrecisionText.exists_body {s : String} (h : IsPrecisionText s) :
    ∃ body, s.toList = body ++ [')'] ∧ (∀ c ∈ body.head?, isTypeSeparator c = true) ∧
      ∀ c ∈ body, IsPrecisionChar c := by
  have hopen : ∀ {blanks : String} (_ : IsBlanks blanks) (rest : List Char),
      ∀ c ∈ (blanks.toList ++ '(' :: rest).head?, isTypeSeparator c = true := by
    intro blanks hblanks rest c hc
    cases hlist : blanks.toList with
    | nil =>
      obtain rfl : '(' = c := by simpa [hlist] using hc
      decide
    | cons b list =>
      obtain rfl : b = c := by simpa [hlist] using hc
      exact hblanks.separators b (by simp [hlist])
  have hparenthesis : IsPrecisionChar '(' := .inl (by decide)
  cases h with
  | @single blanks p hblanks hp =>
    refine ⟨blanks.toList ++ '(' :: p.toList, by simp, hopen hblanks _, ?_⟩
    simp only [List.forall_mem_append, List.forall_mem_cons]
    exact ⟨hblanks.precisionChars, hparenthesis, hp.precisionChars⟩
  | @scaled blanks p s hblanks hp hs =>
    refine ⟨blanks.toList ++ '(' :: (p.toList ++ ',' :: s.toList), by simp, hopen hblanks _, ?_⟩
    simp only [List.forall_mem_append, List.forall_mem_cons]
    exact ⟨hblanks.precisionChars, hparenthesis, hp.precisionChars, .inr (.inr rfl),
      hs.precisionChars⟩

theorem IsPrecisionText.lowerCase_eq {s : String} (h : IsPrecisionText s) :
    lowerCase s = s.toList := by
  obtain ⟨body, hs, -, hbody⟩ := h.exists_body
  have hclose : IsPrecisionChar ')' := .inl (by decide)
  refine lowerCase_eq_self fun c hc => ?_
  rw [hs, List.mem_append, List.mem_singleton] at hc
  rcases hc with hc | rfl
  · exact (hbody c hc).isUpper_eq
  · exact hclose.isUpper_eq

/-- Behind a precision words begin anew. -/
theorem typeWords_append_precision {precision : String} (h : IsPrecisionText precision)
    (a b : List Char) : typeWords (a ++ precision.toList ++ b) = typeWords a ++ typeWords b := by
  obtain ⟨body, hs, hhead, hbody⟩ := h.exists_body
  have hclose : ∀ c ∈ [')'], isTypeSeparator c = true :=
    List.forall_mem_singleton.2 (by decide)
  rw [hs, ← List.append_assoc, typeWords_append_separators (List.cons_ne_nil _ _) hclose,
    typeWords_append_of_head hhead, typeWords_eq_nil hbody, List.append_nil]

/-- White space is what separates attributes. -/
theorem wordsOf_attributes {cs : List Char} {ws : List (List Char)} (h : WordsOf isBlank cs ws)
    (hws : ∀ w ∈ ws, IsAttribute w) : WordsOf isTypeSeparator cs ws := by
  have hblank : ∀ c, isBlank c = true → isTypeSeparator c = true := fun c hc => by
    simp [isTypeSeparator, hc]
  induction h with
  | nil hseparators => exact .nil fun c hc => hblank c (hseparators c hc)
  | cons hseparators hne _ hend _ ih =>
    rw [List.forall_mem_cons] at hws
    exact .cons (fun c hc => hblank c (hseparators c hc)) hne
      (fun c hc => isTypeSeparator_of_isWordChar (hws.1.letters hc).1)
      (fun c hc => hblank c (hend c hc)) (ih hws.2)

/-- The words of attributes are attributes. -/
theorem IsAttributesText.typeWords {s : String} (h : IsAttributesText s) :
    ∀ w ∈ typeWords s.toList, IsAttribute w := by
  obtain ⟨ws, hwords, hattributes⟩ := h
  intro w hw
  rw [BoundSql.typeWords, (wordsOf_attributes hwords hattributes).words_eq] at hw
  exact hattributes w ((List.mem_filter.1 hw).1)

theorem IsAttributesText.lowerCase_eq {s : String} (h : IsAttributesText s) :
    lowerCase s = s.toList := by
  obtain ⟨ws, hwords, hattributes⟩ := h
  refine lowerCase_eq_self fun c hc => ?_
  cases hblank : isBlank c with
  | true => exact isUpper_of_isTypeSeparator (by simp [isTypeSeparator, hblank])
  | false =>
    obtain ⟨w, hw, hcw⟩ := hwords.exists_mem hc hblank
    exact ((hattributes w hw).letters hcw).2

/-- However a type is written, its name is the same. -/
theorem Respelled.typeName_eq {s t : String} (h : Respelled s t) : typeName t = typeName s := by
  induction h with
  | recased h => rw [typeName, typeName, h]
  | @padded t left right hleft hright =>
    have hhead : ∀ c ∈ right.toList.head?, isTypeSeparator c = true := fun c hc =>
      hright.separators c (List.mem_of_mem_head? hc)
    simp only [typeName, lowerCase_append, hleft.lowerCase_eq, hright.lowerCase_eq]
    rw [typeWords_append_of_head hhead, typeWords_eq_nil hright.precisionChars, List.append_nil,
      typeWords_separators_append hleft.separators]
  | @widened before after run wider hne hrun hne' hwider =>
    have hlist : run.toList ≠ [] := by simpa using hne
    have hlist' : wider.toList ≠ [] := by simpa using hne'
    simp only [typeName, lowerCase_append, hrun.lowerCase_eq, hwider.lowerCase_eq]
    rw [typeWords_append_separators hlist hrun.separators,
      typeWords_append_separators hlist' hwider.separators]
  | @qualified t precision attributes hprecision hattributes =>
    simp only [typeName, lowerCase_append, hprecision.lowerCase_eq, hattributes.lowerCase_eq]
    rw [typeWords_append_precision hprecision, dropAttributes_append hattributes.typeWords]
  | trans _ _ ihst ihtu => exact ihtu.trans ihst

end Names

/-! ### The laws -/

/-- The laws of numeric types. -/
structure NumericTypeLaws (dataType : String) : Prop where
  /-- A type can be written in another ASCII case, with white space around it, with other white
  space inside, and with a precision and attributes behind it. -/
  respelled : ∀ other, Respelled dataType other → isNumericType other = isNumericType dataType
  /-- Arrays are not numeric. -/
  array : '[' ∈ dataType.toList → isNumericType dataType = false
  /-- A type is numeric exactly if its words, pure numbers left out, are a listed name and then
  attributes. -/
  numeric_iff : isNumericType dataType = true ↔
    ∃ name attributes, TypeReads dataType name attributes ∧ spelled name ∈ numericTypes
  /-- Its words can be read as a name and then attributes. -/
  readable : ∃ name attributes, TypeReads dataType name attributes
  /-- A name counts as a whole: one that only begins with a listed name, or holds one, and is not
  listed itself is not numeric. -/
  in_full : ∀ name attributes, TypeReads dataType name attributes → spelled name ∉ numericTypes →
    isNumericType dataType = false

/-- Whether a type is numeric is decided by its name, in whichever way the type is written. -/
theorem numeric_by_name (dataType : String) : NumericTypeLaws dataType := by
  obtain ⟨attributes, hreads⟩ := exists_typeReads dataType
  exact {
    respelled := by
      intro other h
      rw [Bool.eq_iff_iff, isNumericType_iff, isNumericType_iff, h.typeName_eq]
    array := by
      intro h
      have hlower : '[' ∈ lowerCase dataType := List.mem_map.2 ⟨'[', h, by decide⟩
      rw [← Bool.not_eq_true, isNumericType_iff]
      exact fun hname => bracket_not_mem_of_mem_numericTypes hname (bracket_mem_spelled hlower)
    numeric_iff := by
      rw [isNumericType_iff]
      constructor
      · exact fun h => ⟨_, attributes, hreads, h⟩
      · rintro ⟨name, attributes', hreads', h⟩
        rwa [(typeReads_iff.1 hreads').1]
    readable := ⟨_, attributes, hreads⟩
    in_full := by
      intro name attributes' hreads' hname
      rw [← Bool.not_eq_true, isNumericType_iff, (typeReads_iff.1 hreads').1]
      exact hname }

/-- A listed name of two words, in two of the ways to write it. -/
example : isNumericType " Double\tPRECISION ( 10 , 2 )unsigned" = true := by decide

end BoundSql
