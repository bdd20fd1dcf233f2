import BoundSql.Proofs.Inlined.Reading
import Mathlib.Data.Nat.Digits.Defs

/-! # Inlining substitutes tokens
* **`Piece.StandsFor`**, **`LastGiven`**, **`Piece.Carries`** — the place a token stands for, the
  value given for a place, and so the value that a token carries.
* **`Substituted`** — text in which tokens that carry a value are replaced by its literal, and all
  else is kept.
* **`inlined_iff_substituted`** — a statement with its values inlined is its reading with every
  token substituted. -/

namespace BoundSql.Inlined

open Template (afterColon)

/-! ### The values of tokens -/

/-- Whether a piece is a token of the parameter at a slot, where `asked` question marks precede
it. -/
def Piece.StandsFor (asked : Nat) : Piece → Slot → Prop
  | question, slot => slot = .position (asked + 1)
  | numbered digits, slot =>
    digits ≠ [] ∧ slot = .position (Nat.ofDigits 10 (digits.reverse.map Number.digitValue))
  | named name, slot => slot = .named (":" ++ String.ofList name)
  | _, _ => False

/-- Whether a value is the one given for a slot: that of the last parameter for it. -/
def LastGiven (params : List Param) (slot : Slot) (v : WireValue) : Prop :=
  ∃ earlier later, params = earlier ++ ⟨slot, v⟩ :: later ∧ ∀ p ∈ later, p.slot ≠ slot

/-- Whether a piece is a token to which a value is bound, where `before` are the pieces before
it. -/
def Piece.Carries (params : List Param) (before : List Piece) (p : Piece) (v : WireValue) : Prop :=
  ∃ slot, p.StandsFor (before.count .question) slot ∧ LastGiven params slot v

/-- The value bound to a piece, where `before` are the pieces before it. -/
def Piece.value? (params : List Param) (before : List Piece) (p : Piece) : Option WireValue :=
  (p.slot? (before.count .question)).bind (valueAt? params)

/-- Digits are read from the last one on as well as from the first. -/
theorem digitsValue_eq_ofDigits (digits : List Char) :
    Number.digitsValue 0 digits = Nat.ofDigits 10 (digits.reverse.map Number.digitValue) := by
  rw [Nat.ofDigits_eq_foldr, List.foldr_map, List.foldr_reverse, Number.digitsValue]
  congr 1
  funext n c
  rw [Nat.cast_id, Nat.mul_comm, Nat.add_comm]

/-- The slot of a token is the one it stands for. -/
theorem Piece.slot?_eq_some_iff {asked : Nat} {p : Piece} {slot : Slot} :
    p.slot? asked = some slot ↔ p.StandsFor asked slot := by
  cases p with
  | literal text => simp [slot?, StandsFor]
  | quoted text => simp [slot?, StandsFor]
  | question => simp [slot?, StandsFor, eq_comm]
  | numbered digits =>
    cases digits with
    | nil => simp [slot?, StandsFor]
    | cons c cs => rw [StandsFor, ← digitsValue_eq_ofDigits]; simp [slot?, eq_comm]
  | named name =>
    have htoken : String.ofList (':' :: name) = ":" ++ String.ofList name := by
      rw [← String.toList_inj]
      simp
    simp [slot?, StandsFor, htoken, eq_comm]
  | plain c => simp [slot?, StandsFor]

/-- The value at a slot is the last one given for it. -/
theorem valueAt?_eq_some_iff {params : List Param} {slot : Slot} {v : WireValue} :
    valueAt? params slot = some v ↔ LastGiven params slot v := by
  rw [valueAt?, Option.map_eq_some_iff]
  constructor
  · rintro ⟨⟨slot', v'⟩, hfind, rfl⟩
    obtain ⟨hslot, later, earlier, hparams, hlater⟩ := List.find?_eq_some_iff_append.1 hfind
    obtain rfl : slot' = slot := by simpa using hslot
    refine ⟨earlier.reverse, later.reverse, ?_, fun p hp => ?_⟩
    · simpa using congrArg List.reverse hparams
    · simpa using hlater p (List.mem_reverse.1 hp)
  · rintro ⟨earlier, later, rfl, hlater⟩
    refine ⟨⟨slot, v⟩, List.find?_eq_some_iff_append.2 ?_, rfl⟩
    exact ⟨by simp, later.reverse, earlier.reverse, by simp, fun p hp => by
      simpa using hlater p (List.mem_reverse.1 hp)⟩

/-- The value bound to a piece is the one it carries. -/
theorem Piece.value?_eq_some_iff {params : List Param} {before : List Piece} {p : Piece}
    {v : WireValue} : p.value? params before = some v ↔ p.Carries params before v := by
  simp only [value?, Option.bind_eq_some_iff, slot?_eq_some_iff, valueAt?_eq_some_iff, Carries]

/-! ### Substitution -/

/-- Whether a piece is a token of any dialect. -/
def Piece.isToken : Piece → Bool
  | question | numbered _ | named _ => true
  | _ => false

/-- `Substituted d max params tokens before pieces shown`: `shown` is the text of `pieces`, which
follow the pieces `before`, where each of the given tokens that carries a value is replaced by its
literal. -/
inductive Substituted (d : Dialect) (max : Option Nat) (params : List Param)
    (tokens : Piece → Bool) : List Piece → List Piece → String → Prop
  /-- Nothing is left. -/
  | nil {before : List Piece} : Substituted d max params tokens before [] ""
  /-- A token that carries a value is replaced by the literal of the value. -/
  | replace {before rest : List Piece} {p : Piece} {v : WireValue} {shown : String}
      (token : tokens p = true) (value : p.Carries params before v)
      (others : Substituted d max params tokens (before ++ [p]) rest shown) :
      Substituted d max params tokens before (p :: rest) (v.literal d max ++ shown)
  /-- Any other piece is kept. -/
  | keep {before rest : List Piece} {p : Piece} {shown : String}
      (free : tokens p = true → ∀ v, ¬ p.Carries params before v)
      (others : Substituted d max params tokens (before ++ [p]) rest shown) :
      Substituted d max params tokens before (p :: rest) (String.ofList p.source ++ shown)

/-- The text of a piece after substitution. -/
def Piece.substitute (d : Dialect) (max : Option Nat) (params : List Param)
    (tokens : Piece → Bool) (before : List Piece) (p : Piece) : String :=
  match p.value? params before with
  | some v => if tokens p then v.literal d max else String.ofList p.source
  | none => String.ofList p.source

/-- The text of pieces after substitution. -/
def substitute (d : Dialect) (max : Option Nat) (params : List Param) (tokens : Piece → Bool) :
    List Piece → List Piece → String
  | _, [] => ""
  | before, p :: rest =>
    p.substitute d max params tokens before ++ substitute d max params tokens (before ++ [p]) rest

section

variable {d : Dialect} {max : Option Nat} {params : List Param} {tokens : Piece → Bool}
  {before : List Piece}

theorem Piece.substitute_of_carries {p : Piece} {v : WireValue} (ht : tokens p = true)
    (hv : p.Carries params before v) :
    p.substitute d max params tokens before = v.literal d max := by
  rw [substitute, value?_eq_some_iff.2 hv]
  exact if_pos ht

theorem Piece.substitute_of_free {p : Piece}
    (h : tokens p = true → ∀ v, ¬ p.Carries params before v) :
    p.substitute d max params tokens before = String.ofList p.source := by
  rw [substitute]
  cases hv : p.value? params before with
  | none => rfl
  | some v =>
    by_cases ht : tokens p = true
    · exact absurd (value?_eq_some_iff.1 hv) (h ht v)
    · exact if_neg ht

/-- Substitution has one result. -/
theorem substituted_iff {pieces : List Piece} {shown : String} :
    Substituted d max params tokens before pieces shown ↔
      shown = substitute d max params tokens before pieces := by
  constructor
  · intro h
    induction h with
    | nil => rfl
    | replace token value others ih =>
      rw [substitute, Piece.substitute_of_carries token value, ih]
    | keep free others ih => rw [substitute, Piece.substitute_of_free free, ih]
  · rintro rfl
    induction pieces generalizing before with
    | nil => exact .nil
    | cons p rest ih =>
      by_cases h : ∃ v, tokens p = true ∧ p.Carries params before v
      · obtain ⟨v, ht, hv⟩ := h
        rw [substitute, Piece.substitute_of_carries ht hv]
        exact .replace ht hv ih
      · have hfree : tokens p = true → ∀ v, ¬ p.Carries params before v := fun ht v hv =>
          h ⟨v, ht, hv⟩
        rw [substitute, Piece.substitute_of_free hfree]
        exact .keep hfree ih

/-! ### What is shown -/

/-- A piece is shown as substitution leaves it. -/
theorem Piece.shown_eq_substitute (p : Piece) :
    p.shown d max params (before.count .question) =
      p.substitute d max params isToken before := by
  rw [shown, substitute, value?]
  cases hv : (p.slot? (before.count .question)).bind (valueAt? params) with
  | none => rfl
  | some v =>
    -- A piece with a slot is a token.
    obtain ⟨slot, hslot, -⟩ := Option.bind_eq_some_iff.1 hv
    have htoken : p.isToken = true := by
      cases p <;> first | rfl | cases hslot
    exact (if_pos htoken).symm

/-- Quoted identifiers are shown as they are. -/
theorem shownFrom_append_quoted {parts : List Piece}
    (h : ∀ p ∈ parts, ∃ text, p = .quoted text) (asked : Nat) (rest : List Piece) :
    shownFrom d max params asked (parts ++ rest) =
      String.ofList (parts.flatMap Piece.source) ++ shownFrom d max params asked rest := by
  induction parts with
  | nil => simp
  | cons p parts ih =>
    obtain ⟨text, rfl⟩ := h p (by simp)
    have hshown : (Piece.quoted text).shown d max params asked = String.ofList text := rfl
    rw [List.cons_append, shownFrom, if_neg (by simp), ih fun q hq => h q (by simp [hq]), hshown,
      List.flatMap_cons, String.ofList_append, String.append_assoc]
    rfl

/-- What is shown for a text is its reading with every token substituted. -/
theorem Reads.shownFrom_eq {prev : Option Char} {cs : List Char} {pieces : List Piece}
    (h : Reads d prev cs pieces) (before : List Piece) :
    shownFrom d max params (before.count .question) (scanFrom d (afterColon prev) cs) =
      substitute d max params Piece.isToken before pieces := by
  induction h generalizing before with
  | nil => rw [scanFrom, shownFrom, substitute]
  | @cons prev p rest pieces first others ih =>
    obtain ⟨parts, hscan, hparts⟩ := first.exists_parts
    rw [hscan, substitute, ← Piece.shown_eq_substitute, ← ih (before ++ [p])]
    rcases hparts with rfl | ⟨⟨text, rfl⟩, hsource, hquoted⟩
    · have hcount : (before ++ [p]).count .question =
          if p = .question then before.count .question + 1 else before.count .question := by
        rw [List.count_append, List.count_singleton]
        split <;> simp_all
      rw [List.singleton_append, shownFrom, hcount]
    · have hcount : (before ++ [Piece.quoted text]).count .question = before.count .question := by
        rw [List.count_append, List.count_singleton, if_neg (by simp), Nat.add_zero]
      rw [shownFrom_append_quoted hquoted, hsource, hcount]
      rfl

/-- Without values the text is shown as it is. -/
theorem shownFrom_nil (asked : Nat) (pieces : List Piece) :
    shownFrom d max [] asked pieces = String.ofList (pieces.flatMap Piece.source) := by
  induction pieces generalizing asked with
  | nil => rfl
  | cons p rest ih =>
    have hvalue : (p.slot? asked).bind (valueAt? []) = none := by
      cases p.slot? asked <;> rfl
    rw [shownFrom, ih, Piece.shown, hvalue, List.flatMap_cons, String.ofList_append]

theorem inlined_eq_shownFrom (sql : String) :
    inlined d max params sql = shownFrom d max params 0 (scan d sql.toList) := by
  rw [inlined]
  split
  · rename_i hempty
    obtain rfl := List.isEmpty_iff.1 hempty
    rw [shownFrom_nil, flatMap_source_scan, String.ofList_toList]
  · rfl

/-- A statement with its values inlined is its reading with every token substituted. -/
theorem Reads.inlined_eq {sql : String} {pieces : List Piece}
    (h : Reads d none sql.toList pieces) :
    inlined d max params sql = substitute d max params Piece.isToken [] pieces := by
  rw [inlined_eq_shownFrom, ← h.shownFrom_eq]
  rfl

end

/-- Inlining is a substitution. The text has exactly one reading, in literals, quoted identifiers,
tokens and other characters, and what is shown is the texts of its pieces in order, where each token
that carries a value is replaced by the literal of the value and everything else is kept. -/
theorem inlined_iff_substituted (d : Dialect) (max : Option Nat) (params : List Param)
    (sql : String) :
    ∃ pieces : List Piece,
      (∀ pieces', Reads d none sql.toList pieces' ↔ pieces' = pieces) ∧
      ∀ shown, inlined d max params sql = shown ↔
        Substituted d max params Piece.isToken [] pieces shown := by
  obtain ⟨pieces, hpieces⟩ := exists_unique_reads d none sql.toList
  refine ⟨pieces, hpieces, fun shown => ?_⟩
  rw [substituted_iff, ((hpieces pieces).2 rfl).inlined_eq]
  exact eq_comm

/-- An inserted literal is not read again, and neither a literal nor a longer name is a token. -/
example :
    inlined .mysql none [⟨.position 1, .str ":a?"⟩, ⟨.named ":a", .int 7⟩] "?, :a, ':a', :ab, ?" =
      "':a?', 7, ':a', :ab, ?" := by
  decide +kernel

end BoundSql.Inlined
