import BoundSql.Dialect
import BoundSql.Proofs.Text.Delimited

/-! # Text inside and outside of quotes
Statement text as far as quotes go.
* **`Lexeme`**, **`Dialect.lex`** — string literals, identifiers in quotes, and the single
  characters outside of both.
* **`Dialect.Closed`** — a text leaves all quotes that it enters: what follows it is scanned as if
  it stood alone.
* **`Dialect.closed_append_iff`**, **`Dialect.closed_quoted_iff`** — texts one after another, and a
  quoted identifier in front of a text. -/

namespace BoundSql

/-- A piece of statement text as far as quotes go. -/
inductive Lexeme
  /-- A string literal, from its opening delimiter on. -/
  | literal (text : List Char)
  /-- An identifier in quotes, from its opening quote on. -/
  | quoted (text : List Char)
  /-- A character outside of quotes. -/
  | other (c : Char)
  deriving DecidableEq, Repr

namespace Dialect

variable {d : Dialect}

/-- The pieces of statement text. -/
def lex (d : Dialect) : List Char → List Lexeme
  | [] => []
  | c :: cs =>
    if d.opensLiteral c then
      .literal (c :: (d.splitLiteral c cs).1) :: lex d (d.splitLiteral c cs).2
    else if c = d.quoteChar then
      .quoted (c :: (d.splitQuoted cs).1) :: lex d (d.splitQuoted cs).2
    else .other c :: lex d cs
termination_by cs => cs.length
decreasing_by
  · exact Nat.lt_succ_of_le (Text.length_splitClosing_snd_le _ _ cs)
  · exact Nat.lt_succ_of_le (Text.length_splitClosing_snd_le _ _ cs)
  · exact Nat.lt_succ_self _

/-- Whether a character opens a literal or a quoted identifier. -/
def isDelimiter (d : Dialect) (c : Char) : Bool := d.opensLiteral c || c == d.quoteChar

/-- Whether text begins outside of quotes. -/
def BeginsOutside (d : Dialect) (cs : List Char) : Prop :=
  ∀ c, cs.head? = some c → d.isDelimiter c = false

/-- Whether text leaves all quotes that it enters, so that text after it which begins outside of
quotes is scanned as if it stood alone. -/
def Closed (d : Dialect) (cs : List Char) : Prop :=
  ∀ rest, d.BeginsOutside rest → d.lex (cs ++ rest) = d.lex cs ++ d.lex rest

/-! ### Beginnings -/

theorem beginsOutside_cons {c : Char} (h : d.isDelimiter c = false) (cs : List Char) :
    d.BeginsOutside (c :: cs) := by
  intro c' hc
  rwa [← Option.some.inj hc]

theorem BeginsOutside.head?_ne {cs : List Char} (h : d.BeginsOutside cs) :
    cs.head? ≠ some d.quoteChar := by
  intro hc
  have hquote := h _ hc
  simp [isDelimiter] at hquote

theorem BeginsOutside.append {l r : List Char} (hl : d.BeginsOutside l) (hne : l ≠ []) :
    d.BeginsOutside (l ++ r) := by
  cases l with
  | nil => exact absurd rfl hne
  | cons c l => exact hl

/-- The quote character opens no literal. -/
theorem opensLiteral_quoteChar (d : Dialect) : d.opensLiteral d.quoteChar = false := by
  cases d <;> decide

theorem isDelimiter_dot (d : Dialect) : d.isDelimiter '.' = false := by
  cases d <;> decide

theorem isDelimiter_star (d : Dialect) : d.isDelimiter '*' = false := by
  cases d <;> decide

/-! ### Pieces -/

@[simp] theorem lex_nil (d : Dialect) : d.lex [] = [] := by
  rw [lex]

/-- A character outside of quotes. -/
theorem lex_other {c : Char} (h : d.isDelimiter c = false) (cs : List Char) :
    d.lex (c :: cs) = .other c :: d.lex cs := by
  rw [isDelimiter, Bool.or_eq_false_iff] at h
  rw [lex, if_neg (by simp [h.1]), if_neg (by simpa using h.2)]

/-- A string literal in front of a text. -/
theorem lex_literal {q : Char} {body rest : List Char} (hq : d.opensLiteral q = true)
    (h : Text.Closes d.backslashEscapes q body rest) :
    d.lex (q :: (body ++ rest)) = .literal (q :: body) :: d.lex rest := by
  rw [lex, if_pos hq, splitLiteral_of_closes hq h]

/-- An identifier in quotes in front of a text. -/
theorem lex_quoted_of_closes {body rest : List Char}
    (h : Text.Closes false d.quoteChar body rest) :
    d.lex (d.quoteChar :: (body ++ rest)) = .quoted (d.quoteChar :: body) :: d.lex rest := by
  rw [lex, if_neg (by simp [opensLiteral_quoteChar]), if_pos rfl, splitQuoted_of_closes h]

/-- A name with its quotes doubled between quotes, in front of all but another quote. -/
theorem lex_quoted (name : List Char) {rest : List Char} (h : rest.head? ≠ some d.quoteChar) :
    d.lex (d.quoteChar :: (Text.double d.quoteChar name ++ d.quoteChar :: rest)) =
      .quoted (d.quoteChar :: (Text.double d.quoteChar name ++ [d.quoteChar])) :: d.lex rest := by
  have hcut := lex_quoted_of_closes (Text.closes_double d.quoteChar name h)
  rwa [List.append_assoc, List.singleton_append] at hcut

/-! ### Closed text -/

theorem closed_nil (d : Dialect) : d.Closed [] := by
  intro rest _
  rw [List.nil_append, lex_nil, List.nil_append]

/-- Text after closed text is closed exactly if both are closed together. -/
theorem closed_append_iff {l r : List Char} (hl : d.Closed l) (hne : r ≠ [])
    (hr : d.BeginsOutside r) : d.Closed (l ++ r) ↔ d.Closed r := by
  have hboth : ∀ rest, d.lex (l ++ r ++ rest) = d.lex l ++ d.lex (r ++ rest) := by
    intro rest
    rw [List.append_assoc, hl _ (hr.append hne)]
  constructor
  · intro h rest hrest
    have hall := h rest hrest
    rw [hboth, hl r hr, List.append_assoc] at hall
    exact List.append_cancel_left hall
  · intro h rest hrest
    rw [hboth, h rest hrest, hl r hr, List.append_assoc]

/-- A character outside of quotes matters to nothing. -/
theorem closed_other_iff {c : Char} (h : d.isDelimiter c = false) (cs : List Char) :
    d.Closed (c :: cs) ↔ d.Closed cs := by
  refine forall₂_congr fun rest _ => ?_
  rw [List.cons_append, lex_other h, lex_other h, List.cons_append]
  exact ⟨fun hall => (List.cons.inj hall).2, fun hall => congrArg _ hall⟩

/-- A quoted identifier is left at its closing quote, so what matters is the text after it. -/
theorem closed_quoted_iff (name : List Char) {rest : List Char}
    (h : rest.head? ≠ some d.quoteChar) :
    d.Closed (d.quoteChar :: (Text.double d.quoteChar name ++ d.quoteChar :: rest)) ↔
      d.Closed rest := by
  refine forall₂_congr fun more hmore => ?_
  have hhead : (rest ++ more).head? ≠ some d.quoteChar := by
    cases rest with
    | nil => exact hmore.head?_ne
    | cons c rest => exact h
  rw [List.cons_append, List.append_assoc, List.cons_append, lex_quoted name hhead,
    lex_quoted name h, List.cons_append]
  exact ⟨fun hall => (List.cons.inj hall).2, fun hall => congrArg _ hall⟩

end Dialect

end BoundSql
