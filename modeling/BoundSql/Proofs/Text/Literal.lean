import BoundSql.Proofs.Inlined.Reading

/-! # String literals
A bound text is shown in a statement as a string literal.
* **`Dialect.escaped`** — what stands between the quotes of a literal, and **`Dialect.unescaped`**,
  which undoes it.
* **`Dialect.closes_escaped`** — a literal ends at its own closing quote, in front of all but
  another quote.
* **`WireValue.literal_read_back`** — the literal of a text is scanned as one literal and stands for
  the text, or for what is kept of it. -/

namespace BoundSql

namespace Dialect

/-- Whether a character is written twice inside a string literal. -/
def isDoubled (d : Dialect) (c : Char) : Bool := c == '\'' || (c == '\\' && d.backslashEscapes)

/-- A text as it stands between the quotes of a string literal. -/
def escaped (d : Dialect) (cs : List Char) : List Char :=
  cs.flatMap fun c => if d.isDoubled c then [c, c] else [c]

/-- The text that stands between the quotes of a string literal: of a doubled character one is
kept. -/
def unescaped (d : Dialect) : List Char → List Char
  | [] => []
  | [c] => [c]
  | c :: e :: cs =>
    if d.isDoubled c ∧ e = c then c :: unescaped d cs else c :: unescaped d (e :: cs)

variable {d : Dialect}

/-- A literal is an escaped text in quotes. -/
theorem quoteChars_eq (d : Dialect) (cs : List Char) :
    d.quoteChars cs = '\'' :: (d.escaped cs ++ ['\'']) := rfl

theorem escaped_cons_of_isDoubled {c : Char} (h : d.isDoubled c = true) (cs : List Char) :
    d.escaped (c :: cs) = c :: c :: d.escaped cs := by
  rw [escaped, List.flatMap_cons, if_pos h]
  rfl

theorem escaped_cons_of_not_isDoubled {c : Char} (h : ¬ d.isDoubled c = true) (cs : List Char) :
    d.escaped (c :: cs) = c :: d.escaped cs := by
  rw [escaped, List.flatMap_cons, if_neg h]
  rfl

theorem unescaped_cons_of_not_isDoubled {c : Char} (h : ¬ d.isDoubled c = true) (cs : List Char) :
    d.unescaped (c :: cs) = c :: d.unescaped cs := by
  cases cs with
  | nil => rfl
  | cons e cs => rw [unescaped, if_neg fun hd => h hd.1]

/-- Escaping can be undone. -/
theorem unescaped_escaped (d : Dialect) (cs : List Char) : d.unescaped (d.escaped cs) = cs := by
  induction cs with
  | nil => rfl
  | cons c cs ih =>
    by_cases h : d.isDoubled c = true
    · rw [escaped_cons_of_isDoubled h, unescaped, if_pos ⟨h, rfl⟩, ih]
    · rw [escaped_cons_of_not_isDoubled h, unescaped_cons_of_not_isDoubled h, ih]

/-- A quote opens a literal in every dialect. -/
theorem opensLiteral_quote (d : Dialect) : d.opensLiteral '\'' = true := by
  cases d <;> decide

/-- A literal ends at its own closing quote, unless another quote follows. -/
theorem closes_escaped (cs : List Char) {rest : List Char} (h : rest.head? ≠ some '\'') :
    Text.Closes d.backslashEscapes '\'' (d.escaped cs ++ ['\'']) rest := by
  induction cs with
  | nil => exact .delimiter h
  | cons c cs ih =>
    by_cases hc : d.isDoubled c = true
    · rw [escaped_cons_of_isDoubled hc, List.cons_append, List.cons_append]
      simp only [isDoubled, Bool.or_eq_true, Bool.and_eq_true, beq_iff_eq] at hc
      -- A doubled quote is inside as such, a doubled backslash as one that escapes the other.
      rcases hc with rfl | ⟨rfl, hb⟩
      · exact .doubled ih
      · exact .escaped hb '\\' ih
    · rw [escaped_cons_of_not_isDoubled hc, List.cons_append]
      simp only [isDoubled, Bool.or_eq_true, Bool.and_eq_true, beq_iff_eq, not_or] at hc
      exact .inside hc.1 (fun hb => hc.2 hb.symm) ih

/-- A literal is cut off in front of what follows it exactly if that is no quote. -/
theorem splitLiteral_escaped_iff (cs rest : List Char) :
    d.splitLiteral '\'' (d.escaped cs ++ '\'' :: rest) = (d.escaped cs ++ ['\''], rest) ↔
      rest.head? ≠ some '\'' := by
  constructor
  · intro h
    have hcloses := Text.closes_splitClosing d.backslashEscapes '\'' (d.escaped cs ++ '\'' :: rest)
    rw [← splitLiteral, h] at hcloses
    cases rest with
    | nil => simp
    | cons c rest => exact hcloses.head?_ne (List.cons_ne_nil c rest)
  · intro h
    have hcut := Text.splitClosing_eq_of_closes (fun _ => by decide) (closes_escaped (d := d) cs h)
    rwa [List.append_assoc] at hcut

end Dialect

namespace WireValue

/-- What is shown of a long text: its first characters, followed by dots. -/
theorem toList_preserve_of_le {n : Nat} {s : String} (hn : 0 < n) (h : n ≤ s.toList.length) :
    (preserve (some n) s).toList = s.toList.take n ++ ['.', '.', '.'] := by
  rw [preserve, if_pos ⟨hn, h⟩, String.toList_append, String.toList_ofList]
  rfl

/-- Any other text is shown in full. -/
theorem preserve_of_forall_lt {max : Option Nat} {s : String}
    (h : ∀ n, max = some n → 0 < n → s.toList.length < n) : preserve max s = s := by
  cases max with
  | none => rfl
  | some n =>
    refine if_neg fun hn => ?_
    have := h n rfl hn.1
    omega

/-- The literal of a text is a quote, the escaped text, and a quote. In front of any text `rest`
that begins with no quote, and of no other, it is scanned as one literal that ends where `rest`
begins; the statement text is then read as this literal and the pieces of `rest`. With the escapes
undone the literal stands for the text: for its first `n` characters and three dots if it has `n` or
more and the limit `n` is not zero, and for the whole text otherwise. -/
theorem literal_read_back (d : Dialect) (max : Option Nat) (s : String) (rest : List Char) :
    ∃ inside : List Char,
      ((str s).literal d max).toList = '\'' :: (inside ++ ['\'']) ∧
      d.opensLiteral '\'' = true ∧
      (d.splitLiteral '\'' (inside ++ '\'' :: rest) = (inside ++ ['\''], rest) ↔
        rest.head? ≠ some '\'') ∧
      (rest.head? ≠ some '\'' →
        Inlined.scan d (((str s).literal d max).toList ++ rest) =
          .literal ((str s).literal d max).toList :: Inlined.scan d rest) ∧
      (∀ n, max = some n → 0 < n → n ≤ s.toList.length →
        d.unescaped inside = s.toList.take n ++ ['.', '.', '.']) ∧
      ((∀ n, max = some n → 0 < n → s.toList.length < n) → d.unescaped inside = s.toList) := by
  have htext : ((str s).literal d max).toList =
      '\'' :: (d.escaped (preserve max s).toList ++ ['\'']) := by
    rw [literal, Dialect.quoteString, String.toList_ofList, Dialect.quoteChars_eq]
  refine ⟨d.escaped (preserve max s).toList, htext, d.opensLiteral_quote,
    Dialect.splitLiteral_escaped_iff _ _, fun hrest => ?_, fun n hmax hn h => ?_, fun h => ?_⟩
  · have hcut := (Dialect.splitLiteral_escaped_iff (d := d) (preserve max s).toList rest).2 hrest
    rw [htext, List.cons_append, List.append_assoc, List.singleton_append, Inlined.scan,
      Inlined.scanFrom_literal d.opensLiteral_quote, hcut]
    rfl
  · rw [Dialect.unescaped_escaped, hmax, toList_preserve_of_le hn h]
  · rw [Dialect.unescaped_escaped, preserve_of_forall_lt h]

/-- A text that ends in a backslash and a quote. -/
example : (str "a\\'").literal .mysql none = "'a\\\\'''" := by decide

end WireValue

end BoundSql
