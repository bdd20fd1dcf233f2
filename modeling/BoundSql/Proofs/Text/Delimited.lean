import BoundSql.Dialect

/-! # The grammar of delimited text
**`Closes`** says, without an algorithm, where text that a delimiter has opened ends. Cutting at the
closing delimiter is the only way to follow the grammar: **`closes_splitClosing`** and
**`splitClosing_eq_of_closes`**, for the quotes of a dialect **`Dialect.splitLiteral_of_closes`**
and
**`Dialect.splitQuoted_of_closes`**. -/

namespace BoundSql.Text

/-- `Closes backslash q body rest`: in the text `body ++ rest`, opened by the delimiter `q`, the
delimited part is `body`. -/
inductive Closes (backslash : Bool) (q : Char) : List Char → List Char → Prop
  /-- A delimiter that is not doubled closes the text. -/
  | delimiter {rest : List Char} (single : rest.head? ≠ some q) : Closes backslash q [q] rest
  /-- A doubled delimiter stands inside. -/
  | doubled {body rest : List Char} (tail : Closes backslash q body rest) :
      Closes backslash q (q :: q :: body) rest
  /-- Where backslash escapes are on, so does any character after a backslash. -/
  | escaped {body rest : List Char} (on : backslash = true) (c : Char)
      (tail : Closes backslash q body rest) : Closes backslash q ('\\' :: c :: body) rest
  /-- Any other character stands inside. -/
  | inside {body rest : List Char} {c : Char} (noDelimiter : c ≠ q)
      (noEscape : ¬ (backslash = true ∧ c = '\\')) (tail : Closes backslash q body rest) :
      Closes backslash q (c :: body) rest
  /-- Text that nothing closes runs to the end. -/
  | runsOut : Closes backslash q [] []
  /-- So does text that ends in a backslash. -/
  | dangling (on : backslash = true) : Closes backslash q ['\\'] []

variable {backslash : Bool} {q : Char}

/-- Text that is followed by anything ends in its delimiter. -/
theorem Closes.getLast?_body {body rest : List Char} (h : Closes backslash q body rest)
    (hr : rest ≠ []) : body.getLast? = some q := by
  induction h with
  | delimiter => rfl
  | doubled tail ih => simp [List.getLast?_cons, ih hr]
  | escaped on c tail ih => simp [List.getLast?_cons, ih hr]
  | inside noDelimiter noEscape tail ih => simp [List.getLast?_cons, ih hr]
  | runsOut => exact absurd rfl hr
  | dangling => exact absurd rfl hr

/-- Text that is followed by anything is not followed by its delimiter. -/
theorem Closes.head?_ne {body rest : List Char} (h : Closes backslash q body rest)
    (hr : rest ≠ []) : rest.head? ≠ some q := by
  induction h with
  | delimiter single => exact single
  | doubled tail ih => exact ih hr
  | escaped on c tail ih => exact ih hr
  | inside noDelimiter noEscape tail ih => exact ih hr
  | runsOut => exact absurd rfl hr
  | dangling => exact absurd rfl hr

/-- Text that can be followed by anything is closed in front of all but its delimiter. -/
theorem Closes.of_head?_ne {body rest rest' : List Char} (h : Closes backslash q body rest)
    (hr : rest ≠ []) (hr' : rest'.head? ≠ some q) : Closes backslash q body rest' := by
  induction h with
  | delimiter single => exact .delimiter hr'
  | doubled tail ih => exact .doubled (ih hr)
  | escaped on c tail ih => exact .escaped on c (ih hr)
  | inside noDelimiter noEscape tail ih => exact .inside noDelimiter noEscape (ih hr)
  | runsOut => exact absurd rfl hr
  | dangling => exact absurd rfl hr

/-- Cutting at the closing delimiter follows the grammar. -/
theorem closes_splitClosing (backslash : Bool) (q : Char) (cs : List Char) :
    Closes backslash q (splitClosing backslash q cs).1 (splitClosing backslash q cs).2 := by
  fun_induction splitClosing backslash q cs with
  | case1 => exact .runsOut
  | case2 c =>
    -- The last character may still be a delimiter or a backslash.
    by_cases hq : c = q
    · exact hq ▸ .delimiter (by simp)
    · by_cases he : backslash = true ∧ c = '\\'
      · exact he.2 ▸ .dangling he.1
      · exact .inside hq he .runsOut
  | case3 c e cs h rest ih =>
    -- Two characters were taken at once: an escape or a doubled delimiter.
    rcases Bool.or_eq_true_iff.1 h with hb | hd
    · simp only [Bool.and_eq_true, beq_iff_eq] at hb
      exact hb.2 ▸ .escaped hb.1 e ih
    · simp only [Bool.and_eq_true, beq_iff_eq] at hd
      obtain ⟨rfl, rfl⟩ := hd
      exact .doubled ih
  | case4 c e cs h hc =>
    have hc : c = q := by simpa using hc
    subst hc
    have he : e ≠ c := fun he => h (by simp [he])
    exact .delimiter (by simpa using he)
  | case5 c e cs h hc rest ih =>
    have hq : c ≠ q := by simpa using hc
    have he : ¬ (backslash = true ∧ c = '\\') := fun hb => h (by simp [hb.1, hb.2])
    exact .inside hq he ih

/-- Text that follows the grammar is cut where the grammar says. Were a backslash both the
delimiter and the escape, the grammar would be ambiguous. -/
theorem splitClosing_eq_of_closes (hq : backslash = true → q ≠ '\\') {body rest : List Char}
    (h : Closes backslash q body rest) :
    splitClosing backslash q (body ++ rest) = (body, rest) := by
  induction h with
  | @delimiter rest single =>
    cases rest with
    | nil => rfl
    | cons e cs =>
      have he : e ≠ q := by simpa using single
      -- The delimiter itself must not be taken for an escape.
      have hb : ¬ (backslash = true ∧ q = '\\') := fun hb => hq hb.1 hb.2
      simp only [List.cons_append, List.nil_append, splitClosing]
      rw [if_neg (by simpa [he] using hb), if_pos (by simp)]
  | doubled tail ih => simp [splitClosing, ih]
  | escaped on c tail ih =>
    subst on
    simp [splitClosing, ih]
  | @inside body rest c noDelimiter noEscape tail ih =>
    cases hcs : body ++ rest with
    | nil =>
      obtain ⟨rfl, rfl⟩ := List.append_eq_nil_iff.1 hcs
      rfl
    | cons e cs =>
      rw [List.cons_append, hcs, splitClosing, if_neg (by simpa [noDelimiter] using noEscape),
        if_neg (by simpa using noDelimiter), ← hcs, ih]
  | runsOut => rfl
  | dangling on => rfl

/-! ### Doubled delimiters -/

theorem double_cons_self (q : Char) (cs : List Char) :
    double q (q :: cs) = q :: q :: double q cs := by
  simp [double]

theorem double_cons_of_ne {c : Char} (h : c ≠ q) (cs : List Char) :
    double q (c :: cs) = c :: double q cs := by
  simp [double, h]

/-- Text with its delimiters doubled ends at the delimiter after it, in front of all but another
one. -/
theorem closes_double (q : Char) (cs : List Char) {rest : List Char} (h : rest.head? ≠ some q) :
    Closes false q (double q cs ++ [q]) rest := by
  induction cs with
  | nil => exact .delimiter h
  | cons c cs ih =>
    by_cases hc : c = q
    · subst hc
      rw [double_cons_self]
      exact .doubled ih
    · rw [double_cons_of_ne hc]
      exact .inside hc (by simp) ih

end BoundSql.Text

namespace BoundSql.Dialect

variable {d : Dialect} {body rest : List Char}

/-- What marks an identifier, a placeholder or a token opens no literal. -/
theorem opensLiteral_eq_false_of_mem {c : Char} (h : c ∈ [d.quoteChar, '[', ':', '?', '$']) :
    d.opensLiteral c = false := by
  simp only [List.mem_cons, List.not_mem_nil, or_false] at h
  rcases h with rfl | rfl | rfl | rfl | rfl <;> cases d <;> decide

/-- A string literal is cut where the grammar says. No backslash opens one. -/
theorem splitLiteral_of_closes {q : Char} (hq : d.opensLiteral q = true)
    (h : Text.Closes d.backslashEscapes q body rest) :
    d.splitLiteral q (body ++ rest) = (body, rest) := by
  refine Text.splitClosing_eq_of_closes (fun _ he => ?_) h
  subst he
  revert hq
  cases d <;> decide

/-- A quoted identifier is cut where the grammar says. -/
theorem splitQuoted_of_closes (h : Text.Closes false d.quoteChar body rest) :
    d.splitQuoted (body ++ rest) = (body, rest) :=
  Text.splitClosing_eq_of_closes (fun hb => by cases hb) h

end BoundSql.Dialect
