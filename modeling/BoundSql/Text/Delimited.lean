/-! # Delimited text
Text that a delimiter character opens and closes, as string literals and quoted identifiers are.
* **`splitClosing`** — cuts text at the delimiter that closes it. A doubled delimiter stands
  inside, and where backslash escapes are on, so does any character after a backslash. Text that
  nothing closes runs to the end.
* **`double`** — writes every delimiter of a text twice, so that it can stand inside. -/

namespace BoundSql.Text

/-- The rest of the text opened by `delimiter`, up to and with the closing delimiter, and what
follows it. -/
def splitClosing (backslash : Bool) (delimiter : Char) : List Char → List Char × List Char
  | [] => ([], [])
  | [c] => ([c], [])
  | c :: e :: cs =>
    -- Escapes and doubled delimiters take the next character with them.
    if (backslash && c == '\\') || (c == delimiter && e == delimiter) then
      let rest := splitClosing backslash delimiter cs
      (c :: e :: rest.1, rest.2)
    else if c == delimiter then ([c], e :: cs)
    else
      let rest := splitClosing backslash delimiter (e :: cs)
      (c :: rest.1, rest.2)

/-- Cutting at the closing delimiter loses nothing. -/
theorem splitClosing_append (backslash : Bool) (delimiter : Char) (cs : List Char) :
    (splitClosing backslash delimiter cs).1 ++ (splitClosing backslash delimiter cs).2 = cs := by
  fun_induction splitClosing backslash delimiter cs <;> simp_all +zetaDelta

/-- What follows the closing delimiter is no longer than the text. -/
theorem length_splitClosing_snd_le (backslash : Bool) (delimiter : Char) (cs : List Char) :
    (splitClosing backslash delimiter cs).2.length ≤ cs.length := by
  have h := congrArg List.length (splitClosing_append backslash delimiter cs)
  simp only [List.length_append] at h
  omega

/-- Text with every delimiter written twice. -/
def double (delimiter : Char) (cs : List Char) : List Char :=
  cs.flatMap fun c => if c == delimiter then [c, c] else [c]

@[simp] theorem double_nil (q : Char) : double q [] = [] := rfl

end BoundSql.Text
