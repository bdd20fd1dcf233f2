/-! # White space and words
The characters that separate words in statement text, and the two ways text is cut at them:
* **`isBlank`** — the Unicode property `White_Space`.
* **`trim`** — text without the blanks at its two ends.
* **`words`** — the maximal runs of characters that are no separator. -/

namespace BoundSql.Text

/-- The code points with the Unicode property `White_Space`, as closed ranges. -/
def blankRanges : List (Nat × Nat) :=
  [(0x9, 0xD), (0x20, 0x20), (0x85, 0x85), (0xA0, 0xA0), (0x1680, 0x1680), (0x2000, 0x200A),
   (0x2028, 0x2029), (0x202F, 0x202F), (0x205F, 0x205F), (0x3000, 0x3000)]

/-- Whether a character is white space. -/
def isBlank (c : Char) : Bool :=
  blankRanges.any fun r => r.1 ≤ c.toNat && c.toNat ≤ r.2

/-- Text without the blanks it starts with. -/
def trimStart (cs : List Char) : List Char := cs.dropWhile isBlank

/-- Text without the blanks it ends with. -/
def trimEnd (cs : List Char) : List Char := (cs.reverse.dropWhile isBlank).reverse

/-- Text without the blanks at either end. -/
def trim (cs : List Char) : List Char := trimEnd (trimStart cs)

/-- The maximal runs of characters that are no separator, in order. -/
def words (isSeparator : Char → Bool) : List Char → List (List Char)
  | [] => []
  | c :: cs =>
    if isSeparator c then words isSeparator cs
    else match cs with
      | [] => [[c]]
      | d :: _ =>
        if isSeparator d then [c] :: words isSeparator cs
        else match words isSeparator cs with
          | [] => [[c]]
          | w :: ws => (c :: w) :: ws

@[simp] theorem words_nil (p : Char → Bool) : words p [] = [] := rfl

/-- A separator in front changes no word. -/
theorem words_cons_separator {p : Char → Bool} {c : Char} (cs : List Char) (h : p c = true) :
    words p (c :: cs) = words p cs := by
  rw [words.eq_def]; simp [h]

/-- Text without the blanks at either end. -/
def trimmed (s : String) : String := String.ofList (trim s.toList)

end BoundSql.Text
