/-! # Plain words
The characters of parameter names and of names that need no quoting: **`isWordChar`**, and the
texts made of them only, **`isWord`**. -/

namespace BoundSql.Text

/-- An ASCII letter, an ASCII digit or an underscore. -/
def isWordChar (c : Char) : Bool := c.isAlphanum || c == '_'

/-- Whether text is non-empty and made of word characters only. -/
def isWord (cs : List Char) : Bool := !cs.isEmpty && cs.all isWordChar

/-- The longest run of word characters at the start of text, and what follows it. -/
def splitWord (cs : List Char) : List Char × List Char :=
  (cs.takeWhile isWordChar, cs.dropWhile isWordChar)

/-- The run and what follows it make up the text. -/
theorem splitWord_append (cs : List Char) : (splitWord cs).1 ++ (splitWord cs).2 = cs :=
  List.takeWhile_append_dropWhile

/-- What follows the run is no longer than the text. -/
theorem length_splitWord_snd_le (cs : List Char) : (splitWord cs).2.length ≤ cs.length := by
  have h := congrArg List.length (splitWord_append cs)
  simp only [List.length_append] at h
  omega

end BoundSql.Text
