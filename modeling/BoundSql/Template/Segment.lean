import BoundSql.Dialect
import BoundSql.Text.Word

/-! # Segments of a template
**`Template.scan`** cuts template text into segments: string literals, identifiers that are quoted
already, bracketed names, placeholders, question marks and single characters. The segments make up
the text (`flatMap_source_scan`), so nothing is lost and nothing read twice. -/

namespace BoundSql

namespace Template

/-- A piece of template text. -/
inductive Segment
  /-- A string literal, from its opening delimiter on. -/
  | literal (text : List Char)
  /-- An identifier in quotes, from its opening quote on. -/
  | quoted (text : List Char)
  /-- A bracketed name, without its brackets. -/
  | bracket (inner : List Char)
  /-- An opening bracket that nothing closes, with the text after it. -/
  | unclosed (rest : List Char)
  /-- A named placeholder, without its colons. -/
  | placeholder (name : List Char)
  /-- A question mark. -/
  | question
  /-- Any other character. -/
  | plain (c : Char)
  deriving DecidableEq, Repr

/-- The text of a segment. -/
def Segment.source : Segment → List Char
  | literal text => text
  | quoted text => text
  | bracket inner => '[' :: (inner ++ [']'])
  | unclosed rest => '[' :: rest
  | placeholder name => ':' :: (name ++ [':'])
  | question => ['?']
  | plain c => [c]

/-- The name of the placeholder whose opening colon stands before the text, and what follows its
closing colon. A second colon right after makes it no placeholder. -/
def placeholder? (cs : List Char) : Option (List Char × List Char) :=
  match Text.splitWord cs with
  | ([], _) => none
  | (_, ':' :: ':' :: _) => none
  | (name, ':' :: rest) => some (name, rest)
  | _ => none

/-- A placeholder's name, its closing colon and what follows make up the text. -/
theorem placeholder?_append {cs name rest : List Char} (h : placeholder? cs = some (name, rest)) :
    name ++ ':' :: rest = cs := by
  have hs := Text.splitWord_append cs
  unfold placeholder? at h
  split at h <;> simp_all

/-- What follows a placeholder is shorter than the text. -/
theorem length_lt_of_placeholder? {cs name rest : List Char}
    (h : placeholder? cs = some (name, rest)) : rest.length < cs.length := by
  have := congrArg List.length (placeholder?_append h)
  simp only [List.length_append, List.length_cons] at this
  omega

/-- The placeholder that starts at a colon, unless the colon stands right after another one. -/
def placeholderAt? (afterColon : Bool) (cs : List Char) : Option (List Char × List Char) :=
  if afterColon then none else placeholder? cs

/-- A placeholder that starts at a colon is a placeholder. -/
theorem placeholder?_of_placeholderAt? {b : Bool} {cs : List Char} {r : List Char × List Char}
    (h : placeholderAt? b cs = some r) : placeholder? cs = some r := by
  cases b <;> simp_all [placeholderAt?]

/-- What follows the closing bracket, where the opening one stands before the text. -/
def afterBracket? (cs : List Char) : Option (List Char) :=
  match cs.dropWhile (· ≠ ']') with
  | [] => none
  | _ :: rest => some rest

/-- A bracketed name, its closing bracket and what follows make up the text. -/
theorem afterBracket?_append {cs rest : List Char} (h : afterBracket? cs = some rest) :
    cs.takeWhile (· ≠ ']') ++ ']' :: rest = cs := by
  unfold afterBracket? at h
  split at h
  · exact absurd h (by simp)
  · rename_i c r hc
    have hr : r = rest := by simpa using h
    have hd : c = ']' := by
      have hn : cs.dropWhile (fun x : Char => decide (x ≠ ']')) ≠ [] := by rw [hc]; simp
      have hh := List.head_dropWhile_not (fun x : Char => decide (x ≠ ']')) hn
      simp only [hc, List.head_cons] at hh
      simpa using hh
    have := List.takeWhile_append_dropWhile (p := fun x : Char => decide (x ≠ ']')) (l := cs)
    rw [hc, hd, hr] at this
    exact this

/-- What follows a closing bracket is shorter than the text. -/
theorem length_lt_of_afterBracket? {cs rest : List Char} (h : afterBracket? cs = some rest) :
    rest.length < cs.length := by
  have := congrArg List.length (afterBracket?_append h)
  simp only [List.length_append, List.length_cons] at this
  omega

/-- The segments of template text, where `afterColon` tells whether a colon stands right before
it. -/
def scanFrom (d : Dialect) (afterColon : Bool) : List Char → List Segment
  | [] => []
  | c :: cs =>
    -- Text in quotes comes first, so that nothing inside it is a token.
    if d.opensLiteral c then
      .literal (c :: (d.splitLiteral c cs).1) :: scanFrom d false (d.splitLiteral c cs).2
    else if c = d.quoteChar then
      .quoted (c :: (d.splitQuoted cs).1) :: scanFrom d false (d.splitQuoted cs).2
    else if c = '[' then
      match _h : afterBracket? cs with
      | some rest => .bracket (cs.takeWhile (· ≠ ']')) :: scanFrom d false rest
      | none => [.unclosed cs]
    -- A colon that opens no placeholder stands for itself, and so may the next one.
    else if c = ':' then
      match _h : placeholderAt? afterColon cs with
      | some (name, rest) => .placeholder name :: scanFrom d true rest
      | none => .plain c :: scanFrom d true cs
    else if c = '?' then .question :: scanFrom d false cs
    else .plain c :: scanFrom d false cs
termination_by cs => cs.length
decreasing_by
  · exact Nat.lt_succ_of_le (Text.length_splitClosing_snd_le _ _ cs)
  · exact Nat.lt_succ_of_le (Text.length_splitClosing_snd_le _ _ cs)
  · exact Nat.lt_succ_of_lt (length_lt_of_afterBracket? ‹_›)
  · exact Nat.lt_succ_of_lt (length_lt_of_placeholder? (placeholder?_of_placeholderAt? ‹_›))
  all_goals exact Nat.lt_succ_self _

/-- The segments of template text. -/
def scan (d : Dialect) (cs : List Char) : List Segment := scanFrom d false cs

/-- The segments make up the text. -/
theorem flatMap_source_scanFrom (d : Dialect) (afterColon : Bool) (cs : List Char) :
    (scanFrom d afterColon cs).flatMap Segment.source = cs := by
  fun_induction scanFrom d afterColon cs with
  | case1 => rfl
  | case2 b c cs _ ih =>
    rw [List.flatMap_cons, ih]
    exact congrArg (c :: ·) (Text.splitClosing_append _ _ _)
  | case3 b cs _ ih =>
    rw [List.flatMap_cons, ih]
    exact congrArg (_ :: ·) (Text.splitClosing_append _ _ _)
  | case4 b cs rest h _ _ ih =>
    rw [List.flatMap_cons, ih]
    simpa [Segment.source] using afterBracket?_append h
  | case5 => simp [Segment.source]
  | case6 b cs name rest h _ _ _ ih =>
    rw [List.flatMap_cons, ih]
    simpa [Segment.source] using placeholder?_append (placeholder?_of_placeholderAt? h)
  | case7 b cs _ _ _ _ ih => rw [List.flatMap_cons, ih]; rfl
  | case8 b cs _ _ _ _ ih => rw [List.flatMap_cons, ih]; rfl
  | case9 b c cs _ _ _ _ _ ih => rw [List.flatMap_cons, ih]; rfl

/-- The segments make up the text. -/
theorem flatMap_source_scan (d : Dialect) (cs : List Char) :
    (scan d cs).flatMap Segment.source = cs := flatMap_source_scanFrom d false cs

end Template

end BoundSql
