import BoundSql.Bind
import BoundSql.Text.Word

/-! # Statements with their values inlined
For logs and error messages, a native statement is shown with every bind token replaced by the
literal of its value.
* **`Inlined.scan`** cuts native text into literals, quoted identifiers, tokens and single
  characters, which make up the text (`flatMap_source_scan`).
* **`inlined`** replaces the tokens that are bound. Inserted literals are not read again. -/

namespace BoundSql

namespace Inlined

/-- A piece of native statement text. -/
inductive Piece
  /-- A string literal, from its opening delimiter on. -/
  | literal (text : List Char)
  /-- An identifier in quotes, from its opening quote to the next quote. -/
  | quoted (text : List Char)
  /-- A question mark. -/
  | question
  /-- A dollar sign with the digits after it. -/
  | numbered (digits : List Char)
  /-- A colon with the word after it. -/
  | named (name : List Char)
  /-- Any other character. -/
  | plain (c : Char)
  deriving DecidableEq, Repr

/-- The text of a piece. -/
def Piece.source : Piece → List Char
  | literal text => text
  | quoted text => text
  | question => ['?']
  | numbered digits => '$' :: digits
  | named name => ':' :: name
  | plain c => [c]

/-- The rest of a quoted identifier up to and with the next quote, and what follows it. -/
def splitAtQuote (quote : Char) : List Char → List Char × List Char
  | [] => ([], [])
  | c :: cs =>
    if c = quote then ([c], cs)
    else
      let rest := splitAtQuote quote cs
      (c :: rest.1, rest.2)

/-- Cutting at the next quote loses nothing. -/
theorem splitAtQuote_append (quote : Char) (cs : List Char) :
    (splitAtQuote quote cs).1 ++ (splitAtQuote quote cs).2 = cs := by
  fun_induction splitAtQuote quote cs <;> simp_all +zetaDelta

/-- What follows the next quote is no longer than the text. -/
theorem length_splitAtQuote_snd_le (quote : Char) (cs : List Char) :
    (splitAtQuote quote cs).2.length ≤ cs.length := by
  have h := congrArg List.length (splitAtQuote_append quote cs)
  simp only [List.length_append] at h
  omega

/-- The pieces of native text, where `afterColon` tells whether a colon stands right before it. -/
def scanFrom (d : Dialect) (afterColon : Bool) : List Char → List Piece
  | [] => []
  | c :: cs =>
    if d.opensLiteral c then
      .literal (c :: (d.splitLiteral c cs).1) :: scanFrom d false (d.splitLiteral c cs).2
    else if c = d.quoteChar then
      .quoted (c :: (splitAtQuote d.quoteChar cs).1) ::
        scanFrom d false (splitAtQuote d.quoteChar cs).2
    else if c = '?' then .question :: scanFrom d false cs
    -- Tokens are read in every dialect, whether or not its statements have them.
    else if c = '$' then
      .numbered (cs.takeWhile Char.isDigit) :: scanFrom d false (cs.dropWhile Char.isDigit)
    else if c = ':' && !afterColon && !(Text.splitWord cs).1.isEmpty then
      .named (Text.splitWord cs).1 :: scanFrom d false (Text.splitWord cs).2
    else .plain c :: scanFrom d (c == ':') cs
termination_by cs => cs.length
decreasing_by
  · exact Nat.lt_succ_of_le (Text.length_splitClosing_snd_le _ _ cs)
  · exact Nat.lt_succ_of_le (length_splitAtQuote_snd_le _ cs)
  · exact Nat.lt_succ_self _
  · exact Nat.lt_succ_of_le (List.dropWhile_suffix _).length_le
  · exact Nat.lt_succ_of_le (Text.length_splitWord_snd_le cs)
  · exact Nat.lt_succ_self _

/-- The pieces of native text. -/
def scan (d : Dialect) (cs : List Char) : List Piece := scanFrom d false cs

/-- The pieces make up the text. -/
theorem flatMap_source_scanFrom (d : Dialect) (afterColon : Bool) (cs : List Char) :
    (scanFrom d afterColon cs).flatMap Piece.source = cs := by
  fun_induction scanFrom d afterColon cs with
  | case1 => rfl
  | case2 b c cs _ ih =>
    rw [List.flatMap_cons, ih]
    exact congrArg (c :: ·) (Text.splitClosing_append _ _ _)
  | case3 b cs _ ih =>
    rw [List.flatMap_cons, ih]
    exact congrArg (_ :: ·) (splitAtQuote_append _ _)
  | case4 b cs _ _ ih => rw [List.flatMap_cons, ih]; rfl
  | case5 b cs _ _ _ ih =>
    rw [List.flatMap_cons, ih]
    exact congrArg (_ :: ·) List.takeWhile_append_dropWhile
  | case6 b c cs _ _ _ _ h ih =>
    rw [List.flatMap_cons, ih]
    have hc : c = ':' := by simp_all
    subst hc
    exact congrArg (_ :: ·) (Text.splitWord_append cs)
  | case7 b c cs _ _ _ _ _ ih => rw [List.flatMap_cons, ih]; rfl

/-- The pieces make up the text. -/
theorem flatMap_source_scan (d : Dialect) (cs : List Char) :
    (scan d cs).flatMap Piece.source = cs := flatMap_source_scanFrom d false cs

/-- The value bound to a slot; the last one given for it counts. -/
def valueAt? (params : List Param) (slot : Slot) : Option WireValue :=
  (params.reverse.find? fun p => p.slot = slot).map Param.value

/-- The slot of a token, where `asked` question marks precede it. -/
def Piece.slot? (asked : Nat) : Piece → Option Slot
  | question => some (.position (asked + 1))
  | numbered [] => none
  | numbered digits => some (.position (Number.digitsValue 0 digits))
  | named name => some (.named (String.ofList (':' :: name)))
  | _ => none

/-- The text shown for a piece, where `asked` question marks precede it. -/
def Piece.shown (d : Dialect) (max : Option Nat) (params : List Param) (asked : Nat)
    (p : Piece) : String :=
  match (p.slot? asked).bind (valueAt? params) with
  | some v => v.literal d max
  | none => String.ofList p.source

/-- The text shown for pieces, where `asked` question marks precede them. -/
def shownFrom (d : Dialect) (max : Option Nat) (params : List Param) :
    Nat → List Piece → String
  | _, [] => ""
  | asked, p :: rest =>
    p.shown d max params asked ++
      shownFrom d max params (if p = .question then asked + 1 else asked) rest

end Inlined

/-- A native statement with the literals of its bound values in place of their tokens, long texts
cut. -/
def inlined (d : Dialect) (max : Option Nat) (params : List Param) (sql : String) : String :=
  if params.isEmpty then sql
  else Inlined.shownFrom d max params 0 (Inlined.scan d sql.toList)

end BoundSql
