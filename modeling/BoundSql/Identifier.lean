import BoundSql.Dialect

/-! # Quoted identifiers
**`Dialect.escapeIdentifier`** — a dotted identifier with every segment quoted. A segment that
starts with the quote character counts as quoted already and is copied, and so is a lone `*`. -/

namespace BoundSql

namespace Identifier

/-- A segment without dots in quotes, unless it is a lone `*`. -/
def quoteSegment (quote : Char) (segment : List Char) : List Char :=
  if segment = ['*'] then segment else quote :: (Text.double quote segment ++ [quote])

/-- The first segment of a dotted identifier as it is written, and what follows it: nothing, or
text that starts with a dot. A quoted segment runs through its closing quote and on to the next
dot. -/
def firstSegment (quote : Char) : List Char → List Char × List Char
  | [] => (quoteSegment quote [], [])
  | c :: cs =>
    if c = quote then
      let body := Text.splitClosing false quote cs
      (c :: (body.1 ++ body.2.takeWhile (· ≠ '.')), body.2.dropWhile (· ≠ '.'))
    else
      (quoteSegment quote ((c :: cs).takeWhile (· ≠ '.')), (c :: cs).dropWhile (· ≠ '.'))

/-- What follows the first segment is no longer than the identifier. -/
theorem length_firstSegment_snd_le (quote : Char) (cs : List Char) :
    (firstSegment quote cs).2.length ≤ cs.length := by
  unfold firstSegment
  split
  · simp
  · split
    · rename_i c cs _
      have h₁ := Text.length_splitClosing_snd_le false quote cs
      have h₂ := (List.dropWhile_suffix (fun x : Char => decide (x ≠ '.'))
        (l := (Text.splitClosing false quote cs).2)).length_le
      simp only [List.length_cons]
      omega
    · exact (List.dropWhile_suffix _).length_le

/-- A dotted identifier with every segment quoted. -/
def escape (quote : Char) (cs : List Char) : List Char :=
  match (firstSegment quote cs).2, length_firstSegment_snd_le quote cs with
  | [], _ => (firstSegment quote cs).1
  | _ :: rest, _ => (firstSegment quote cs).1 ++ '.' :: escape quote rest
termination_by cs.length
decreasing_by exact Nat.lt_of_lt_of_le (Nat.lt_succ_self _) (by assumption)

end Identifier

/-- A dotted identifier the way a dialect expects it. -/
def Dialect.escapeIdentifier (d : Dialect) (identifier : String) : String :=
  String.ofList (Identifier.escape d.quoteChar identifier.toList)

end BoundSql
