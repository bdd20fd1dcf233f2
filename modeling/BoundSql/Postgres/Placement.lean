import BoundSql.Bind

/-! # Values in the order of their positions
**`inOrder`** — the values of parameters whose places are the positions from one on, in the order
of the positions. -/

namespace BoundSql.Postgres

/-- Why parameters have no order. -/
inductive PlacementError
  /-- A position is zero or beyond the number of parameters. -/
  | outOfRange (position count : Nat)
  /-- A place is a name. -/
  | named (token : String)
  /-- No value has a position. -/
  | unbound (position : Nat)
  deriving DecidableEq, Repr

/-- The wording of a failed placement. -/
def PlacementError.message : PlacementError → String
  | outOfRange position count =>
    "parameter position " ++ toString position ++ " is out of range 1..=" ++ toString count
  | named token => "named parameter " ++ token ++ " is not supported by PostgreSQL"
  | unbound position => "parameter $" ++ toString position ++ " is not bound"

/-- The values at their positions, put over those that are there. The first parameter without a
position in range is reported. -/
def place (count : Nat) :
    List Param → List (Option WireValue) → Except PlacementError (List (Option WireValue))
  | [], placed => .ok placed
  | p :: rest, placed =>
    match p.slot with
    | .named token => .error (.named token)
    | .position n =>
      if 1 ≤ n ∧ n ≤ count then place count rest (placed.set (n - 1) (some p.value))
      else .error (.outOfRange n count)

/-- The values of positions from `next` on, none of which may be missing. -/
def filled (next : Nat) : List (Option WireValue) → Except PlacementError (List WireValue)
  | [] => .ok []
  | none :: _ => .error (.unbound next)
  | some v :: rest =>
    match filled (next + 1) rest with
    | .error e => .error e
    | .ok vs => .ok (v :: vs)

/-- The values of parameters in the order of their positions. -/
def inOrder (params : List Param) : Except PlacementError (List WireValue) :=
  match place params.length params (List.replicate params.length none) with
  | .error e => .error e
  | .ok placed => filled 1 placed

end BoundSql.Postgres
