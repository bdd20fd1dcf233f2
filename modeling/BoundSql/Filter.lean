import BoundSql.Bind

/-! # Filters
* **`Condition`** — an expression with the values and categories it binds.
* **`Filter`** — conditions combined into one expression with one bind map. Helpers that bind
  values name them `ABP0`, `ABP1`, ... from a counter of the filter. -/

namespace BoundSql

/-- An expression with the values and categories it binds. -/
structure Condition where
  /-- The expression, in template notation. -/
  expr : String
  /-- The values. -/
  binds : BindMap := OrderedMap.empty
  /-- The declared categories. -/
  types : BindTypes := OrderedMap.empty

instance : Inhabited Condition := ⟨⟨"", OrderedMap.empty, OrderedMap.empty⟩⟩

namespace Condition

/-- The expression that binds nothing. -/
def ofExpr (expr : String) : Condition := { expr }

/-- The condition with a named value. -/
def bind (c : Condition) (name : String) (v : Value) : Condition :=
  { c with binds := c.binds.bind name v }

/-- The condition with the values of a map. -/
def withBinds (c : Condition) (binds : BindMap) : Condition :=
  { c with binds := c.binds.merge binds }

/-- The condition with a declared category. -/
def typed (c : Condition) (name : String) (type : WireType) : Condition :=
  { c with types := c.types.insert (.name name) type }

/-- The condition with the categories of a map. -/
def withTypes (c : Condition) (types : BindTypes) : Condition :=
  { c with types := c.types.merge types }

end Condition

/-- How a condition is joined to the expression before it. -/
inductive Connective
  /-- Both hold. -/
  | and
  /-- At least one holds. -/
  | or
  deriving DecidableEq, Repr

/-- The keyword of a connective. -/
def Connective.keyword : Connective → String
  | and => "AND"
  | or => "OR"

/-- Conditions combined into one expression. -/
structure Filter where
  /-- The combined expression; empty without a condition. -/
  expr : String := ""
  /-- The values of all conditions. -/
  binds : BindMap := OrderedMap.empty
  /-- The declared categories of all conditions. -/
  types : BindTypes := OrderedMap.empty
  /-- The number of names generated so far. -/
  generated : Nat := 0

instance : Inhabited Filter := ⟨{}⟩

/-- The start of every generated parameter name. -/
def generatedPrefix : String := "ABP"

namespace Filter

/-- Whether there is no condition. -/
def isEmpty (f : Filter) : Bool := f.expr.isEmpty

/-- The filter with the values and categories of a condition. -/
def absorb (f : Filter) (c : Condition) : Filter :=
  { f with binds := f.binds.merge c.binds, types := f.types.merge c.types }

/-- The conditions of a list, their non-empty expressions joined by `AND` as they are. -/
def merge (conditions : List Condition) : Filter :=
  -- Values are kept even where the expression is empty.
  let exprs := (conditions.map Condition.expr).filter fun e => !e.isEmpty
  conditions.foldl absorb { expr := " AND ".intercalate exprs }

/-- The filter with another expression. Values stay bound. -/
def set (f : Filter) (c : Condition) : Filter := { f.absorb c with expr := c.expr }

/-- Two expressions under a connective, each in parentheses; an empty one is left out. -/
def joinExpr (op : Connective) (current added : String) : String :=
  if current.isEmpty then added
  else if added.isEmpty then current
  else "(" ++ current ++ ") " ++ op.keyword ++ " (" ++ added ++ ")"

/-- The filter with one more condition. -/
def combine (f : Filter) (op : Connective) (c : Condition) : Filter :=
  { f.absorb c with expr := joinExpr op f.expr c.expr }

/-- The filter that holds where it held and the condition does too. -/
def and (f : Filter) (c : Condition) : Filter := f.combine .and c

/-- The filter that holds where it held or the condition does. -/
def or (f : Filter) (c : Condition) : Filter := f.combine .or c

/-- The generated name with a given number. -/
def generatedName (n : Nat) : String := generatedPrefix ++ toString n

/-- The filter after generating `count` names. -/
def advance (f : Filter) (count : Nat) : Filter := { f with generated := f.generated + count }

/-- The generated names for values, from a number on. -/
def nameValues (first : Nat) : List Value → List (String × Value)
  | [] => []
  | v :: vs => (generatedName first, v) :: nameValues (first + 1) vs

/-- The bind map of named values. -/
def bindNamed (named : List (String × Value)) : BindMap :=
  named.foldl (fun m e => m.bind e.1 e.2) OrderedMap.empty

/-- The placeholder of a name. -/
def placeholder (name : String) : String := ":" ++ name ++ ":"

/-- The filter with a field required inside, or outside, two bounds. -/
def between (f : Filter) (inside : Bool) (field : String) (low high : Value) : Filter :=
  let lowName := generatedName f.generated
  let highName := generatedName (f.generated + 1)
  let op := if inside then "BETWEEN" else "NOT BETWEEN"
  let expr :=
    field ++ " " ++ op ++ " " ++ placeholder lowName ++ " AND " ++ placeholder highName
  (f.advance 2).and { expr, binds := bindNamed [(lowName, low), (highName, high)] }

/-- The filter with a field required among, or not among, values. Among no values nothing holds,
written as `field != field`. -/
def inList (f : Filter) (inside : Bool) (field : String) (values : List Value) : Filter :=
  if values.isEmpty then f.and (.ofExpr (field ++ " != " ++ field))
  else
    let named := nameValues f.generated values
    let op := if inside then "IN" else "NOT IN"
    let expr :=
      field ++ " " ++ op ++ " (" ++ ", ".intercalate (named.map fun e => placeholder e.1) ++ ")"
    (f.advance values.length).and { expr, binds := bindNamed named }

end Filter

end BoundSql
