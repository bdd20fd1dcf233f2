import BoundSql.OrderedMap
import BoundSql.Wire

/-! # Bound parameters
* **`BindKey`** — a parameter's name or 0-based position.
* **`BindMap`**, **`BindTypes`** — the values and the declared categories of parameters, in the
  order the keys were first given.
* **`Param`** — a wire value with the place in a native statement it goes to (`Slot`).
* **`BindMap.params`** — the wire values of a bind map, under its declared categories. -/

namespace BoundSql

/-- The key of a bound parameter. -/
inductive BindKey
  /-- A 0-based position. -/
  | index (i : Nat)
  /-- A name, without any mark around it. -/
  | name (n : String)
  deriving DecidableEq, Repr, Inhabited

namespace BindKey

/-- The text of a key. -/
def text : BindKey → String
  | index i => toString i
  | name n => n

/-- The name, if the key is one. -/
def asName? : BindKey → Option String
  | index _ => none
  | name n => some n

/-- Whether the key is a position. -/
def isIndex : BindKey → Bool
  | index _ => true
  | name _ => false

/-- The order of keys: positions first, by number, then names, by their characters. -/
def le : BindKey → BindKey → Bool
  | index i, index j => i ≤ j
  | index _, name _ => true
  | name _, index _ => false
  | name m, name n => m ≤ n

end BindKey

/-- Values of parameters. -/
abbrev BindMap := OrderedMap BindKey Value

/-- Declared categories of parameters. -/
abbrev BindTypes := OrderedMap BindKey WireType

namespace BindMap

/-- The number of positions among the keys. -/
def indexCount (m : BindMap) : Nat := (m.keys.filter BindKey.isIndex).length

/-- The map with a value under the position that equals the number of positions present. -/
def push (m : BindMap) (v : Value) : BindMap := m.insert (.index m.indexCount) v

/-- The map of a list of values, at the positions from zero on. -/
def positional (vs : List Value) : BindMap := vs.foldl push OrderedMap.empty

/-- Whether there is a key and every key is a position. -/
def isPositional (m : BindMap) : Bool := !m.isEmpty && m.keys.all BindKey.isIndex

/-- The map with a value under a name. -/
def bind (m : BindMap) (name : String) (v : Value) : BindMap := m.insert (.name name) v

end BindMap

/-! ### Parameters of a native statement -/

/-- Where a value goes in a native statement. -/
inductive Slot
  /-- A position, counted from one. -/
  | position (n : Nat)
  /-- A token with its colon. -/
  | named (token : String)
  deriving DecidableEq, Repr, Inhabited

/-- A value bound to a place in a native statement. -/
structure Param where
  /-- The place. -/
  slot : Slot
  /-- The value. -/
  value : WireValue
  deriving DecidableEq, Repr, Inhabited

namespace BindKey

/-- Whether a position counted from one is still a 64-bit word. -/
def IsCountable : BindKey → Prop
  | index i => i + 1 < UInt64.size
  | name _ => True

/-- The place a key stands for, and the name of the parameter in error texts. Positions are counted
from one without a bound; words count alike as long as the key `IsCountable`. -/
def slot : BindKey → Except DbError (Slot × String)
  | index i => .ok (.position (i + 1), toString (i + 1))
  | name n =>
    if n.toList.head? = some ':' then .error (.composition (.colonName n))
    else .ok (.named (":" ++ n), n)

end BindKey

/-- The parameter of one entry of a bind map. -/
def BindTypes.param (types : BindTypes) (key : BindKey) (v : Value) : Except DbError Param :=
  match key.slot with
  | .error e => .error e
  | .ok (slot, parameter) =>
    let coerced :=
      match types.get? key with
      | some declared => v.coerceAs parameter declared
      | none => v.coerce parameter
    match coerced with
    | .error e => .error e
    | .ok w => .ok ⟨slot, w⟩

/-- The parameters of entries, in order; the first error ends the list. -/
def BindTypes.paramsOf (types : BindTypes) : List (BindKey × Value) → Except DbError (List Param)
  | [] => .ok []
  | (key, v) :: rest =>
    match types.param key v with
    | .error e => .error e
    | .ok p =>
      match types.paramsOf rest with
      | .error e => .error e
      | .ok ps => .ok (p :: ps)

/-- The parameters of a bind map, in its order. -/
def BindMap.params (binds : BindMap) (types : BindTypes) : Except DbError (List Param) :=
  types.paramsOf binds.entries

end BoundSql
