import BoundSql.Proofs.Select.Compiled
import BoundSql.Proofs.Template.TokenValues

/-! # The numbers of limits
A limit and an offset are bound to parameters of their own, whatever else is bound under the names.
* **`Select.number?`** — the limit or the offset under its key.
* **`Carries`** — a number is sent as it is, and nothing else is sent in its place.
* **`BindMap.mem_params_iff`** — what is sent for a bind map.
* **`Select.NumbersExact`**, **`Select.numbers_exact`** — what becomes of the numbers of a query,
  and of all other parameters. -/

namespace BoundSql

/-- A number is sent to a place as the 64-bit integer it is, and nothing else is sent there. -/
def Carries (params : List Param) (slot : Slot) (n : UInt64) : Prop :=
  ∃ i : Int64, i.toInt = n.toNat ∧ ∀ w, ⟨slot, w⟩ ∈ params ↔ w = .int i

/-! ### What is sent for a bind map -/

/-- An error is that of an entry. -/
theorem BindTypes.exists_param_eq_error {types : BindTypes} {es : List (BindKey × Value)}
    {e : DbError} (h : types.paramsOf es = .error e) :
    ∃ entry ∈ es, types.param entry.1 entry.2 = .error e := by
  induction es with
  | nil => cases h
  | cons entry rest ih =>
    rw [paramsOf] at h
    cases hentry : types.param entry.1 entry.2 with
    | error failure =>
      rw [hentry] at h
      obtain rfl := Except.error.inj h
      exact ⟨entry, List.mem_cons_self, hentry⟩
    | ok p =>
      cases hrest : types.paramsOf rest with
      | error failure =>
        rw [hentry, hrest] at h
        obtain rfl := Except.error.inj h
        obtain ⟨found, hmem, hfound⟩ := ih hrest
        exact ⟨found, List.mem_cons_of_mem _ hmem, hfound⟩
      | ok ps =>
        rw [hentry, hrest] at h
        cases h

namespace BindMap

variable {binds : BindMap} {types : BindTypes} {params : List Param}

/-- What is sent are the parameters of the values. -/
theorem mem_params_iff (h : binds.params types = .ok params) (p : Param) :
    p ∈ params ↔ ∃ key v, binds.get? key = some v ∧ types.param key v = .ok p := by
  constructor
  · intro hp
    have hall := BindTypes.paramsOf_eq_ok_iff.1 h
    obtain ⟨i, hi, rfl⟩ := List.getElem_of_mem hp
    have hi' : i < binds.entries.length := hall.length_eq ▸ hi
    exact ⟨_, _, binds.get?_of_mem_entries (List.getElem_mem hi'),
      (List.forall₂_iff_get.1 hall).2 i hi' hi⟩
  · rintro ⟨key, v, hv, hparam⟩
    obtain ⟨p', hmem, hparam'⟩ := exists_param h hv
    obtain rfl := Except.ok.inj (hparam.symm.trans hparam')
    exact hmem

/-- An error is that of a value. -/
theorem exists_param_eq_error {e : DbError} (h : binds.params types = .error e) :
    ∃ key v, binds.get? key = some v ∧ types.param key v = .error e := by
  obtain ⟨entry, hentry, herror⟩ := BindTypes.exists_param_eq_error h
  exact ⟨entry.1, entry.2, binds.get?_of_mem_entries hentry, herror⟩

end BindMap

theorem BindKey.eq_of_slot_name_eq_ok {n parameter : String} {slot : Slot}
    (h : (BindKey.name n).slot = .ok (slot, parameter)) :
    slot = .named (Dialect.namedToken n) := by
  rw [BindKey.slot] at h
  split at h
  · cases h
  · exact (Prod.mk.inj (Except.ok.inj h)).1.symm

/-- Distinct keys have distinct slots. -/
theorem BindKey.slot_inj {key key' : BindKey} {slot : Slot} {parameter parameter' : String}
    (h : key.slot = .ok (slot, parameter)) (h' : key'.slot = .ok (slot, parameter')) :
    key = key' := by
  cases key with
  | index i =>
    obtain ⟨rfl, -⟩ := Prod.mk.inj (Except.ok.inj h)
    cases key' with
    | index j =>
      have hslot := (Prod.mk.inj (Except.ok.inj h')).1
      rw [Nat.succ_injective (Slot.position.inj hslot)]
    | name n => cases BindKey.eq_of_slot_name_eq_ok h'
  | name m =>
    obtain rfl := BindKey.eq_of_slot_name_eq_ok h
    cases key' with
    | index j => cases (Prod.mk.inj (Except.ok.inj h')).1
    | name n =>
      have hslot := Slot.named.inj (BindKey.eq_of_slot_name_eq_ok h')
      rw [(String.append_right_inj _).1 hslot]

/-! ### Integers -/

namespace Value

variable {n : ℤ} {parameter : String}

/-- An integer that is declared as one is sent as it is. -/
theorem coerceUnder_int_eq_ok_iff {w : WireValue} :
    (int n).coerceUnder parameter (some .int) = .ok w ↔ ∃ i : Int64, i.toInt = n ∧ w = .int i := by
  rw [coerceUnder, coerceAs_eq_ok_iff]
  simp only [coerce_eq_ok_iff]
  constructor
  · rintro ⟨natural, hn, hw⟩
    cases natural with
    | int i => exact ⟨i, (Value.int.inj hn).symm, (Option.some.inj hw).symm⟩
    | str s | bool b | null => cases hn
  · rintro ⟨i, rfl, rfl⟩
    exact ⟨.int i, rfl, rfl⟩

/-- Integers of more than 64 bits are refused. -/
theorem coerceUnder_int_of_le (h : 2 ^ 63 ≤ n) : (int n).coerceUnder parameter (some .int) =
    .error (.unsupportedBindType parameter "integer") := by
  have hforeign : (int n).IsForeign := .inr h
  rw [coerceUnder, coerceAs, coerce_of_isForeign hforeign]
  rfl

end Value

/-- A small number is a 64-bit integer. -/
theorem exists_int64_iff (n : UInt64) : (∃ i : Int64, i.toInt = n.toNat) ↔ n.toNat < 2 ^ 63 := by
  constructor
  · rintro ⟨i, hi⟩
    have := Int64.toInt_lt i
    omega
  · intro h
    exact ⟨.ofNat n.toNat, Int64.toInt_ofNat_of_lt h⟩

section Carried

variable {binds : BindMap} {types : BindTypes} {key : BindKey} {slot : Slot} {parameter : String}
  {n : UInt64} (hv : binds.get? key = some (.int n.toNat)) (ht : types.get? key = some .int)
  (hslot : key.slot = .ok (slot, parameter))

include ht hslot in
/-- The parameter of a number. -/
theorem BindTypes.param_number_eq_ok_iff {p : Param} :
    types.param key (.int n.toNat) = .ok p ↔
      p.slot = slot ∧ ∃ i : Int64, i.toInt = n.toNat ∧ p.value = .int i := by
  rw [BindTypes.param_eq_ok_iff, hslot, ht]
  constructor
  · rintro ⟨parameter', hp, hw⟩
    exact ⟨(Prod.mk.inj (Except.ok.inj hp)).1.symm, Value.coerceUnder_int_eq_ok_iff.1 hw⟩
  · rintro ⟨rfl, hi⟩
    exact ⟨parameter, rfl, Value.coerceUnder_int_eq_ok_iff.2 hi⟩

include ht hslot in
/-- A number has no parameter exactly if it is too large. -/
theorem BindTypes.param_number_eq_error_iff {e : DbError} :
    types.param key (.int n.toNat) = .error e ↔
      2 ^ 63 ≤ n.toNat ∧ e = .unsupportedBindType parameter "integer" := by
  rcases Nat.lt_or_ge n.toNat (2 ^ 63) with hlt | hge
  · obtain ⟨i, hi⟩ := (exists_int64_iff n).2 hlt
    have hok := (param_number_eq_ok_iff ht hslot (p := ⟨slot, .int i⟩)).2 ⟨rfl, i, hi, rfl⟩
    rw [hok]
    constructor
    · intro h
      cases h
    · rintro ⟨hge, -⟩
      omega
  · have hlarge : (2 : ℤ) ^ 63 ≤ n.toNat := by exact_mod_cast hge
    rw [param_of_slot_eq_ok hslot, ht, Value.coerceUnder_int_of_le hlarge]
    constructor
    · intro h
      exact ⟨hge, (Except.error.inj h).symm⟩
    · rintro ⟨-, rfl⟩
      rfl

include hv ht hslot in
/-- A number is sent to its place if values are sent at all. -/
theorem BindMap.carries_of_params_eq_ok {params : List Param}
    (h : binds.params types = .ok params) : Carries params slot n := by
  obtain ⟨p, hp, hparam⟩ := exists_param h hv
  obtain ⟨rfl, i, hi, hpi⟩ := (BindTypes.param_number_eq_ok_iff ht hslot).1 hparam
  refine ⟨i, hi, fun w => ?_⟩
  constructor
  · intro hw
    obtain ⟨key', v', hv', hparam'⟩ := (mem_params_iff h _).1 hw
    -- What is sent to the place is that of the same key.
    obtain ⟨parameter', hslot', -⟩ := BindTypes.param_eq_ok_iff.1 hparam'
    obtain rfl := BindKey.slot_inj hslot hslot'
    obtain rfl := Option.some.inj (hv.symm.trans hv')
    rw [← hpi, Except.ok.inj (hparam.symm.trans hparam')]
  · rintro rfl
    rwa [← hpi]

end Carried

/-! ### The numbers of a query -/

namespace Select

variable {q : Select} {key : BindKey} {n : UInt64}

/-- The number of a query that has a key: the limit or the offset. -/
def number? (q : Select) (key : BindKey) : Option UInt64 :=
  if key = .name limitName then q.limit else if key = .name offsetName then q.offset else none

theorem eq_name_of_number?_eq_some (h : q.number? key = some n) :
    key = .name limitName ∨ key = .name offsetName := by
  rw [number?] at h
  split_ifs at h with hlimit hoffset
  · exact .inl hlimit
  · exact .inr hoffset

theorem slot_of_number?_eq_some (h : q.number? key = some n) :
    key.slot = .ok (.named (Dialect.namedToken key.text), key.text) := by
  rcases eq_name_of_number?_eq_some h with rfl | rfl <;> rfl

section Put

variable {ν : Type} (m : OrderedMap BindKey ν)

/-- A map with an entry under a name, if there is one. -/
def put (name : String) (v : Option ν) : OrderedMap BindKey ν := v.elim m (m.insert (.name name))

theorem get?_put (name : String) (v : Option ν) (key : BindKey) :
    (put m name v).get? key = (if key = .name name then v else none).or (m.get? key) := by
  cases v with
  | none => simp [put]
  | some v =>
    rw [put, Option.elim_some, OrderedMap.get?_insert]
    split <;> rfl

/-- Entries for the numbers of a query replace what the map had under their keys. -/
theorem get?_put_numbers (f : UInt64 → ν) (q : Select) (key : BindKey) :
    (put (put m limitName (q.limit.map f)) offsetName (q.offset.map f)).get? key =
      ((q.number? key).map f).or (m.get? key) := by
  -- The offset is stored after the limit, and does not replace it.
  have hne : BindKey.name limitName ≠ .name offsetName := by decide
  rw [get?_put, get?_put, number?]
  by_cases hlimit : key = .name limitName
  · simp [hlimit, hne]
  · simp only [hlimit, if_false, Option.none_or]
    split <;> rfl

end Put

theorem pagingBinds_eq (name : String) (n : Option UInt64) (binds : BindMap) :
    pagingBinds name n binds = put binds name (n.map fun n => .int n.toNat) := by
  cases n <;> rfl

theorem pagingTypes_eq (name : String) (n : Option UInt64) (types : BindTypes) :
    pagingTypes name n types = put types name (n.map fun _ => .int) := by
  cases n <;> rfl

/-- Own values come first, then those of HAVING, then those of the filter. -/
theorem get?_clauseBinds (q : Select) (key : BindKey) : q.clauseBinds.get? key =
    (q.binds.get? key).or ((q.having.bind (·.binds.get? key)).or (q.filter.binds.get? key)) := by
  rw [clauseBinds, OrderedMap.get?_merge]
  cases q.having with
  | none => rfl
  | some h => rw [OrderedMap.get?_merge, Option.bind_some]

/-- The same of declared categories. -/
theorem get?_clauseTypes (q : Select) (key : BindKey) : q.clauseTypes.get? key =
    (q.types.get? key).or ((q.having.bind (·.types.get? key)).or (q.filter.types.get? key)) := by
  rw [clauseTypes, OrderedMap.get?_merge]
  cases q.having with
  | none => rfl
  | some h => rw [OrderedMap.get?_merge, Option.bind_some]

theorem get?_template_binds (q : Select) (key : BindKey) : q.template.binds.get? key =
    ((q.number? key).map fun n => Value.int n.toNat).or (q.clauseBinds.get? key) := by
  rw [template, pagingBinds_eq, pagingBinds_eq, get?_put_numbers]

theorem get?_template_types (q : Select) (key : BindKey) : q.template.types.get? key =
    ((q.number? key).map fun _ => WireType.int).or (q.clauseTypes.get? key) := by
  rw [template, pagingTypes_eq, pagingTypes_eq, get?_put_numbers]

/-- Whether all values but the numbers can be sent. -/
def OthersSent (q : Select) (t : Template) : Prop :=
  ∀ key v, q.number? key = none → t.binds.get? key = some v → ∃ p, t.types.param key v = .ok p

/-- What becomes of the numbers of a query in its template, and of all other parameters. -/
structure NumbersExact (q : Select) (t : Template) : Prop where
  /-- A number is bound under its key as an integer, whatever the clauses bind there. -/
  number : ∀ key n, q.number? key = some n →
    t.binds.get? key = some (.int n.toNat) ∧ t.types.get? key = some .int
  /-- Every other key has the query's own value, else that of HAVING, else that of the filter, and
  so it is with the declared categories. -/
  other : ∀ key, q.number? key = none →
    t.binds.get? key = (q.binds.get? key).or
        ((q.having.bind (·.binds.get? key)).or (q.filter.binds.get? key)) ∧
      t.types.get? key = (q.types.get? key).or
        ((q.having.bind (·.types.get? key)).or (q.filter.types.get? key))
  /-- What is sent for the template holds the numbers. -/
  carried : ∀ params, t.binds.params t.types = .ok params → ∀ key n, q.number? key = some n →
    Carries params (.named (Dialect.namedToken key.text)) n
  /-- It can be sent exactly if no number is too large. -/
  sent_iff : q.OthersSent t → ((∃ params, t.binds.params t.types = .ok params) ↔
    ∀ key n, q.number? key = some n → n.toNat < 2 ^ 63)
  /-- Otherwise a number that is too large is refused. -/
  refused : q.OthersSent t → ∀ e, t.binds.params t.types = .error e →
    ∃ key n, q.number? key = some n ∧ 2 ^ 63 ≤ n.toNat ∧
      e = .unsupportedBindType key.text "integer"
  /-- What is sent for a native form holds the numbers that its text refers to. -/
  carried_native : ∀ d resolved native params, t.resolve d resolved = .ok native →
    native.binds.params native.types = .ok params →
    let refs := (t.rendering d resolved).referencesOf (t.rendering d resolved).source
    ∀ key n, q.number? key = some n → key ∈ refs → Carries params (d.slot refs key) n

/-- The numbers in the template of a query. -/
theorem get?_template_of_number?_eq_some (h : q.number? key = some n) :
    q.template.binds.get? key = some (.int n.toNat) ∧ q.template.types.get? key = some .int := by
  rw [get?_template_binds, get?_template_types, h]
  exact ⟨rfl, rfl⟩

/-- A value of a template that cannot be sent is a number that is too large. -/
theorem exists_large_of_params_eq_error (hothers : q.OthersSent q.template) {e : DbError}
    (h : q.template.binds.params q.template.types = .error e) :
    ∃ key n, q.number? key = some n ∧ 2 ^ 63 ≤ n.toNat ∧
      e = .unsupportedBindType key.text "integer" := by
  obtain ⟨key, v, hv, herror⟩ := BindMap.exists_param_eq_error h
  cases hn : q.number? key with
  | none =>
    obtain ⟨p, hp⟩ := hothers key v hn hv
    cases hp.symm.trans herror
  | some n =>
    -- A number is declared as an integer, so only its size can be at fault.
    obtain ⟨hbind, htype⟩ := get?_template_of_number?_eq_some hn
    obtain rfl := Option.some.inj (hbind.symm.trans hv)
    have hslot := slot_of_number?_eq_some hn
    exact ⟨key, n, hn, (BindTypes.param_number_eq_error_iff htype hslot).1 herror⟩

/-- What is sent for the native form of a template has the numbers at their own places. -/
theorem carries_native {d : Dialect} {resolved : OrderedMap String Source} {native : Native}
    {params : List Param} (h : q.template.resolve d resolved = .ok native)
    (hp : native.binds.params native.types = .ok params) (hn : q.number? key = some n)
    (hk : key ∈ (q.template.rendering d resolved).referencesOf
      (q.template.rendering d resolved).source) :
    Carries params (d.slot ((q.template.rendering d resolved).referencesOf
      (q.template.rendering d resolved).source) key) n := by
  obtain ⟨numbering, htracks, rfl⟩ :=
    Rendering.exists_tracks_of_run_eq_ok (Template.resolve_eq_ok_iff.1 h).2
  obtain ⟨hbind, htype⟩ := get?_template_of_number?_eq_some hn
  -- The native key has the value and the category of the parameter.
  have hname : d = .mysql → key.asName?.bind (·.toList.head?) ≠ some ':' := by
    rintro -
    rcases eq_name_of_number?_eq_some hn with rfl | rfl <;> decide
  obtain ⟨parameter, hslot⟩ := Dialect.slot_nativeKey_eq_ok_iff.2 ⟨rfl, hname⟩
  exact BindMap.carries_of_params_eq_ok ((htracks.value key hk).trans hbind)
    ((htracks.type key hk).trans htype) hslot hp

/-- The numbers of a query that compiles are bound and sent as they are, or refused if they have
more than 64 bits, whatever is bound and declared elsewhere in the query. Every other parameter has
the query's own value, else that of HAVING, else that of the filter. -/
theorem numbers_exact {t : Template} (h : q.compile = .ok t) : q.NumbersExact t := by
  obtain ⟨-, rfl⟩ := compile_eq_ok_iff.1 h
  have hcarried : ∀ params, q.template.binds.params q.template.types = .ok params →
      ∀ key n, q.number? key = some n →
        Carries params (.named (Dialect.namedToken key.text)) n := by
    intro params hp key n hn
    obtain ⟨hbind, htype⟩ := get?_template_of_number?_eq_some hn
    exact BindMap.carries_of_params_eq_ok hbind htype (slot_of_number?_eq_some hn) hp
  exact
    { number := fun key n => get?_template_of_number?_eq_some
      other := by
        intro key hn
        rw [get?_template_binds, get?_template_types, hn, get?_clauseBinds, get?_clauseTypes]
        exact ⟨rfl, rfl⟩
      carried := hcarried
      sent_iff := by
        intro hothers
        constructor
        · rintro ⟨params, hp⟩ key n hn
          obtain ⟨i, hi, -⟩ := hcarried params hp key n hn
          exact (exists_int64_iff n).1 ⟨i, hi⟩
        · intro hsmall
          cases hp : q.template.binds.params q.template.types with
          | ok params => exact ⟨params, rfl⟩
          | error e =>
            obtain ⟨key, n, hn, hlarge, -⟩ := exists_large_of_params_eq_error hothers hp
            exact absurd (hsmall key n hn) (by omega)
      refused := fun hothers e => exists_large_of_params_eq_error hothers
      carried_native := fun _ _ _ _ hresolve hp _ _ => carries_native hresolve hp }

/-- A query that binds and declares the name of its limit itself. The limit is too large. -/
def overbound : Select where
  sources := [⟨"jobs", none⟩]
  having := some
    { expr := "COUNT(*) > :least:", binds := OrderedMap.ofList [(.name "least", .int 3)] }
  limit := some 9223372036854775808
  binds := OrderedMap.ofList [(.name limitName, .str "all"), (.name "least", .int 4)]
  types := OrderedMap.ofList [(.name limitName, .bool)]

/-- The limit is bound to its name anyway, and for that alone nothing is sent. -/
theorem numbers_exact_overbound :
    overbound.compile = .ok overbound.template ∧ overbound.OthersSent overbound.template ∧
      overbound.template.binds.get? (.name limitName) = some (.int 9223372036854775808) ∧
      overbound.template.types.get? (.name limitName) = some .int ∧
      overbound.template.binds.get? (.name "least") = some (.int 4) ∧
      ¬ ∃ params, overbound.template.binds.params overbound.template.types = .ok params := by
  have h : overbound.compile = .ok overbound.template := compile_eq_ok_iff.2 ⟨rfl, rfl⟩
  have hlimit : overbound.number? (.name limitName) = some 9223372036854775808 := by decide
  have hleast : overbound.number? (.name "least") = none := by decide
  have hentries : overbound.template.binds.entries =
      [(.name "least", .int 4), (.name limitName, .int 9223372036854775808)] := rfl
  have hothers : overbound.OthersSent overbound.template := by
    intro key v hkey hv
    have hmem := OrderedMap.mem_entries_of_get?_eq_some hv
    rw [hentries, List.mem_pair] at hmem
    rcases hmem with hmem | hmem <;> obtain ⟨rfl, rfl⟩ := Prod.mk.inj hmem
    · exact ⟨⟨.named ":least", .int 4⟩, rfl⟩
    · cases hlimit.symm.trans hkey
  obtain ⟨hbind, htype⟩ := (numbers_exact h).number _ _ hlimit
  refine ⟨h, hothers, hbind, htype, ((numbers_exact h).other _ hleast).1, fun hsent => ?_⟩
  have hsmall := ((numbers_exact h).sent_iff hothers).1 hsent _ _ hlimit
  exact absurd hsmall (by decide)

end Select

end BoundSql
