import BoundSql.Proofs.Template.Parameters
import BoundSql.Proofs.Wire

/-! # The values behind tokens
Which wire value a token of a native statement stands for once the values of the statement are
sent.
* **`BoundTo`** — a wire value is bound to a token.
* **`BindTypes.paramsOf_eq_ok_iff`** — the values sent belong to the entries of a map, one to one.
* **`Rendering.boundTo_of_run_eq_ok`** — the token of every parameter a template refers to stands
  for the parameter's own value, in its declared category.
* **`Rendering.nodup_marks`** — no token of a statement with named parameters is bound twice.
* **`Rendering.not_boundTo_question`** — and a question mark in it stands for nothing.
* **`Rendering.params_eq_ok_iff`** — what is sent for a template, parameter by parameter. -/

namespace BoundSql

/-! ### Lists that belong together entry by entry -/

/-- Only the entries of the first list matter to what they belong to. -/
theorem forall₂_congr_of_mem {α β : Type} {R S : α → β → Prop} {as : List α} {bs : List β}
    (h : ∀ a ∈ as, ∀ b, R a b ↔ S a b) : List.Forall₂ R as bs ↔ List.Forall₂ S as bs := by
  rw [List.forall₂_iff_zip, List.forall₂_iff_zip]
  refine and_congr_right fun _ => forall₂_congr fun a b => ?_
  exact imp_congr_right fun hmem => h a (List.of_mem_zip hmem).1 b

/-- What belongs to the entries of a map belongs to its keys with the values under them. -/
theorem OrderedMap.forall₂_entries_iff {κ ν β : Type} [DecidableEq κ] (m : OrderedMap κ ν)
    (R : κ → ν → β → Prop) {bs : List β} :
    List.Forall₂ (fun e b => R e.1 e.2 b) m.entries bs ↔
      List.Forall₂ (fun k b => ∃ v, m.get? k = some v ∧ R k v b) m.keys bs := by
  rw [OrderedMap.keys, List.forall₂_map_left_iff]
  refine forall₂_congr_of_mem fun e he b => ?_
  rw [m.get?_of_mem_entries he]
  simp

/-! ### Coercion without names -/

namespace Value

variable {v : Value} {w : WireValue} {parameter : String}

/-- The name of a parameter matters in errors only. -/
theorem coerce_of_eq_ok (h : v.coerce parameter = .ok w) (other : String) :
    v.coerce other = .ok w := coerce_eq_ok_iff.2 (coerce_eq_ok_iff.1 h)

/-- The name of a parameter matters in errors only. -/
theorem coerceUnder_of_eq_ok {declared : Option WireType}
    (h : v.coerceUnder parameter declared = .ok w) (other : String) :
    v.coerceUnder other declared = .ok w := by
  cases declared with
  | none => exact coerce_of_eq_ok h other
  | some type =>
    obtain ⟨natural, hv, hw⟩ := coerceAs_eq_ok_iff.1 h
    exact coerceAs_eq_ok_iff.2 ⟨natural, coerce_of_eq_ok hv other, hw⟩

end Value

/-! ### Tokens of keys and slots -/

/-- The token that a value is bound to. -/
def Slot.mark (d : Dialect) : Slot → String
  | .position n => d.positionalToken (n - 1)
  | .named token => token

/-- The token that a key of a native statement stands for. -/
def BindKey.mark (d : Dialect) : BindKey → String
  | .index i => d.positionalToken i
  | .name n => Dialect.namedToken n

/-- A key has the token of its slot. -/
theorem BindKey.mark_of_slot_eq_ok {key : BindKey} {slot : Slot} {parameter : String}
    (h : key.slot = .ok (slot, parameter)) (d : Dialect) : slot.mark d = key.mark d := by
  cases key with
  | index i =>
    obtain ⟨rfl, -⟩ := Prod.mk.inj (Except.ok.inj h)
    rfl
  | name n =>
    rw [BindKey.slot.eq_2] at h
    split at h
    · cases h
    · obtain ⟨rfl, -⟩ := Prod.mk.inj (Except.ok.inj h)
      rfl

/-- The token of a parameter is that of its native key. -/
theorem Dialect.token_eq_mark (d : Dialect) (refs : List BindKey) (key : BindKey) :
    d.token refs key = (d.nativeKey refs key).mark d := by
  cases d <;> cases key <;> rfl

/-- Distinct names have distinct tokens. -/
theorem Dialect.token_name_inj {d : Dialect} {refs : List BindKey} {m n : String}
    (h : .name m ∈ refs) (he : d.token refs (.name m) = d.token refs (.name n)) : m = n := by
  cases d with
  | mysql => exact (String.append_right_inj _).1 he
  | postgres =>
    have hidx := Rendering.dollar_inj he
    exact BindKey.name.inj ((List.idxOf_inj (List.mem_eraseDups.2 h)).1 hidx)

/-- The token of a name is no question mark. -/
theorem Dialect.token_name_ne_question (d : Dialect) (refs : List BindKey) (n : String) :
    d.token refs (.name n) ≠ "?" := by
  intro h
  have hhead := congrArg (fun s : String => s.toList.head?) h
  cases d <;> simp [token] at hhead

/-! ### What is sent -/

/-- A wire value is bound to a token. -/
def BoundTo (d : Dialect) (params : List Param) (token : String) (w : WireValue) : Prop :=
  ∃ p ∈ params, p.slot.mark d = token ∧ p.value = w

/-- A token that is bound once stands for one value. -/
theorem BoundTo.unique {d : Dialect} {params : List Param} {token : String} {w w' : WireValue}
    (hn : (params.map fun p => p.slot.mark d).Nodup) (h : BoundTo d params token w)
    (h' : BoundTo d params token w') : w = w' := by
  obtain ⟨p, hp, hmark, rfl⟩ := h
  obtain ⟨p', hp', hmark', rfl⟩ := h'
  rw [List.inj_on_of_nodup_map hn hp hp' (hmark.trans hmark'.symm)]

/-- A parameter has the slot of its key and the wire value of its value. -/
theorem BindTypes.param_of_slot_eq_ok {types : BindTypes} {key : BindKey} {slot : Slot}
    {parameter : String} (h : key.slot = .ok (slot, parameter)) (v : Value) :
    types.param key v =
      (v.coerceUnder parameter (types.get? key)).map fun w => ⟨slot, w⟩ := by
  rw [param, h]
  unfold Value.coerceUnder
  cases types.get? key with
  | none =>
    dsimp only
    cases v.coerce parameter <;> rfl
  | some type =>
    dsimp only
    cases v.coerceAs parameter type <;> rfl

theorem BindTypes.param_eq_ok_iff {types : BindTypes} {key : BindKey} {v : Value} {p : Param} :
    types.param key v = .ok p ↔ ∃ parameter, key.slot = .ok (p.slot, parameter) ∧
      v.coerceUnder parameter (types.get? key) = .ok p.value := by
  cases hslot : key.slot with
  | error e => simp [param, hslot]
  | ok r =>
    obtain ⟨slot, parameter⟩ := r
    rw [param_of_slot_eq_ok hslot]
    constructor
    · intro h
      cases hw : v.coerceUnder parameter (types.get? key) with
      | error e =>
        rw [hw] at h
        cases h
      | ok w =>
        rw [hw] at h
        obtain rfl := Except.ok.inj h
        exact ⟨parameter, rfl, hw⟩
    · rintro ⟨parameter', hr, hw⟩
      obtain ⟨rfl, rfl⟩ := Prod.mk.inj (Except.ok.inj hr)
      rw [hw]
      rfl

/-- The parameters of entries are those of each entry, in order. -/
theorem BindTypes.paramsOf_eq_ok_iff {types : BindTypes} {es : List (BindKey × Value)}
    {ps : List Param} : types.paramsOf es = .ok ps ↔
      List.Forall₂ (fun e p => types.param e.1 e.2 = .ok p) es ps := by
  refine ⟨fun h => ?_, Rendering.paramsOf_eq_ok⟩
  induction es generalizing ps with
  | nil =>
    obtain rfl := Except.ok.inj h
    exact .nil
  | cons e es ih =>
    rw [paramsOf] at h
    cases he : types.param e.1 e.2 with
    | error failure =>
      rw [he] at h
      cases h
    | ok p =>
      cases hes : types.paramsOf es with
      | error failure =>
        rw [he, hes] at h
        cases h
      | ok rest =>
        rw [he, hes] at h
        obtain rfl := Except.ok.inj h
        exact .cons he (ih hes)

/-- Every value of a map that is sent is bound to the token of its key. -/
theorem BindMap.exists_param {binds : BindMap} {types : BindTypes} {params : List Param}
    (h : binds.params types = .ok params) {key : BindKey} {v : Value}
    (hv : binds.get? key = some v) : ∃ p ∈ params, types.param key v = .ok p := by
  -- The values that are sent stand at the places of their entries.
  have hall := BindTypes.paramsOf_eq_ok_iff.1 h
  obtain ⟨i, hi, he⟩ := List.getElem_of_mem (OrderedMap.mem_entries_of_get?_eq_some hv)
  have hlength := hall.length_eq
  refine ⟨params[i], List.getElem_mem _, ?_⟩
  have hparam := (List.forall₂_iff_get.1 hall).2 i hi (hlength ▸ hi)
  simp only [List.get_eq_getElem] at hparam
  rwa [he] at hparam

/-- The tokens of the values that are sent are those of the keys, in order. -/
theorem BindMap.marks_eq {binds : BindMap} {types : BindTypes} {params : List Param}
    (h : binds.params types = .ok params) (d : Dialect) :
    (params.map fun p => p.slot.mark d) = binds.keys.map (BindKey.mark d) := by
  have hall := BindTypes.paramsOf_eq_ok_iff.1 h
  rw [OrderedMap.keys, List.map_map]
  clear h
  generalize binds.entries = es at hall ⊢
  induction hall with
  | nil => rfl
  | cons he _ ih =>
    obtain ⟨parameter, hslot, -⟩ := BindTypes.param_eq_ok_iff.1 he
    rw [List.map_cons, List.map_cons, ih, Function.comp_apply, BindKey.mark_of_slot_eq_ok hslot]

namespace Rendering

variable {t : Rendering} {native : Native} {params : List Param}

/-- The values that are sent have the tokens of the parameters the text refers to. -/
theorem marks_of_run_eq_ok (h : t.run = .ok native)
    (hp : native.binds.params native.types = .ok params) :
    (params.map fun p => p.slot.mark t.dialect) =
      t.parameters.map (t.dialect.token (t.referencesOf t.source)) := by
  obtain ⟨n, htracks, rfl⟩ := exists_tracks_of_run_eq_ok h
  rw [BindMap.marks_eq hp, htracks.keys, Dialect.nativeKeys, List.map_map]
  exact List.map_congr_left fun key _ => (t.dialect.token_eq_mark _ key).symm

/-- The token of a parameter stands for the parameter's own value, in its declared category. -/
theorem boundTo_of_run_eq_ok (h : t.run = .ok native)
    (hp : native.binds.params native.types = .ok params) {key : BindKey}
    (hk : key ∈ t.referencesOf t.source) :
    ∃ v w, t.binds.get? key = some v ∧
      v.coerceUnder key.text (t.types.get? key) = .ok w ∧
      BoundTo t.dialect params (t.dialect.token (t.referencesOf t.source) key) w := by
  obtain ⟨n, htracks, rfl⟩ := exists_tracks_of_run_eq_ok h
  have hkey : t.dialect.nativeKey (t.referencesOf t.source) key ∈ n.binds.keys := by
    rw [htracks.keys]
    exact Dialect.mem_nativeKeys.2 ⟨key, hk, rfl⟩
  obtain ⟨v, hv⟩ := Option.ne_none_iff_exists'.1 fun hnone =>
    (OrderedMap.get?_eq_none_iff _ _).1 hnone hkey
  obtain ⟨p, hmem, hparam⟩ := BindMap.exists_param hp hv
  obtain ⟨parameter, hslot, hw⟩ := BindTypes.param_eq_ok_iff.1 hparam
  refine ⟨v, p.value, (htracks.value key hk).symm.trans hv, ?_, p, hmem, ?_, rfl⟩
  · rw [← htracks.type key hk]
    exact Value.coerceUnder_of_eq_ok hw key.text
  · rw [Dialect.token_eq_mark, BindKey.mark_of_slot_eq_ok hslot]

/-- Named parameters are referred to by their names. -/
theorem exists_name_of_mem_references (hn : t.binds.isPositional = false) {key : BindKey}
    (h : key ∈ t.referencesOf t.source) : ∃ n, key = .name n := by
  rw [referencesOf, hn, Template.references_false] at h
  obtain ⟨n, -, rfl⟩ := List.mem_map.1 h
  exact ⟨n, rfl⟩

/-- No token is bound twice where parameters are named. -/
theorem nodup_marks (h : t.run = .ok native)
    (hp : native.binds.params native.types = .ok params) (hn : t.binds.isPositional = false) :
    (params.map fun p => p.slot.mark t.dialect).Nodup := by
  rw [marks_of_run_eq_ok h hp, parameters]
  -- A token is made for the first appearance of a parameter only.
  refine List.Nodup.map_on ?_ (nodup_eraseDups _)
  intro key hkey key' hkey' he
  have hkey := List.mem_eraseDups.1 hkey
  obtain ⟨m, rfl⟩ := exists_name_of_mem_references hn hkey
  obtain ⟨n, rfl⟩ := exists_name_of_mem_references hn (List.mem_eraseDups.1 hkey')
  rw [Dialect.token_name_inj hkey he]

/-- No value is bound to a question mark where parameters are named. -/
theorem not_boundTo_question (h : t.run = .ok native)
    (hp : native.binds.params native.types = .ok params) (hn : t.binds.isPositional = false)
    (w : WireValue) : ¬ BoundTo t.dialect params "?" w := by
  rintro ⟨p, hmem, hmark, -⟩
  have hmem : p.slot.mark t.dialect ∈ params.map fun p => p.slot.mark t.dialect :=
    List.mem_map_of_mem hmem
  rw [hmark, marks_of_run_eq_ok h hp] at hmem
  obtain ⟨key, hkey, htoken⟩ := List.mem_map.1 hmem
  obtain ⟨n, rfl⟩ := exists_name_of_mem_references hn (List.mem_eraseDups.1 hkey)
  exact Dialect.token_name_ne_question _ _ n htoken

end Rendering

/-! ### Slots -/

/-- The place that the value of a parameter goes to, where `refs` are the references of the text. -/
def Dialect.slot (d : Dialect) (refs : List BindKey) (key : BindKey) : Slot :=
  match d, key with
  | mysql, .name n => .named (namedToken n)
  | mysql, .index i => .position (i + 1)
  | postgres, key => .position (refs.eraseDups.idxOf key + 1)

/-- The place of a parameter is that of its token. -/
theorem Dialect.mark_slot (d : Dialect) (refs : List BindKey) (key : BindKey) :
    (d.slot refs key).mark d = d.token refs key := by
  cases d <;> cases key <;> rfl

/-- The place of a parameter is that of its native key, if it has one. -/
theorem Dialect.slot_nativeKey_eq_ok_iff {d : Dialect} {refs : List BindKey} {key : BindKey}
    {slot : Slot} : (∃ parameter, (d.nativeKey refs key).slot = .ok (slot, parameter)) ↔
      slot = d.slot refs key ∧ (d = .mysql → key.asName?.bind (·.toList.head?) ≠ some ':') := by
  cases d with
  | postgres => simp [nativeKey, BindKey.slot, Dialect.slot, eq_comm]
  | mysql =>
    cases key with
    | index i => simp [nativeKey, BindKey.slot, Dialect.slot, BindKey.asName?, eq_comm]
    | name n =>
      rw [nativeKey, BindKey.slot]
      by_cases hn : n.toList.head? = some ':'
      · simp [hn, BindKey.asName?]
      · simp [hn, Dialect.slot, namedToken, BindKey.asName?, eq_comm]

/-- The native key of a parameter is bound as a value is sent: at a place that the key has, and with
the wire value of the parameter's own value. -/
theorem Numbering.Tracks.exists_param_eq_ok_iff {t : Rendering} {n : Numbering}
    {refs : List BindKey} (h : n.Tracks t refs) {key : BindKey} (hkey : key ∈ refs) (p : Param) :
    (∃ v, n.binds.get? (t.dialect.nativeKey refs key) = some v ∧
        n.types.param (t.dialect.nativeKey refs key) v = .ok p) ↔
      (∃ parameter, (t.dialect.nativeKey refs key).slot = .ok (p.slot, parameter)) ∧
        ∃ v, t.binds.get? key = some v ∧
          v.coerceUnder key.text (t.types.get? key) = .ok p.value := by
  rw [h.value key hkey]
  constructor
  · rintro ⟨v, hv, hparam⟩
    obtain ⟨parameter, hslot, hw⟩ := BindTypes.param_eq_ok_iff.1 hparam
    rw [h.type key hkey] at hw
    exact ⟨⟨parameter, hslot⟩, v, hv, Value.coerceUnder_of_eq_ok hw key.text⟩
  · rintro ⟨⟨parameter, hslot⟩, v, hv, hw⟩
    refine ⟨v, hv, BindTypes.param_eq_ok_iff.2 ⟨parameter, hslot, ?_⟩⟩
    rw [h.type key hkey]
    exact Value.coerceUnder_of_eq_ok hw parameter

namespace Rendering

variable {t : Rendering} {native : Native} {params : List Param}

/-- The values that are sent are those of the parameters, each in its declared category and at its
own place, in the order in which the text first refers to them. -/
theorem params_eq_ok_iff (h : t.run = .ok native) :
    native.binds.params native.types = .ok params ↔
      List.Forall₂ (fun key p =>
        (∃ parameter, (t.dialect.nativeKey (t.referencesOf t.source) key).slot =
          .ok (p.slot, parameter)) ∧
        ∃ v, t.binds.get? key = some v ∧ v.coerceUnder key.text (t.types.get? key) = .ok p.value)
      t.parameters params := by
  obtain ⟨n, htracks, rfl⟩ := exists_tracks_of_run_eq_ok h
  have hkeys : n.binds.keys =
      t.parameters.map (t.dialect.nativeKey (t.referencesOf t.source)) := htracks.keys
  rw [BindMap.params, BindTypes.paramsOf_eq_ok_iff,
    n.binds.forall₂_entries_iff fun key v p => n.types.param key v = .ok p, hkeys,
    List.forall₂_map_left_iff]
  exact forall₂_congr_of_mem fun key hkey p =>
    htracks.exists_param_eq_ok_iff (List.mem_eraseDups.1 hkey) p

end Rendering

end BoundSql
