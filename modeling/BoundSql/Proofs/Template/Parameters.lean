import BoundSql.Proofs.Number.DecimalText
import BoundSql.Proofs.Postgres.Placement
import BoundSql.Proofs.Template.Image

/-! # The parameters of a native statement
The tokens of a native statement and the keys of its maps belong to the same parameters, those the
text refers to.
* **`Rendering.tokens`** — the tokens in the native text, in order.
* **`Rendering.binds_match_tokens`** — every parameter has its tokens, its value, its declared
  category and its place among the values sent to a server. -/

namespace BoundSql

/-- The wire value of a dynamic value, in its declared category if there is one. -/
def Value.coerceUnder (parameter : String) (declared : Option WireType) (v : Value) :
    Except DbError WireValue :=
  match declared with
  | some type => v.coerceAs parameter type
  | none => v.coerce parameter

namespace Template

/-- The names of the placeholders among segments, in order. -/
def placeholderNames (segs : List Segment) : List String :=
  segs.filterMap fun
    | .placeholder name => some (String.ofList name)
    | _ => none

/-- Where not all parameters are positional, a text refers to those its placeholders name. -/
theorem references_false (segs : List Segment) :
    references false segs = (placeholderNames segs).map BindKey.name := by
  rw [references]
  generalize 0 = asked
  induction segs generalizing asked with
  | nil => rfl
  | cons s rest ih =>
    rw [referencesFrom, ih]
    cases s <;> rfl

end Template

namespace Rendering

open Template

variable {t : Rendering}

/-- The tokens in the native text of segments, where `before` are the segments before them. -/
def tokens (t : Rendering) (before : List Segment) : List Segment → List String
  | [] => []
  | s :: rest =>
    if (s.reference? t.binds.isPositional (questions before)).isSome then
      t.image before s :: t.tokens (before ++ [s]) rest
    else t.tokens (before ++ [s]) rest

/-- The tokens are those of the parameters referred to. -/
theorem tokens_eq_map (t : Rendering) (before after : List Segment) :
    t.tokens before after =
      (referencesFrom t.binds.isPositional (questions before) after).map
        (t.dialect.token (t.referencesOf (before ++ after))) := by
  induction after generalizing before with
  | nil => rfl
  | cons s rest ih =>
    have hq : questions (before ++ [s]) = questions before + questions [s] :=
      questions_append before [s]
    rw [tokens, referencesFrom, List.map_append, ← hq,
      List.append_cons before s rest, ← ih, ← List.append_cons]
    cases hs : s.reference? t.binds.isPositional (questions before) with
    | none => rfl
    | some key =>
      rw [Option.isSome_some, if_pos rfl, image_eq_token hs rest]
      rfl

/-- The parameters the text refers to, in the order of their first appearance. -/
def parameters (t : Rendering) : List BindKey := (t.referencesOf t.source).eraseDups

/-- Whether a statement is the native form of the text: on its own, or as the text of a template
whose sources are resolved. -/
def Yields (t : Rendering) (native : Native) : Prop :=
  (t.resolved = OrderedMap.empty ∧ Template.render t.dialect t.sql t.binds t.types = .ok native) ∨
    ∃ sources, Template.resolve ⟨t.sql, t.binds, t.types, sources⟩ t.dialect t.resolved = .ok native

/-- A native form is what rendering the text yields. -/
theorem Yields.run_eq_ok {native : Native} (h : t.Yields native) : t.run = .ok native := by
  rcases h with ⟨hr, h⟩ | ⟨sources, h⟩
  · rw [Template.render, ← hr] at h
    exact h
  · rw [Template.resolve] at h
    split at h
    · cases h
    · exact h

/-- A native statement whose parameters are numbered by their first appearance. -/
structure NumbersParameters (t : Rendering) (native : Native) : Prop where
  /-- The keys are the positions from zero on. -/
  keys : native.binds.keys = (List.range t.parameters.length).map .index
  /-- Every reference becomes the number of its parameter, counted from one. -/
  tokens : t.tokens [] t.source =
    (t.referencesOf t.source).map fun key => "$" ++ toString (t.parameters.idxOf key + 1)
  /-- No number is left out, and they first appear in order. -/
  numbers : (t.tokens [] t.source).eraseDups =
    (List.range t.parameters.length).map fun j => "$" ++ toString (j + 1)
  /-- Each position has the value of its parameter. -/
  value : ∀ (j : Nat) (hj : j < t.parameters.length),
    native.binds.get? (.index j) = t.binds.get? t.parameters[j]
  /-- Each position has the declared category of its parameter, if there is one. -/
  type : ∀ (j : Nat) (hj : j < t.parameters.length),
    native.types.get? (.index j) = t.types.get? t.parameters[j]
  /-- Nothing else has a declared category. -/
  typed : ∀ key, key ∉ native.binds.keys → native.types.get? key = none
  /-- If every value has a wire value, these are bound to the positions from one on and come out
  in this order. -/
  sent : ∀ values : List WireValue, values.length = t.parameters.length →
    (∀ (j : Nat) (hj : j < t.parameters.length) (hv : j < values.length),
      ∃ v, t.binds.get? t.parameters[j] = some v ∧
        v.coerceUnder (toString (j + 1)) (t.types.get? t.parameters[j]) = .ok values[j]) →
    native.binds.params native.types = .ok (values.mapIdx fun j w => ⟨.position (j + 1), w⟩) ∧
      Postgres.inOrder (values.mapIdx fun j w => ⟨.position (j + 1), w⟩) = .ok values

/-- A native statement whose parameters keep their keys. -/
structure KeepsParameters (t : Rendering) (native : Native) : Prop where
  /-- The keys are those of the parameters, by first appearance. -/
  keys : native.binds.keys = t.parameters
  /-- Every reference becomes the token of its key. -/
  tokens : t.tokens [] t.source = (t.referencesOf t.source).map fun
    | .name n => ":" ++ n
    | .index _ => "?"
  /-- Each key has its value. -/
  value : ∀ key ∈ t.parameters, native.binds.get? key = t.binds.get? key
  /-- Each key has its declared category, if there is one. -/
  type : ∀ key ∈ t.parameters, native.types.get? key = t.types.get? key
  /-- Nothing else has a declared category. -/
  typed : ∀ key, key ∉ native.binds.keys → native.types.get? key = none

theorem dollar_inj {i j : Nat} (h : "$" ++ toString (i + 1) = "$" ++ toString (j + 1)) : i = j := by
  have := Number.toString_inj ((String.append_right_inj _).1 h)
  omega

/-- Parameters with wire values are bound in the order of the entries. -/
theorem paramsOf_eq_ok {types : BindTypes} {es : List (BindKey × Value)} {ps : List Param}
    (h : List.Forall₂ (fun e p => types.param e.1 e.2 = .ok p) es ps) :
    types.paramsOf es = .ok ps := by
  induction h with
  | nil => rfl
  | cons he _ ih => rw [BindTypes.paramsOf, he, ih]

/-- The parameter of a position has the wire value of its value. -/
theorem param_index {types : BindTypes} {j : Nat} {v : Value} {w : WireValue}
    (h : v.coerceUnder (toString (j + 1)) (types.get? (.index j)) = .ok w) :
    types.param (.index j) v = .ok ⟨.position (j + 1), w⟩ := by
  rw [BindTypes.param, BindKey.slot]
  unfold Value.coerceUnder at h
  cases ht : types.get? (.index j) with
  | none =>
    rw [ht] at h
    simp only [h]
  | some type =>
    rw [ht] at h
    simp only [h]

/-- A map whose keys are the positions from zero on binds its values in their order. -/
theorem params_eq_consecutive {binds : BindMap} {types : BindTypes} {values : List WireValue}
    (hkeys : binds.keys = (List.range values.length).map .index)
    (hvalues : ∀ (j : Nat) (hj : j < values.length), ∃ v, binds.get? (.index j) = some v ∧
      v.coerceUnder (toString (j + 1)) (types.get? (.index j)) = .ok values[j]) :
    binds.params types = .ok (Postgres.consecutive 0 values) := by
  have hlength : binds.entries.length = values.length := by
    have := congrArg List.length hkeys
    simpa [OrderedMap.keys] using this
  refine paramsOf_eq_ok (List.forall₂_iff_get.2 ⟨?_, fun j hj hj' => ?_⟩)
  · rw [hlength, Postgres.length_consecutive]
  · -- The entry at a place has the key of the place, and a map has one value under a key.
    have hv : j < values.length := hlength ▸ hj
    obtain ⟨v, hget, hw⟩ := hvalues j hv
    have hkey : (binds.entries[j]).1 = .index j := by
      have hk : binds.keys[j]? = some (.index j) := by
        rw [hkeys]
        simp [hv]
      simpa [OrderedMap.keys, hj] using hk
    have hval : (binds.entries[j]).2 = v := by
      have hmem := binds.get?_of_mem_entries (List.getElem_mem hj)
      rw [hkey, hget] at hmem
      exact (Option.some.inj hmem).symm
    rw [List.get_eq_getElem, hkey, hval, param_index hw]
    simp [Postgres.consecutive]

/-- The key of the parameter that appears at a place, where the dialect numbers parameters. -/
theorem nativeKey_getElem (hd : t.dialect = .postgres) {j : Nat} (hj : j < t.parameters.length) :
    t.dialect.nativeKey (t.referencesOf t.source) t.parameters[j] = .index j := by
  have hidx : t.parameters.idxOf t.parameters[j] = j := (nodup_eraseDups _).idxOf_getElem j hj
  rw [hd]
  exact congrArg BindKey.index hidx

/-- Where the dialect numbers parameters, the native statement numbers them by their first
appearance. -/
theorem numbersParameters (hd : t.dialect = .postgres) {native : Native}
    (h : t.run = .ok native) : t.NumbersParameters native := by
  obtain ⟨n, htracks, rfl⟩ := exists_tracks_of_run_eq_ok h
  have hmem : ∀ (j : Nat) (hj : j < t.parameters.length),
      t.parameters[j] ∈ t.referencesOf t.source := fun j hj =>
    List.mem_eraseDups.1 (List.getElem_mem hj)
  have hkeys : n.binds.keys = (List.range t.parameters.length).map .index := by
    rw [htracks.keys, hd, parameters, ← map_idxOf_eraseDups, List.map_map]
    rfl
  have htokens : t.tokens [] t.source =
      (t.referencesOf t.source).map fun key => "$" ++ toString (t.parameters.idxOf key + 1) := by
    rw [tokens_eq_map, hd]
    rfl
  have hvalue : ∀ (j : Nat) (hj : j < t.parameters.length),
      n.binds.get? (.index j) = t.binds.get? t.parameters[j] := by
    intro j hj
    rw [← nativeKey_getElem hd hj]
    exact htracks.value _ (hmem j hj)
  have htype : ∀ (j : Nat) (hj : j < t.parameters.length),
      n.types.get? (.index j) = t.types.get? t.parameters[j] := by
    intro j hj
    rw [← nativeKey_getElem hd hj]
    exact htracks.type _ (hmem j hj)
  refine ⟨hkeys, htokens, ?_, hvalue, htype, htracks.typed, ?_⟩
  · -- Distinct parameters have distinct numbers, so first appearances of the one are those of the
    -- other.
    have hinj : ∀ a ∈ t.referencesOf t.source, ∀ b ∈ t.referencesOf t.source,
        "$" ++ toString (t.parameters.idxOf a + 1) = "$" ++ toString (t.parameters.idxOf b + 1) →
          a = b := fun a ha b _ he =>
      (List.idxOf_inj (List.mem_eraseDups.2 ha)).1 (dollar_inj he)
    rw [htokens, eraseDups_map hinj]
    rw [parameters, ← map_idxOf_eraseDups, List.map_map]
    rfl
  · intro values hlength hvalues
    have hpos : (values.mapIdx fun j w => ⟨.position (j + 1), w⟩) =
        Postgres.consecutive 0 values := by simp [Postgres.consecutive]
    rw [hpos]
    refine ⟨params_eq_consecutive (hlength ▸ hkeys) fun j hj => ?_,
      Postgres.inOrder_consecutive values⟩
    have hj' : j < t.parameters.length := hlength ▸ hj
    obtain ⟨v, hv, hw⟩ := hvalues j hj' hj
    rw [← hvalue j hj'] at hv
    rw [← htype j hj'] at hw
    exact ⟨v, hv, hw⟩

/-- Where the dialect keeps the keys of parameters, the native statement has those the text refers
to. -/
theorem keepsParameters (hd : t.dialect = .mysql) {native : Native}
    (h : t.run = .ok native) : t.KeepsParameters native := by
  obtain ⟨n, htracks, rfl⟩ := exists_tracks_of_run_eq_ok h
  have hmem : ∀ key ∈ t.parameters, key ∈ t.referencesOf t.source := fun key hk =>
    List.mem_eraseDups.1 hk
  have hkey : ∀ key, t.dialect.nativeKey (t.referencesOf t.source) key = key := fun key => by
    rw [hd]
    rfl
  refine ⟨?_, ?_, ?_, ?_, htracks.typed⟩
  · rw [htracks.keys, Dialect.nativeKeys, funext hkey]
    exact List.map_id _
  · rw [tokens_eq_map]
    refine List.map_congr_left fun key _ => ?_
    rw [hd]
    cases key <;> rfl
  · intro key hk
    have := htracks.value key (hmem key hk)
    rwa [hkey] at this
  · intro key hk
    have := htracks.type key (hmem key hk)
    rwa [hkey] at this

/-! ### Native forms -/

/-- Where parameters are positional, a text that has a native form refers to as many of them as it
has question marks. -/
theorem parameters_of_isPositional (hp : t.binds.isPositional = true) {native : Native}
    (h : t.run = .ok native) :
    t.parameters = (List.range (questions t.source)).map .index := by
  obtain ⟨n, htracks, -⟩ := exists_tracks_of_run_eq_ok h
  have hrefs := htracks.positions hp
  rw [positions_eq_questions htracks hp] at hrefs
  rw [parameters, hrefs]
  exact eraseDups_eq_self (List.nodup_range.map fun i j hij => BindKey.index.inj hij)

/-- The tokens of a native form and the keys of its maps match one to one. The text refers to the
parameters its placeholders name or, where all parameters are positional, to one for each question
mark, and no others are bound; they are numbered by first appearance where the dialect has numbers
only, and else keep their keys. -/
theorem binds_match_tokens {native : Native} (h : t.Yields native) :
    native.sql = String.join (t.images [] t.source) ∧
      (t.binds.isPositional = false →
        t.parameters = ((placeholderNames t.source).map BindKey.name).eraseDups) ∧
      (t.binds.isPositional = true →
        t.parameters = (List.range (questions t.source)).map BindKey.index) ∧
      (t.dialect = .postgres → t.NumbersParameters native) ∧
      (t.dialect = .mysql → t.KeepsParameters native) := by
  have hrun := h.run_eq_ok
  refine ⟨sql_eq_join_images hrun, fun hp => ?_, fun hp => parameters_of_isPositional hp hrun,
    fun hd => numbersParameters hd hrun, fun hd => keepsParameters hd hrun⟩
  rw [parameters, referencesOf, hp, references_false]

/-- A text that names one parameter twice before it names another. -/
theorem binds_match_tokens_reused :
    let t : Rendering := ⟨.postgres, OrderedMap.empty,
      OrderedMap.ofList [(.name "a", .int 1), (.name "b", .str "x"), (.name "c", .null)],
      OrderedMap.ofList [(.name "a", .str)], ":b:,:b:,:a:"⟩
    let native : Native := ⟨"$1,$1,$2",
      OrderedMap.ofList [(.index 0, .str "x"), (.index 1, .int 1)],
      OrderedMap.ofList [(.index 1, .str)]⟩
    t.Yields native ∧ t.NumbersParameters native := by
  intro t native
  have h : t.Yields native := .inl ⟨rfl, by decide +kernel⟩
  exact ⟨h, (binds_match_tokens h).2.2.2.1 rfl⟩

end Rendering

end BoundSql
