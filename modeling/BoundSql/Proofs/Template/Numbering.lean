import BoundSql.Proofs.OrderedMap
import BoundSql.Template.Rendering
import Mathlib.Data.List.Induction
import Mathlib.Data.List.Nodup

/-! # Numbering parameters by first appearance
A rendering hands out a token for every reference to a parameter. What it has bound after some
references depends on the references alone:
* **`Dialect.nativeKey`**, **`Dialect.token`** — the key and the token of a parameter, given the
  references of the text so far.
* **`Numbering.Tracks`** — the numbering that some references have produced.
* **`Rendering.named_eq_ok`**, **`Rendering.positional_eq_ok`** — one more reference yields the
  token of its parameter, and the numbering still tracks the references. -/

namespace BoundSql

/-! ### First appearances -/

section FirstAppearance

variable {α : Type} [BEq α] [LawfulBEq α]

/-- An element appended to a list appears first there exactly if it is new. -/
theorem eraseDups_concat [DecidableEq α] (l : List α) (a : α) :
    (l ++ [a]).eraseDups = if a ∈ l then l.eraseDups else l.eraseDups ++ [a] := by
  rw [List.eraseDups_append, List.cons_removeAll, List.nil_removeAll]
  by_cases h : a ∈ l
  · simp [h]
  · simp [h, List.eraseDups_cons]

/-- The first appearances are distinct. -/
theorem nodup_eraseDups [DecidableEq α] (l : List α) : l.eraseDups.Nodup := by
  induction l using List.reverseRecOn with
  | nil => exact List.nodup_nil
  | append_singleton l a ih =>
    rw [eraseDups_concat]
    split
    · exact ih
    · rename_i h
      rw [← List.concat_eq_append]
      exact ih.concat fun ha => h (List.mem_eraseDups.1 ha)

/-- In a list without repetition every appearance is the first. -/
theorem eraseDups_eq_self {l : List α} (h : l.Nodup) : l.eraseDups = l := by
  induction l with
  | nil => rfl
  | cons a l ih =>
    rw [List.nodup_cons] at h
    have hf : (l.filter fun b => !b == a) = l :=
      List.filter_eq_self.2 fun b hb => by
        simpa using fun he : b = a => h.1 (he ▸ hb)
    rw [List.eraseDups_cons, hf, ih h.2]

/-- Later references do not change the place of a first appearance. -/
theorem idxOf_eraseDups_append {l : List α} {a : α} (h : a ∈ l) (l' : List α) :
    (l ++ l').eraseDups.idxOf a = l.eraseDups.idxOf a := by
  rw [List.eraseDups_append, List.idxOf_append, if_pos (List.mem_eraseDups.2 h)]

/-- Renaming elements apart keeps the first appearances. -/
theorem eraseDups_map {β : Type} [DecidableEq α] [DecidableEq β] {f : α → β} {l : List α}
    (hf : ∀ a ∈ l, ∀ b ∈ l, f a = f b → a = b) : (l.map f).eraseDups = l.eraseDups.map f := by
  induction l using List.reverseRecOn with
  | nil => rfl
  | append_singleton l a ih =>
    -- The image of an element is new exactly if the element is.
    have hmem : f a ∈ l.map f ↔ a ∈ l := by
      constructor
      · intro h
        obtain ⟨b, hb, he⟩ := List.mem_map.1 h
        rwa [← hf b (List.mem_append_left _ hb) a (by simp) he]
      · exact List.mem_map_of_mem
    have hl := ih fun b hb c hc => hf b (List.mem_append_left _ hb) c (List.mem_append_left _ hc)
    rw [List.map_append, List.map_singleton, eraseDups_concat, eraseDups_concat, hl]
    by_cases h : a ∈ l
    · rw [if_pos h, if_pos (hmem.2 h)]
    · rw [if_neg h, if_neg (mt hmem.1 h), List.map_append, List.map_singleton]

/-- The places of first appearances count from zero. -/
theorem map_idxOf_eraseDups [DecidableEq α] (l : List α) :
    l.eraseDups.map l.eraseDups.idxOf = List.range l.eraseDups.length := by
  refine List.ext_getElem (by simp) fun i h _ => ?_
  rw [List.getElem_map, List.getElem_range]
  exact (nodup_eraseDups l).idxOf_getElem i _

end FirstAppearance

namespace Dialect

/-- The key of a parameter in a native statement, where `refs` are the references of the text:
positions count the parameters by their first appearance. -/
def nativeKey (d : Dialect) (refs : List BindKey) (key : BindKey) : BindKey :=
  match d with
  | mysql => key
  | postgres => .index (refs.eraseDups.idxOf key)

/-- The keys of the parameters of a native statement, in order. -/
def nativeKeys (d : Dialect) (refs : List BindKey) : List BindKey :=
  refs.eraseDups.map (d.nativeKey refs)

/-- The token of a parameter, where `refs` are the references of the text. -/
def token (d : Dialect) (refs : List BindKey) (key : BindKey) : String :=
  match d, key with
  | mysql, .name n => ":" ++ n
  | mysql, .index _ => "?"
  | postgres, key => "$" ++ toString (refs.eraseDups.idxOf key + 1)

variable {d : Dialect} {refs : List BindKey} {key : BindKey}

/-- The key of a parameter that appeared does not change. -/
theorem nativeKey_append (h : key ∈ refs) (later : List BindKey) :
    d.nativeKey (refs ++ later) key = d.nativeKey refs key := by
  cases d with
  | mysql => rfl
  | postgres => rw [nativeKey, nativeKey, idxOf_eraseDups_append h]

/-- The token of a parameter that appeared does not change. -/
theorem token_append (h : key ∈ refs) (later : List BindKey) :
    d.token (refs ++ later) key = d.token refs key := by
  cases d with
  | mysql => cases key <;> rfl
  | postgres => simp only [token, idxOf_eraseDups_append h]

/-- A reference to a parameter that already appeared keeps the keys, and one to a new parameter
appends its key. -/
theorem nativeKeys_concat : d.nativeKeys (refs ++ [key]) =
    if key ∈ refs then d.nativeKeys refs
    else d.nativeKeys refs ++ [d.nativeKey (refs ++ [key]) key] := by
  have hmap : refs.eraseDups.map (d.nativeKey (refs ++ [key])) = d.nativeKeys refs :=
    List.map_congr_left fun k hk => nativeKey_append (List.mem_eraseDups.1 hk) _
  rw [nativeKeys, eraseDups_concat]
  split
  · exact hmap
  · rw [List.map_append, hmap, List.map_singleton]

/-- Distinct parameters have distinct keys. -/
theorem nativeKey_inj {key' : BindKey} (h : key ∈ refs)
    (he : d.nativeKey refs key = d.nativeKey refs key') : key = key' := by
  cases d with
  | mysql => exact he
  | postgres =>
    rw [nativeKey, nativeKey, BindKey.index.injEq] at he
    exact (List.idxOf_inj (List.mem_eraseDups.2 h)).1 he

/-- The keys are those of the parameters the text refers to. -/
theorem mem_nativeKeys {k : BindKey} :
    k ∈ d.nativeKeys refs ↔ ∃ key ∈ refs, d.nativeKey refs key = k := by
  simp [nativeKeys]

/-- The key of one more reference is present exactly if its parameter appeared before. -/
theorem nativeKey_concat_mem :
    d.nativeKey (refs ++ [key]) key ∈ d.nativeKeys refs ↔ key ∈ refs := by
  constructor
  · intro h
    obtain ⟨key', hm, he⟩ := mem_nativeKeys.1 h
    rw [← nativeKey_append hm [key]] at he
    exact nativeKey_inj (List.mem_append_left _ hm) he ▸ hm
  · intro h
    rw [nativeKey_append h]
    exact mem_nativeKeys.2 ⟨key, h, rfl⟩

end Dialect

/-! ### What a numbering has bound -/

/-- The numbering that references have produced: every parameter they refer to, under its native
key, with the value and the declared category it has in the template. -/
structure Numbering.Tracks (t : Rendering) (refs : List BindKey) (n : Numbering) : Prop where
  /-- The keys are those of the references, in the order of their first appearance. -/
  keys : n.binds.keys = t.dialect.nativeKeys refs
  /-- Every parameter has its value. -/
  value : ∀ key ∈ refs, n.binds.get? (t.dialect.nativeKey refs key) = t.binds.get? key
  /-- Every parameter has its declared category, if there is one. -/
  type : ∀ key ∈ refs, n.types.get? (t.dialect.nativeKey refs key) = t.types.get? key
  /-- Nothing else has a declared category. -/
  typed : ∀ k, k ∉ n.binds.keys → n.types.get? k = none
  /-- Numbered names are the references. -/
  names : t.dialect = .postgres → t.binds.isPositional = false →
    n.names.map BindKey.name = refs.eraseDups
  /-- Positional references count from zero. -/
  positions : t.binds.isPositional = true → refs = (List.range n.positions).map BindKey.index

namespace Numbering

variable {t : Rendering} {refs : List BindKey} {n : Numbering}

/-- No reference has been made at the start. -/
theorem tracks_empty (t : Rendering) : Tracks t [] {} where
  keys := rfl
  value := by simp
  type := by simp
  typed k _ := OrderedMap.get?_empty k
  names _ _ := rfl
  positions _ := rfl

/-- Recording a value declares the category of its own key only. -/
theorem get?_types_record (n : Numbering) (k k' : BindKey) (v : Value) (type : Option WireType) :
    (n.record k v type).types.get? k' =
      if k' = k then type.or (n.types.get? k') else n.types.get? k' := by
  cases type with
  | none => simp [record]
  | some w => simp [record, OrderedMap.get?_insert]

/-- A parameter without a declared category has none under its native key either. -/
theorem Tracks.or_type (h : Tracks t refs n) (key : BindKey) :
    (t.types.get? key).or (n.types.get? (t.dialect.nativeKey (refs ++ [key]) key)) =
      t.types.get? key := by
  by_cases hk : key ∈ refs
  · rw [Dialect.nativeKey_append hk, h.type key hk, Option.or_self]
  · rw [h.typed _ (by rwa [h.keys, Dialect.nativeKey_concat_mem]), Option.or_none]

/-- Recording one more reference keeps track of it, whatever is handed out next. -/
theorem Tracks.record (h : Tracks t refs n) {key : BindKey} {v : Value}
    (hv : t.binds.get? key = some v) (names : List String) {positions : Nat}
    (hnames : t.dialect = .postgres → t.binds.isPositional = false →
      names.map BindKey.name = (refs ++ [key]).eraseDups)
    (hpositions : t.binds.isPositional = true →
      refs ++ [key] = (List.range positions).map BindKey.index) :
    Tracks t (refs ++ [key])
      { n.record (t.dialect.nativeKey (refs ++ [key]) key) v (t.types.get? key) with
        names, positions } := by
  -- The references before keep their native keys, and the new one has a key of its own.
  have hold : ∀ k ∈ refs, k ≠ key → t.dialect.nativeKey (refs ++ [key]) k ≠
      t.dialect.nativeKey (refs ++ [key]) key := fun k hk hne he =>
    hne (Dialect.nativeKey_inj (List.mem_append_left _ hk) he)
  have hmem : ∀ k ∈ refs ++ [key], k ≠ key → k ∈ refs := fun k hk hne =>
    (List.mem_append.1 hk).resolve_right fun hs => hne (List.mem_singleton.1 hs)
  have hkeys : (n.binds.insert (t.dialect.nativeKey (refs ++ [key]) key) v).keys =
      t.dialect.nativeKeys (refs ++ [key]) := by
    rw [OrderedMap.keys_insert, h.keys, Dialect.nativeKeys_concat]
    simp only [Dialect.nativeKey_concat_mem]
  refine ⟨hkeys, ?_, ?_, ?_, hnames, hpositions⟩
  · -- The new reference has the value that was recorded, the others keep theirs.
    intro k hk
    by_cases hke : k = key
    · rw [hke, hv]
      exact OrderedMap.get?_insert_self _ _ _
    · have hk' := hmem k hk hke
      rw [← h.value k hk', ← Dialect.nativeKey_append hk' [key]]
      exact OrderedMap.get?_insert_of_ne _ _ (hold k hk' hke)
  · -- So do declared categories, but a parameter may have none.
    intro k hk
    refine (get?_types_record n _ _ v _).trans ?_
    by_cases hke : k = key
    · rw [hke, if_pos rfl, h.or_type]
    · have hk' := hmem k hk hke
      rw [if_neg (hold k hk' hke), Dialect.nativeKey_append hk', h.type k hk']
  · intro k hk
    refine (get?_types_record n _ _ v _).trans ?_
    have hk' : k ∉ (n.binds.insert (t.dialect.nativeKey (refs ++ [key]) key) v).keys := hk
    rw [OrderedMap.mem_keys_insert, not_or] at hk'
    rw [if_neg hk'.2, h.typed k hk'.1]

/-- A name has among names the place its key has among their keys. -/
theorem idxOf_map_name (names : List String) (name : String) :
    (names.map BindKey.name).idxOf (BindKey.name name) = names.idxOf name := by
  induction names with
  | nil => rfl
  | cons a names ih =>
    rw [List.map_cons, List.idxOf_cons, List.idxOf_cons, ih]
    by_cases h : a = name
    · simp [h]
    · have hk : (BindKey.name a == BindKey.name name) = false := by simpa using h
      simp [hk, beq_eq_false_iff_ne.2 h]

/-- The number of a name is the place of its first appearance. -/
theorem Tracks.number (h : Tracks t refs n) (hd : t.dialect = .postgres)
    (hp : t.binds.isPositional = false) (name : String) :
    (n.number name).1 = (refs ++ [BindKey.name name]).eraseDups.idxOf (BindKey.name name) ∧
      (n.number name).2.map BindKey.name = (refs ++ [BindKey.name name]).eraseDups := by
  have hnames := h.names hd hp
  have hmem : BindKey.name name ∈ refs ↔ name ∈ n.names := by
    rw [← List.mem_eraseDups, ← hnames]
    simp
  rw [eraseDups_concat, ← hnames, Numbering.number]
  -- A name that has a number keeps it, and a new one gets the next.
  cases hi : n.names.idxOf? name with
  | some i =>
    have hin : name ∈ n.names := List.isSome_idxOf?.1 (by rw [hi]; rfl)
    have hidx : n.names.idxOf name = i := by rw [List.idxOf_eq_getD_idxOf?, hi]; rfl
    rw [if_pos (hmem.2 hin), idxOf_map_name]
    exact ⟨hidx.symm, rfl⟩
  | none =>
    have hout : name ∉ n.names := List.idxOf?_eq_none_iff.1 hi
    have hall : n.names.map BindKey.name ++ [BindKey.name name] =
        (n.names ++ [name]).map BindKey.name := by rw [List.map_append, List.map_singleton]
    rw [if_neg (mt hmem.1 hout), hall, idxOf_map_name]
    exact ⟨by simp [List.idxOf_append, hout], rfl⟩

/-- The next position is the place of its own first appearance. -/
theorem Tracks.place (h : Tracks t refs n) (hp : t.binds.isPositional = true) :
    (refs ++ [BindKey.index n.positions]).eraseDups.idxOf (BindKey.index n.positions) =
      n.positions := by
  have hr := h.positions hp
  -- Positions are all distinct, so every reference appears there first.
  have hn : refs.Nodup := by
    rw [hr]
    exact List.nodup_range.map fun i j hij => BindKey.index.inj hij
  have hout : BindKey.index n.positions ∉ refs := by simp [hr]
  rw [eraseDups_concat, if_neg hout, eraseDups_eq_self hn, List.idxOf_append, if_neg hout]
  simp [hr]

end Numbering

/-! ### One more reference -/

namespace Rendering

variable {t : Rendering} {refs : List BindKey} {n : Numbering}

/-- A placeholder whose name is bound yields the token of its parameter. -/
theorem named_eq_ok (h : n.Tracks t refs) (hp : t.binds.isPositional = false) {name : String}
    {v : Value} (hv : t.binds.get? (.name name) = some v) :
    ∃ n', t.named name n = .ok (t.dialect.token (refs ++ [.name name]) (.name name), n') ∧
      n'.Tracks t (refs ++ [.name name]) := by
  have hpos : t.binds.isPositional = true →
      refs ++ [.name name] = (List.range n.positions).map BindKey.index := by simp [hp]
  rw [named, hv]
  -- Where names are kept, no numbers are handed out.
  cases hd : t.dialect with
  | mysql =>
    refine ⟨_, rfl, ?_⟩
    have := h.record hv n.names (fun hd' => by simp [hd] at hd') hpos
    rw [hd] at this
    exact this
  | postgres =>
    have hn := h.number hd hp name
    refine ⟨_, ?_, h.record hv (n.number name).2 (fun _ _ => hn.2) hpos⟩
    simp only [Dialect.supportsNamed, Dialect.positionalToken, Dialect.token, hd, hn.1,
      Dialect.nativeKey]
    rfl

/-- A positional token whose position is bound yields the token of its parameter. -/
theorem positional_eq_ok (h : n.Tracks t refs) (hp : t.binds.isPositional = true) {v : Value}
    (hv : t.binds.get? (.index n.positions) = some v) :
    ∃ n', t.positional n =
        .ok (t.dialect.token (refs ++ [.index n.positions]) (.index n.positions), n') ∧
      n'.Tracks t (refs ++ [.index n.positions]) := by
  have hplace := h.place hp
  have hnext : refs ++ [.index n.positions] = (List.range (n.positions + 1)).map BindKey.index := by
    rw [List.range_succ, List.map_append, ← h.positions hp, List.map_singleton]
  have hkey : t.dialect.nativeKey (refs ++ [.index n.positions]) (.index n.positions) =
      .index n.positions := by
    cases t.dialect with
    | mysql => rfl
    | postgres => exact congrArg BindKey.index hplace
  have hr := h.record hv n.names (fun _ hp' => by simp [hp] at hp') (fun _ => hnext)
  rw [hkey] at hr
  refine ⟨_, ?_, hr⟩
  rw [positional, hv]
  cases t.dialect with
  | mysql => rfl
  | postgres =>
    simp only [Dialect.positionalToken, Dialect.token, hplace]
    rfl

end Rendering

end BoundSql
