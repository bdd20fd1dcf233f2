import BoundSql.Proofs.Inlined.Substitution
import BoundSql.Proofs.Postgres.Placement
import Mathlib.Data.List.Duplicate
import Mathlib.Data.List.Perm.Basic

/-! # Parameters in any order of their positions
A server that numbers its parameters takes their values in the order of the numbers, however they
were given.
* **`IsPlaced`**, **`Refused`** — what a parameter's place has to be, and what is wrong with
  parameters that have no order.
* **`place_of_forall`** — what values leave at their positions: of several at one position the last.
* **`slots_perm_iff`** — as many places as there are positions are all of them exactly if none is
  given twice.
* **`inOrder_eq_ok_iff`**, **`inOrder_eq_error_iff`** — parameters are put in order exactly if they
  are a rearrangement of ones that come in order, and refused exactly for a reason.
* **`values_by_position`** — so each value is sent once, at its position. -/

namespace BoundSql.Postgres

open Inlined (valueAt? valueAt?_eq_some_iff)

/-- Whether a parameter has one of the first `count` positions. -/
def IsPlaced (count : ℕ) (p : Param) : Prop := ∃ i, p.slot = .position (i + 1) ∧ i < count

/-- `Refused params e`: the parameters have no order, for the reason `e`. Of parameters without a
position in range the first one counts, and of positions without a value the least. -/
inductive Refused (params : List Param) : PlacementError → Prop
  /-- A parameter has a name. -/
  | named {before after : List Param} {p : Param} {token : String}
      (split : params = before ++ p :: after) (earlier : ∀ q ∈ before, IsPlaced params.length q)
      (slot : p.slot = .named token) : Refused params (.named token)
  /-- A parameter's position is zero or beyond the number of parameters. -/
  | outOfRange {before after : List Param} {p : Param} {n : ℕ}
      (split : params = before ++ p :: after) (earlier : ∀ q ∈ before, IsPlaced params.length q)
      (slot : p.slot = .position n) (range : n = 0 ∨ params.length < n) :
      Refused params (.outOfRange n params.length)
  /-- No parameter has a position that there is. -/
  | unbound {i : ℕ} (placed : ∀ p ∈ params, IsPlaced params.length p) (range : i < params.length)
      (missing : ¬ ∃ p ∈ params, p.slot = .position (i + 1))
      (least : ∀ j < i, ∃ p ∈ params, p.slot = .position (j + 1)) :
      Refused params (.unbound (i + 1))

section

variable {count : ℕ} {params : List Param}

theorem not_isPlaced_iff {p : Param} : ¬ IsPlaced count p ↔
    (∃ token, p.slot = .named token) ∨ ∃ n, p.slot = .position n ∧ (n = 0 ∨ count < n) := by
  cases hslot : p.slot with
  | named token => simp [IsPlaced, hslot]
  | position n =>
    cases n with
    | zero => simp [IsPlaced, hslot]
    | succ i =>
      have hplaced : IsPlaced count p ↔ i < count := by simp [IsPlaced, hslot]
      rw [hplaced, Nat.not_lt]
      constructor
      · exact fun hle => .inr ⟨i + 1, rfl, .inr (Nat.lt_succ_of_le hle)⟩
      · rintro (⟨token, htoken⟩ | ⟨n, hn, hrange⟩)
        · cases htoken
        · obtain rfl := Slot.position.inj hn
          omega

/-! ### Filling the places -/

/-- Of two parameters for a slot the later one counts. -/
theorem valueAt?_cons (p : Param) (rest : List Param) (slot : Slot) :
    valueAt? (p :: rest) slot =
      (valueAt? rest slot).or (if p.slot = slot then some p.value else none) := by
  simp only [valueAt?, List.reverse_cons, List.find?_append, Option.map_or]
  by_cases h : p.slot = slot <;> simp [h]

/-- There is a value for a slot exactly if a parameter has the slot. -/
theorem isSome_valueAt?_iff (slot : Slot) :
    (valueAt? params slot).isSome ↔ ∃ p ∈ params, p.slot = slot := by
  simp [valueAt?, List.find?_isSome]

theorem place_cons_of_position {p : Param} {i : ℕ} (hslot : p.slot = .position (i + 1))
    (hi : i < count) (rest : List Param) (placed : List (Option WireValue)) :
    place count (p :: rest) placed = place count rest (placed.set i (some p.value)) := by
  rw [place, hslot]
  exact if_pos ⟨Nat.le_add_left 1 i, hi⟩

/-- Every value goes to its position, over the values that are there. -/
theorem place_of_forall (h : ∀ p ∈ params, IsPlaced count p) (placed : List (Option WireValue)) :
    place count params placed =
      .ok (placed.mapIdx fun i old => (valueAt? params (.position (i + 1))).or old) := by
  induction params generalizing placed with
  | nil =>
    have hold : (placed.mapIdx fun i old => (valueAt? [] (.position (i + 1))).or old) = placed :=
      List.ext_getElem (by simp) fun i hi hi' => by simp [valueAt?]
    rw [place, hold]
  | cons p rest ih =>
    obtain ⟨⟨i, hslot, hi⟩, hrest⟩ := List.forall_mem_cons.1 h
    rw [place_cons_of_position hslot hi, ih hrest]
    congr 1
    refine List.ext_getElem (by simp) fun j hj hj' => ?_
    simp only [List.getElem_mapIdx, List.getElem_set, valueAt?_cons, hslot, Slot.position.injEq,
      Nat.add_right_cancel_iff]
    by_cases hij : i = j <;> simp [hij]

/-- A parameter without a position in range ends it, after ones that have one. -/
theorem place_append_of_refused {before after : List Param}
    (hbefore : ∀ q ∈ before, IsPlaced count q) {p : Param} {e : PlacementError}
    (hp : ∀ rest placed, place count (p :: rest) placed = .error e)
    (placed : List (Option WireValue)) :
    place count (before ++ p :: after) placed = .error e := by
  induction before generalizing placed with
  | nil => exact hp after placed
  | cons q before ih =>
    obtain ⟨⟨i, hslot, hi⟩, hbefore⟩ := List.forall_mem_cons.1 hbefore
    rw [List.cons_append, place_cons_of_position hslot hi, ih hbefore]

/-! ### Reading the places -/

/-- Places are all filled, or there is a first one that is not. -/
theorem exists_map_some_or (placed : List (Option WireValue)) :
    (∃ values : List WireValue, placed = values.map some) ∨
      ∃ (values : List WireValue) (rest : List (Option WireValue)),
        placed = values.map some ++ none :: rest := by
  induction placed with
  | nil => exact .inl ⟨[], rfl⟩
  | cons place placed ih =>
    cases place with
    | none => exact .inr ⟨[], placed, rfl⟩
    | some v =>
      rcases ih with ⟨values, rfl⟩ | ⟨values, rest, rfl⟩
      · exact .inl ⟨v :: values, rfl⟩
      · exact .inr ⟨v :: values, rest, rfl⟩

/-- The first place that is not filled is reported. -/
theorem filled_append_none (next : ℕ) (values : List WireValue) (rest : List (Option WireValue)) :
    filled next (values.map some ++ none :: rest) = .error (.unbound (next + values.length)) := by
  induction values generalizing next with
  | nil => rfl
  | cons v values ih =>
    rw [List.map_cons, List.cons_append, filled, ih, List.length_cons, Nat.add_assoc,
      Nat.add_comm 1]

/-! ### The positions there are -/

/-- The positions from one to a number, in order. -/
def firstSlots (n : ℕ) : List Slot := (List.range' 1 n).map .position

@[simp] theorem length_firstSlots (n : ℕ) : (firstSlots n).length = n := by
  simp [firstSlots]

@[simp] theorem getElem_firstSlots {n i : ℕ} (h : i < (firstSlots n).length) :
    (firstSlots n)[i] = .position (i + 1) := by
  simp [firstSlots, Nat.add_comm]

theorem mem_firstSlots {n : ℕ} {slot : Slot} :
    slot ∈ firstSlots n ↔ ∃ i, slot = .position (i + 1) ∧ i < n := by
  rw [List.mem_iff_getElem]
  constructor
  · rintro ⟨i, hi, rfl⟩
    exact ⟨i, getElem_firstSlots hi, by simpa using hi⟩
  · rintro ⟨i, rfl, hi⟩
    exact ⟨i, by simpa using hi, getElem_firstSlots _⟩

theorem nodup_firstSlots (n : ℕ) : (firstSlots n).Nodup :=
  List.Nodup.map (fun _ _ h => Slot.position.inj h) List.nodup_range'

theorem forall_isPlaced_iff :
    (∀ p ∈ params, IsPlaced count p) ↔ params.map Param.slot ⊆ firstSlots count := by
  simp only [List.subset_def, List.forall_mem_map, mem_firstSlots, IsPlaced]

/-- As many places as there are positions are all of them exactly if they are positions in range and
none of them is given twice. -/
theorem slots_perm_iff : (params.map Param.slot).Perm (firstSlots params.length) ↔
    (∀ p ∈ params, IsPlaced params.length p) ∧ (params.map Param.slot).Nodup := by
  rw [forall_isPlaced_iff]
  constructor
  · exact fun h => ⟨h.subset, h.nodup_iff.2 (nodup_firstSlots _)⟩
  · rintro ⟨hsub, hnodup⟩
    exact (List.subperm_of_subset hnodup hsub).perm_of_length_le (by simp)

/-- And exactly if none of them is missing, since no two can then be the same. -/
theorem slots_perm_iff_subset : (params.map Param.slot).Perm (firstSlots params.length) ↔
    firstSlots params.length ⊆ params.map Param.slot := by
  refine ⟨fun h => h.symm.subset, fun h => ?_⟩
  exact ((List.subperm_of_subset (nodup_firstSlots _) h).perm_of_length_le (by simp)).symm

@[simp] theorem map_slot_consecutive (values : List WireValue) :
    (consecutive 0 values).map Param.slot = firstSlots values.length :=
  List.ext_getElem (by simp) fun i hi hi' => by simp [consecutive]

@[simp] theorem map_value_consecutive (values : List WireValue) :
    (consecutive 0 values).map Param.value = values :=
  List.ext_getElem (by simp) fun i hi hi' => by simp [consecutive]

theorem mem_consecutive {values : List WireValue} {p : Param} :
    p ∈ consecutive 0 values ↔ ∃ i, p.slot = .position (i + 1) ∧ values[i]? = some p.value := by
  obtain ⟨slot, v⟩ := p
  rw [consecutive, List.mem_mapIdx]
  constructor
  · rintro ⟨i, hi, h⟩
    obtain ⟨rfl, rfl⟩ := Param.mk.inj h
    exact ⟨i, by rw [Nat.zero_add], List.getElem?_eq_getElem hi⟩
  · rintro ⟨i, rfl, hv⟩
    obtain ⟨hi, rfl⟩ := List.getElem?_eq_some_iff.1 hv
    exact ⟨i, hi, by rw [Nat.zero_add]⟩

/-! ### Values in order -/

/-- Where no slot is given twice, each parameter's value is the one that counts. -/
theorem valueAt?_of_mem (hnodup : (params.map Param.slot).Nodup) {p : Param} (hp : p ∈ params) :
    valueAt? params p.slot = some p.value := by
  obtain ⟨earlier, later, rfl⟩ := List.append_of_mem hp
  refine valueAt?_eq_some_iff.2 ⟨earlier, later, rfl, fun q hq heq => ?_⟩
  rw [List.map_append, List.map_cons] at hnodup
  exact (List.nodup_cons.1 (List.nodup_append.1 hnodup).2.1).1 (heq ▸ List.mem_map_of_mem hq)

/-- Parameters with positions in range are read position by position. -/
theorem inOrder_of_forall (h : ∀ p ∈ params, IsPlaced params.length p) :
    inOrder params = filled 1 ((firstSlots params.length).map (valueAt? params)) := by
  have hplaced : (List.replicate params.length none).mapIdx
      (fun i old => (valueAt? params (.position (i + 1))).or old) =
        (firstSlots params.length).map (valueAt? params) :=
    List.ext_getElem (by simp) fun i hi hi' => by simp
  rw [inOrder, place_of_forall h, hplaced]

/-- A position has a parameter exactly if its place is filled. -/
theorem exists_slot_iff {n i : ℕ} (hi : i < n) :
    (∃ p ∈ params, p.slot = .position (i + 1)) ↔
      ((firstSlots n).map (valueAt? params))[i]? ≠ some none := by
  have hread : ((firstSlots n).map (valueAt? params))[i]? =
      some (valueAt? params (.position (i + 1))) := by
    rw [List.getElem?_eq_getElem (by simpa using hi), List.getElem_map, getElem_firstSlots]
  rw [hread, ← isSome_valueAt?_iff, Option.isSome_iff_ne_none, Ne, Ne, Option.some_inj]

/-- The first place that is empty is that of the least position without a parameter. -/
theorem missing_of_map_eq {n : ℕ} {values : List WireValue} {rest : List (Option WireValue)}
    (h : (firstSlots n).map (valueAt? params) = values.map some ++ none :: rest) :
    values.length < n ∧ (¬ ∃ p ∈ params, p.slot = .position (values.length + 1)) ∧
      ∀ j < values.length, ∃ p ∈ params, p.slot = .position (j + 1) := by
  have hlt : values.length < n := by
    have hlength := congrArg List.length h
    simp only [List.length_map, length_firstSlots, List.length_append, List.length_cons] at hlength
    omega
  refine ⟨hlt, ?_, fun j hj => ?_⟩
  · rw [exists_slot_iff hlt, h]
    simp
  · rw [exists_slot_iff (Nat.lt_trans hj hlt), h, List.getElem?_append_left (by simpa using hj)]
    simp [hj]

/-- Parameters have positions in range, or there is a first one that has none. -/
theorem forall_isPlaced_or (count : ℕ) (params : List Param) :
    (∀ p ∈ params, IsPlaced count p) ∨ ∃ before p after, params = before ++ p :: after ∧
      (∀ q ∈ before, IsPlaced count q) ∧ ¬ IsPlaced count p := by
  induction params with
  | nil => exact .inl (by simp)
  | cons p params ih =>
    by_cases hp : IsPlaced count p
    · rcases ih with hall | ⟨before, q, after, rfl, hbefore, hq⟩
      · exact .inl (List.forall_mem_cons.2 ⟨hp, hall⟩)
      · exact .inr ⟨p :: before, q, after, rfl, List.forall_mem_cons.2 ⟨hp, hbefore⟩, hq⟩
    · exact .inr ⟨[], p, params, rfl, by simp, hp⟩

/-- A parameter without a position in range is refused behind ones that have one. -/
theorem inOrder_of_split {before after : List Param} {p : Param}
    (split : params = before ++ p :: after) (earlier : ∀ q ∈ before, IsPlaced params.length q)
    {e : PlacementError} (hp : ∀ rest placed, place params.length (p :: rest) placed = .error e) :
    inOrder params = .error e := by
  have hplace : place params.length (before ++ p :: after) (List.replicate params.length none) =
      .error e := place_append_of_refused earlier hp _
  rw [← split] at hplace
  rw [inOrder, hplace]

/-- Parameters with a reason to refuse them are refused for it. -/
theorem Refused.inOrder_eq {e : PlacementError} (h : Refused params e) :
    inOrder params = .error e := by
  cases h with
  | named split earlier slot =>
    exact inOrder_of_split split earlier fun rest placed => by rw [place, slot]
  | outOfRange split earlier slot range =>
    refine inOrder_of_split split earlier fun rest placed => ?_
    rw [place, slot]
    exact if_neg (by omega)
  | @unbound i placed range missing least =>
    rw [inOrder_of_forall placed]
    rcases exists_map_some_or ((firstSlots params.length).map (valueAt? params)) with
      ⟨values, heq⟩ | ⟨values, rest, heq⟩
    · rw [exists_slot_iff range, heq] at missing
      simp at missing
    · -- The first empty place is that of the least position, so it is neither before nor behind.
      obtain ⟨-, hmissing, hleast⟩ := missing_of_map_eq heq
      have hlength : values.length = i := by
        rcases Nat.lt_trichotomy values.length i with hlt | hlength | hlt
        · exact absurd (least _ hlt) hmissing
        · exact hlength
        · exact absurd (hleast _ hlt) missing
      rw [heq, filled_append_none, hlength, Nat.add_comm]

/-- Parameters fill all positions and are put in order, unless there is a reason to refuse them. -/
theorem exists_inOrder_or_refused (params : List Param) :
    (∃ values, (∀ p ∈ params, IsPlaced params.length p) ∧
      (firstSlots params.length).map (valueAt? params) = values.map some ∧
      inOrder params = .ok values) ∨ ∃ e, Refused params e := by
  rcases forall_isPlaced_or params.length params with hall | ⟨before, p, after, split, earlier, hp⟩
  · rcases exists_map_some_or ((firstSlots params.length).map (valueAt? params)) with
      ⟨values, heq⟩ | ⟨values, rest, heq⟩
    · exact .inl ⟨values, hall, heq, by rw [inOrder_of_forall hall, heq, filled_map_some]⟩
    · obtain ⟨hlt, hmissing, hleast⟩ := missing_of_map_eq heq
      exact .inr ⟨_, .unbound hall hlt hmissing hleast⟩
  · rcases not_isPlaced_iff.1 hp with ⟨token, hslot⟩ | ⟨n, hslot, hrange⟩
    · exact .inr ⟨_, .named split earlier hslot⟩
    · exact .inr ⟨_, .outOfRange split earlier hslot hrange⟩

/-- Parameters are refused exactly for a reason. -/
theorem inOrder_eq_error_iff {e : PlacementError} :
    inOrder params = .error e ↔ Refused params e := by
  refine ⟨fun h => ?_, Refused.inOrder_eq⟩
  rcases exists_inOrder_or_refused params with ⟨values, -, -, hok⟩ | ⟨e', he⟩
  · rw [hok] at h
    cases h
  · have heq := he.inOrder_eq
    rw [h] at heq
    exact Except.error.inj heq ▸ he

/-- Parameters that are put in order have the values read at all positions. -/
theorem map_valueAt?_of_inOrder {values : List WireValue} (h : inOrder params = .ok values) :
    (∀ p ∈ params, IsPlaced params.length p) ∧
      (firstSlots params.length).map (valueAt? params) = values.map some := by
  rcases exists_inOrder_or_refused params with ⟨values', hall, heq, hok⟩ | ⟨e, he⟩
  · rw [h] at hok
    exact ⟨hall, Except.ok.inj hok ▸ heq⟩
  · rw [he.inOrder_eq] at h
    cases h

/-- Parameters are put in order exactly if they are a rearrangement of ones that come in order. -/
theorem inOrder_eq_ok_iff {values : List WireValue} :
    inOrder params = .ok values ↔ params.Perm (consecutive 0 values) := by
  constructor
  · intro h
    obtain ⟨hall, heq⟩ := map_valueAt?_of_inOrder h
    have hlength : params.length = values.length := by simpa using congrArg List.length heq
    -- No position is missing, so none is given twice.
    have hslots : (params.map Param.slot).Perm (firstSlots params.length) := by
      rw [slots_perm_iff_subset]
      intro slot hslot
      have hvalue : valueAt? params slot ∈ values.map some := heq ▸ List.mem_map_of_mem hslot
      obtain ⟨v, -, hv⟩ := List.mem_map.1 hvalue
      obtain ⟨p, hp, rfl⟩ := (isSome_valueAt?_iff slot).1 (Option.isSome_of_eq_some hv.symm)
      exact List.mem_map_of_mem hp
    have hnodup := hslots.nodup_iff.2 (nodup_firstSlots _)
    refine (List.subperm_of_subset hnodup.of_map fun p hp => ?_).perm_of_length_le
      (by simp [hlength])
    obtain ⟨i, hslot, hi⟩ := hall p hp
    have hread : ((firstSlots params.length).map (valueAt? params))[i]? = some (some p.value) := by
      rw [List.getElem?_eq_getElem (by simpa using hi), List.getElem_map, getElem_firstSlots,
        ← hslot, valueAt?_of_mem hnodup hp]
    rw [heq] at hread
    exact mem_consecutive.2 ⟨i, hslot, by simpa using hread⟩
  · intro h
    have hlength : params.length = values.length := by simpa using h.length_eq
    have hslots : (params.map Param.slot).Perm (firstSlots params.length) := by
      simpa [hlength] using h.map Param.slot
    obtain ⟨hall, hnodup⟩ := slots_perm_iff.1 hslots
    have heq : (firstSlots params.length).map (valueAt? params) = values.map some := by
      refine List.ext_getElem (by simp [hlength]) fun i hi hi' => ?_
      have hlt : i < values.length := by simpa using hi'
      have hp : ⟨.position (i + 1), values[i]⟩ ∈ params :=
        h.mem_iff.2 (mem_consecutive.2 ⟨i, rfl, by simp⟩)
      simpa using valueAt?_of_mem hnodup hp
    rw [inOrder_of_forall hall, heq, filled_map_some]

/-- They are put in order exactly if their places are all the positions. -/
theorem exists_inOrder_iff : (∃ values, inOrder params = .ok values) ↔
    (params.map Param.slot).Perm (firstSlots params.length) := by
  constructor
  · rintro ⟨values, h⟩
    have hperm := inOrder_eq_ok_iff.1 h
    have hlength : params.length = values.length := by simpa using hperm.length_eq
    simpa [hlength] using hperm.map Param.slot
  · intro h
    obtain ⟨hall, -⟩ := slots_perm_iff.1 h
    rcases exists_inOrder_or_refused params with ⟨values, -, -, hok⟩ | ⟨e, he⟩
    · exact ⟨values, hok⟩
    · exfalso
      cases he with
      | @named before after p token split earlier slot =>
        exact not_isPlaced_iff.2 (.inl ⟨token, slot⟩) (hall p (by simp [split]))
      | @outOfRange before after p n split earlier slot range =>
        exact not_isPlaced_iff.2 (.inr ⟨n, slot, range⟩) (hall p (by simp [split]))
      | @unbound i placed range missing least =>
        exact missing (List.mem_map.1 (h.mem_iff.2 (mem_firstSlots.2 ⟨i, rfl, range⟩)))

/-- Their places are not all the positions exactly if one is none, or one is given twice. -/
theorem not_slots_perm_iff : ¬ (params.map Param.slot).Perm (firstSlots params.length) ↔
    (∃ p ∈ params, ¬ IsPlaced params.length p) ∨
      ∃ n, 2 ≤ (params.map Param.slot).count (.position n) := by
  rw [slots_perm_iff]
  constructor
  · intro h
    by_cases hall : ∀ p ∈ params, IsPlaced params.length p
    · obtain ⟨slot, hslot⟩ := List.exists_duplicate_iff_not_nodup.2 fun hnodup => h ⟨hall, hnodup⟩
      obtain ⟨i, rfl, -⟩ := mem_firstSlots.1 (forall_isPlaced_iff.1 hall hslot.mem)
      exact .inr ⟨i + 1, List.duplicate_iff_two_le_count.1 hslot⟩
    · exact .inl (by simpa using hall)
  · rintro (⟨p, hp, hnot⟩ | ⟨n, hcount⟩) ⟨hall, hnodup⟩
    · exact hnot (hall p hp)
    · have hle := List.nodup_iff_count_le_one.1 hnodup (.position n)
      omega

/-- Parameters fill the positions from one to their number in whatever order they come. They are put
in order exactly if their places are a rearrangement of these positions; then the values are those
of the parameters, each once, and at each position is the value of the parameter that has it. They
are refused exactly if one of them has a name, a position that is zero or beyond their number, or a
position that another one has too. -/
theorem values_by_position (params : List Param) :
    ((∃ values, inOrder params = .ok values) ↔
      (params.map Param.slot).Perm ((List.range' 1 params.length).map .position)) ∧
    (∀ values, inOrder params = .ok values →
      values.length = params.length ∧ values.Perm (params.map Param.value) ∧
      ∀ i v, values[i]? = some v ↔ ⟨.position (i + 1), v⟩ ∈ params) ∧
    ((∃ e, inOrder params = .error e) ↔
      (∃ p ∈ params, ∃ token, p.slot = .named token) ∨
      (∃ p ∈ params, ∃ n, p.slot = .position n ∧ (n = 0 ∨ params.length < n)) ∨
      ∃ n, 2 ≤ (params.map Param.slot).count (.position n)) := by
  refine ⟨exists_inOrder_iff, fun values h => ?_, ?_⟩
  · have hperm := inOrder_eq_ok_iff.1 h
    refine ⟨by simpa using hperm.length_eq.symm, by simpa using (hperm.map Param.value).symm,
      fun i v => ?_⟩
    rw [hperm.mem_iff, mem_consecutive]
    simp [eq_comm]
  · have hfails : (∃ e, inOrder params = .error e) ↔ ¬ ∃ values, inOrder params = .ok values := by
      cases inOrder params <;> simp
    rw [hfails, exists_inOrder_iff, not_slots_perm_iff]
    simp only [not_isPlaced_iff, and_or_left, exists_or, or_assoc]

/-- Two values for the second position leave the first one without any. -/
example : inOrder [⟨.position 2, .int 5⟩, ⟨.position 2, .int 6⟩] = .error (.unbound 1) := by decide

end

end BoundSql.Postgres
