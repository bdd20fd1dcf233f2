import BoundSql.Postgres.Placement

/-! # Parameters that come in the order of their positions
**`inOrder_consecutive`** — values bound to the positions from one on, in this order, are returned
as they are. -/

namespace BoundSql.Postgres

/-- The parameters that bind values to the positions after `first`, in order. -/
def consecutive (first : Nat) (values : List WireValue) : List Param :=
  values.mapIdx fun j w => ⟨.position (first + j + 1), w⟩

theorem consecutive_cons (first : Nat) (w : WireValue) (ws : List WireValue) :
    consecutive first (w :: ws) = ⟨.position (first + 1), w⟩ :: consecutive (first + 1) ws := by
  simp [consecutive, List.mapIdx_cons, Nat.add_comm, Nat.add_left_comm]

@[simp] theorem length_consecutive (first : Nat) (values : List WireValue) :
    (consecutive first values).length = values.length := List.length_mapIdx

/-- Where the first places are filled, placing the next values fills the others. -/
theorem place_consecutive (done values : List WireValue) :
    place (done.length + values.length) (consecutive done.length values)
        (done.map some ++ List.replicate values.length none) =
      .ok ((done ++ values).map some) := by
  induction values generalizing done with
  | nil => simp [consecutive, place]
  | cons w ws ih =>
    have hin : 1 ≤ done.length + 1 ∧ done.length + 1 ≤ done.length + (w :: ws).length := by
      simp only [List.length_cons]
      omega
    -- The next value goes to the first place that is empty.
    have hset : (done.map some ++ List.replicate (w :: ws).length none).set
        (done.length + 1 - 1) (some w) =
        (done ++ [w]).map some ++ List.replicate ws.length none := by
      simp [List.replicate_succ]
    -- Counting it among the values that are placed gives back the shape of the statement.
    have hnext := ih (done ++ [w])
    rw [List.length_append, List.length_singleton, Nat.add_assoc, Nat.add_comm 1,
      List.append_assoc] at hnext
    rw [consecutive_cons, place]
    simp only [if_pos hin, hset]
    exact hnext

/-- Places that are all filled hold the values in order. -/
theorem filled_map_some (next : Nat) (values : List WireValue) :
    filled next (values.map some) = .ok values := by
  induction values generalizing next with
  | nil => rfl
  | cons w ws ih => rw [List.map_cons, filled, ih]

/-- Values bound to the positions from one on come out in their order. -/
theorem inOrder_consecutive (values : List WireValue) :
    inOrder (consecutive 0 values) = .ok values := by
  have h := place_consecutive [] values
  simp only [List.length_nil, Nat.zero_add, List.map_nil, List.nil_append] at h
  rw [inOrder, length_consecutive, h]
  exact filled_map_some 1 values

end BoundSql.Postgres
