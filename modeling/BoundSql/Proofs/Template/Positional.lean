import BoundSql.Proofs.Template.Composed

/-! # Templates with positional parameters
Where all parameters are positional, a text refers to them by its question marks, in order.
* **`Template.positionalText`**, **`Rendering.sql_of_isPositional`** — the native text of a template
  segment by segment.
* **`Rendering.exists_run_iff_of_isPositional`** — and when there is any: a position is bound for
  every question mark. -/

namespace BoundSql

namespace Template

variable {d : Dialect} {identifier : String → String}

/-- Whether a segment has native text where parameters are positional and bound: a bracket is closed
and not blank, and there are no named placeholders. -/
def Segment.IsUnnamed : Segment → Prop
  | bracket inner => Text.trim inner ≠ []
  | unclosed _ => False
  | placeholder _ => False
  | _ => True

theorem isUnnamed_of_mem_verbatim {text : String} {s : Segment} (h : s ∈ verbatim text) :
    s.IsUnnamed := by
  obtain ⟨c, -, rfl⟩ := List.mem_map.1 h
  trivial

/-- Text that stands for itself asks for nothing. -/
theorem questions_verbatim (text : String) : questions (verbatim text) = 0 := by
  rw [questions, List.count_eq_zero]
  intro h
  obtain ⟨c, -, hc⟩ := List.mem_map.1 h
  cases hc

/-- Question marks refer to the positions from the first that was not asked for on. -/
theorem referencesFrom_of_isUnnamed {segs : List Segment} (h : ∀ s ∈ segs, s.IsUnnamed)
    (asked : ℕ) :
    referencesFrom true asked segs = (List.range' asked (questions segs)).map .index := by
  induction segs generalizing asked with
  | nil => rfl
  | cons s rest ih =>
    obtain ⟨hs, hrest⟩ := List.forall_mem_cons.1 h
    have hq : questions (s :: rest) = questions [s] + questions rest := questions_append [s] rest
    rw [referencesFrom, ih hrest, hq, ← List.range'_append_1, List.map_append]
    cases s <;> first | rfl | exact hs.elim

/-! ### Native text -/

/-- The native text of a segment, where brackets stand for identifiers, parameters are positional
and `asked` question marks stand before it. -/
def Segment.positionalText (d : Dialect) (identifier : String → String) (asked : ℕ) :
    Segment → String
  | bracket inner => identifier (String.ofList (Text.trim inner))
  | question => d.positionalToken asked
  | s => String.ofList s.source

/-- The native text of segments, where brackets stand for identifiers, parameters are positional and
`asked` question marks stand before them. -/
def positionalText (d : Dialect) (identifier : String → String) (asked : ℕ) :
    List Segment → String
  | [] => ""
  | s :: rest =>
    s.positionalText d identifier asked ++
      positionalText d identifier (asked + questions [s]) rest

theorem positionalText_append (asked : ℕ) (l r : List Segment) :
    positionalText d identifier asked (l ++ r) =
      positionalText d identifier asked l ++
        positionalText d identifier (asked + questions l) r := by
  induction l generalizing asked with
  | nil =>
    rw [List.nil_append, positionalText, String.empty_append]
    rfl
  | cons s l ih =>
    have hq : questions (s :: l) = questions [s] + questions l := questions_append [s] l
    rw [List.cons_append, positionalText, ih, positionalText, hq, String.append_assoc,
      Nat.add_assoc]

/-- Text that stands for itself is its own native text. -/
theorem positionalText_verbatim (asked : ℕ) (text : String) :
    positionalText d identifier asked (verbatim text) = text := by
  have hchars : ∀ cs : List Char,
      positionalText d identifier asked (cs.map .plain) = String.ofList cs := by
    intro cs
    induction cs with
    | nil => rfl
    | cons c cs ih =>
      have hplain : (Segment.plain c).positionalText d identifier asked = String.ofList [c] := rfl
      have hasked : asked + questions [.plain c] = asked := rfl
      rw [List.map_cons, positionalText, hasked, ih, hplain, ← String.ofList_append,
        List.singleton_append]
  rw [verbatim, hchars, String.ofList_toList]

end Template

/-- A position is its own place among the positions from zero on. -/
theorem idxOf_eraseDups_index {n i : ℕ} (h : i < n) :
    ((List.range n).map BindKey.index).eraseDups.idxOf (.index i) = i := by
  have hnodup : ((List.range n).map BindKey.index).Nodup :=
    List.nodup_range.map fun i j hij => BindKey.index.inj hij
  have hget := hnodup.idxOf_getElem i (by simpa using h)
  rw [List.getElem_map, List.getElem_range] at hget
  rw [eraseDups_eq_self hnodup, hget]

/-- Positions are numbered by themselves. -/
theorem Dialect.token_index (d : Dialect) {n i : ℕ} (h : i < n) :
    d.token ((List.range n).map .index) (.index i) = d.positionalToken i := by
  cases d with
  | mysql => rfl
  | postgres =>
    rw [token, idxOf_eraseDups_index h]
    rfl

namespace Rendering

open Template

variable {t : Rendering}

section

variable (hp : t.binds.isPositional = true)
include hp

/-- A segment behind others becomes its native text. -/
theorem image_of_isPositional {before : List Segment} {s : Segment}
    (h : ∀ s' ∈ before ++ [s], s'.IsUnnamed) :
    t.image before s = s.positionalText t.dialect t.identifier (questions before) := by
  cases s with
  | placeholder name => exact absurd (h (.placeholder name) (by simp)) id
  | question =>
    have href : Segment.question.reference? t.binds.isPositional (questions before) =
        some (.index (questions before)) := by
      rw [hp]
      rfl
    have hasked : questions (before ++ [.question]) = questions before + 1 :=
      questions_append before [.question]
    rw [image_of_reference href, referencesOf, hp, references, referencesFrom_of_isUnnamed h,
      hasked, ← List.range_eq_range', t.dialect.token_index (Nat.lt_succ_self _)]
    rfl
  | bracket inner => rfl
  | literal text | quoted text | unclosed rest | plain c => rfl

/-- No segment is at fault exactly if none is named or malformed and a position is bound for every
question mark. -/
theorem faultFree_iff_of_isPositional (before after : List Segment) :
    t.FaultFree before after ↔ (∀ s ∈ after, s.IsUnnamed) ∧
      ∀ i < questions after, .index (questions before + i) ∈ t.binds.keys := by
  have hfault : ∀ (before : List Segment) (s : Segment), t.fault? before s = none ↔
      s.IsUnnamed ∧ ∀ i < questions [s], .index (questions before + i) ∈ t.binds.keys := by
    intro before s
    cases s <;> simp [fault?, Segment.IsUnnamed, questions, hp]
  induction after generalizing before with
  | nil => simp [FaultFree, questions]
  | cons s rest ih =>
    have hq : questions (s :: rest) = questions [s] + questions rest := questions_append [s] rest
    have hb : questions (before ++ [s]) = questions before + questions [s] :=
      questions_append before [s]
    have hlater := ih (before ++ [s])
    rw [hb] at hlater
    rw [hq, List.forall_mem_cons]
    constructor
    · rintro ⟨hfirst, hfree⟩
      obtain ⟨hs, hfirst⟩ := (hfault before s).1 hfirst
      obtain ⟨hrest, hothers⟩ := hlater.1 hfree
      refine ⟨⟨hs, hrest⟩, fun i hi => ?_⟩
      -- A position is asked for by the first segment or by one of the others.
      by_cases hlt : i < questions [s]
      · exact hfirst i hlt
      · have hkey := hothers (i - questions [s]) (by omega)
        rwa [Nat.add_assoc, Nat.add_sub_cancel' (Nat.le_of_not_lt hlt)] at hkey
    · rintro ⟨⟨hs, hrest⟩, hall⟩
      refine ⟨(hfault before s).2 ⟨hs, fun i hi => hall i (by omega)⟩,
        hlater.2 ⟨hrest, fun i hi => ?_⟩⟩
      rw [Nat.add_assoc]
      exact hall _ (by omega)

/-- With positional parameters, a template has native text exactly if no segment is named or
malformed and a position is bound for every question mark. -/
theorem exists_run_iff_of_isPositional : (∃ native, t.run = .ok native) ↔
    (∀ s ∈ t.source, s.IsUnnamed) ∧ ∀ i < questions t.source, .index i ∈ t.binds.keys := by
  have hfree := faultFree_iff_of_isPositional hp [] t.source
  have hzero : ∀ i, questions [] + i = i := Nat.zero_add
  simp only [hzero] at hfree
  rw [← hfree]
  constructor
  · rintro ⟨native, h⟩
    exact faultFree_of_run_eq_ok h
  · intro h
    obtain ⟨n, -, hrun⟩ := run_of_faultFree h
    exact ⟨_, hrun⟩

/-- With positional parameters, the native text of a template. -/
theorem sql_of_isPositional {native : Native} (h : t.run = .ok native) :
    native.sql = positionalText t.dialect t.identifier 0 t.source := by
  have himages : ∀ before after : List Segment, (∀ s ∈ before ++ after, s.IsUnnamed) →
      String.join (t.images before after) =
        positionalText t.dialect t.identifier (questions before) after := by
    intro before after
    induction after generalizing before with
    | nil => exact fun _ => rfl
    | cons s rest ih =>
      intro hall
      have hb : questions (before ++ [s]) = questions before + questions [s] :=
        questions_append before [s]
      rw [List.append_cons] at hall
      rw [images, String.join_cons, ih _ hall, positionalText, hb,
        image_of_isPositional hp fun s' hs' => hall s' (List.mem_append_left _ hs')]
  exact (sql_eq_join_images h).trans
    (himages [] t.source ((exists_run_iff_of_isPositional hp).1 ⟨_, h⟩).1)

end

end Rendering

end BoundSql
