import BoundSql.Filter
import Mathlib.Data.List.Induction

/-! # Grouping of combined conditions
A filter puts what it has and what is added in parentheses. Read back by matching parentheses, its
expression is the conditions in the order they were added, each joined to all those before it.
* **`Filter.Balanced`** — a text closes every parenthesis it opens and no other.
* **`Filter.split?`** — a text as two texts in parentheses under a connective.
* **`Filter.readBack?`**, **`Filter.evaluate?`** — the conditions of an expression, and its value.
* **`Filter.combined_reads_back`** — what was combined is read back, and nothing else. -/

namespace BoundSql

namespace Filter

/-! ### Parentheses -/

/-- The number of parentheses that are open after text, where `depth` are open before it, unless the
text closes one that is not open. -/
def nesting (depth : Nat) : List Char → Option Nat
  | [] => some depth
  | c :: cs =>
    if c = '(' then nesting (depth + 1) cs
    else if c = ')' then if depth = 0 then none else nesting (depth - 1) cs
    else nesting depth cs

/-- Whether text closes every parenthesis it opens and no other. -/
def Balanced (text : String) : Prop := nesting 0 text.toList = some 0

instance (text : String) : Decidable (Balanced text) :=
  inferInstanceAs (Decidable (nesting 0 text.toList = some 0))

/-- The text up to the parenthesis that closes the one opened right before it, and what follows that
parenthesis. In between `depth` more are open. -/
def beforeClosing? (depth : Nat) : List Char → Option (List Char × List Char)
  | [] => none
  | c :: cs =>
    if c = '(' then (beforeClosing? (depth + 1) cs).map fun r => (c :: r.1, r.2)
    else if c = ')' then
      if depth = 0 then some ([], cs)
      else (beforeClosing? (depth - 1) cs).map fun r => (c :: r.1, r.2)
    else (beforeClosing? depth cs).map fun r => (c :: r.1, r.2)

section Nesting

variable {depth after : Nat} {c : Char} {cs : List Char}

@[simp] theorem nesting_nil : nesting depth [] = some depth := rfl

@[simp] theorem nesting_open : nesting depth ('(' :: cs) = nesting (depth + 1) cs := rfl

@[simp] theorem nesting_close : nesting (depth + 1) (')' :: cs) = nesting depth cs := rfl

theorem nesting_cons (ho : c ≠ '(') (hc : c ≠ ')') :
    nesting depth (c :: cs) = nesting depth cs := by
  rw [nesting, if_neg ho, if_neg hc]

/-- More parentheses may be open before. -/
theorem nesting_add (h : nesting depth cs = some after) (more : Nat) :
    nesting (depth + more) cs = some (after + more) := by
  induction cs generalizing depth with
  | nil =>
    obtain rfl : depth = after := Option.some.inj h
    rfl
  | cons c cs ih =>
    by_cases ho : c = '('
    · subst ho
      rw [nesting_open, Nat.add_right_comm]
      exact ih h
    · by_cases hc : c = ')'
      · subst hc
        cases depth with
        | zero => cases h
        | succ depth =>
          rw [Nat.add_right_comm, nesting_close]
          exact ih h
      · rw [nesting_cons ho hc] at h ⊢
        exact ih h

theorem nesting_append {l r : List Char} {between : Nat} (hl : nesting depth l = some between) :
    nesting depth (l ++ r) = nesting between r := by
  induction l generalizing depth with
  | nil =>
    obtain rfl : depth = between := Option.some.inj hl
    rfl
  | cons c l ih =>
    rw [List.cons_append]
    by_cases ho : c = '('
    · subst ho
      exact ih hl
    · by_cases hc : c = ')'
      · subst hc
        cases depth with
        | zero => cases hl
        | succ depth => exact ih hl
      · rw [nesting_cons ho hc] at hl ⊢
        exact ih hl

/-- A character that is not the closing parenthesis looked for stands inside, and the rest is looked
through at the depth behind it. -/
theorem map_cons_eq_some_iff {more : Nat} {found : Option (List Char × List Char)}
    {inside rest : List Char}
    (hfound : ∀ inside, found = some (inside, rest) ↔
      cs = inside ++ ')' :: rest ∧ nesting more inside = some 0)
    (hnesting : ∀ tail, nesting depth (c :: tail) = nesting more tail) (hc : c = ')' → depth ≠ 0) :
    (found.map fun r => (c :: r.1, r.2)) = some (inside, rest) ↔
      c :: cs = inside ++ ')' :: rest ∧ nesting depth inside = some 0 := by
  rw [Option.map_eq_some_iff]
  constructor
  · rintro ⟨⟨inside', rest'⟩, h, he⟩
    obtain ⟨rfl, rfl⟩ := Prod.mk.inj he
    obtain ⟨rfl, hn⟩ := (hfound inside').1 h
    exact ⟨rfl, (hnesting _).trans hn⟩
  · rintro ⟨he, hn⟩
    cases inside with
    | nil =>
      obtain ⟨rfl, -⟩ := List.cons.inj he
      exact absurd (Option.some.inj hn) (hc rfl)
    | cons c' inside =>
      obtain ⟨rfl, rfl⟩ := List.cons.inj he
      exact ⟨(inside, rest), (hfound inside).2 ⟨rfl, (hnesting _).symm.trans hn⟩, rfl⟩

/-- The closing parenthesis is the first one that text in front of it leaves nothing open for. -/
theorem beforeClosing?_eq_some_iff {inside rest : List Char} :
    beforeClosing? depth cs = some (inside, rest) ↔
      cs = inside ++ ')' :: rest ∧ nesting depth inside = some 0 := by
  induction cs generalizing depth inside with
  | nil => simp [beforeClosing?]
  | cons c cs ih =>
    rw [beforeClosing?]
    by_cases ho : c = '('
    · rw [if_pos ho]
      subst ho
      exact map_cons_eq_some_iff (fun _ => ih) (fun _ => nesting_open) fun h => by cases h
    · rw [if_neg ho]
      by_cases hc : c = ')'
      · rw [if_pos hc]
        subst hc
        -- Only where nothing else is open is this the closing parenthesis looked for.
        cases depth with
        | succ depth =>
          rw [if_neg (Nat.succ_ne_zero depth)]
          exact map_cons_eq_some_iff (fun _ => ih) (fun _ => nesting_close) fun _ =>
            Nat.succ_ne_zero depth
        | zero =>
          rw [if_pos rfl]
          constructor
          · intro h
            obtain ⟨rfl, rfl⟩ := Prod.mk.inj (Option.some.inj h)
            exact ⟨rfl, rfl⟩
          · rintro ⟨he, hn⟩
            cases inside with
            | nil =>
              obtain ⟨-, rfl⟩ := List.cons.inj he
              rfl
            | cons c' inside =>
              obtain ⟨rfl, -⟩ := List.cons.inj he
              cases hn
      · rw [if_neg hc]
        exact map_cons_eq_some_iff (fun _ => ih) (fun _ => nesting_cons ho hc) fun h => absurd h hc

end Nesting

/-! ### Reading an expression back -/

/-- The connective between a closing and an opening parenthesis, and what follows the latter. -/
def connective? : List Char → Option (Connective × List Char)
  | ' ' :: 'A' :: 'N' :: 'D' :: ' ' :: '(' :: rest => some (.and, rest)
  | ' ' :: 'O' :: 'R' :: ' ' :: '(' :: rest => some (.or, rest)
  | _ => none

theorem connective?_eq_some_iff {cs rest : List Char} {op : Connective} :
    connective? cs = some (op, rest) ↔ cs = ' ' :: (op.keyword.toList ++ ' ' :: '(' :: rest) := by
  constructor
  · intro h
    rw [connective?.eq_def] at h
    split at h
    · obtain ⟨rfl, rfl⟩ := Prod.mk.inj (Option.some.inj h)
      rfl
    · obtain ⟨rfl, rfl⟩ := Prod.mk.inj (Option.some.inj h)
      rfl
    · cases h
  · rintro rfl
    cases op <;> rfl

/-- Two texts under a connective, each in parentheses. -/
def grouped (left : String) (op : Connective) (right : String) : String :=
  "(" ++ left ++ ") " ++ op.keyword ++ " (" ++ right ++ ")"

/-- A text as two texts under a connective, each in parentheses that match each other. -/
def split? (text : String) : Option (String × Connective × String) :=
  match text.toList with
  | '(' :: cs =>
    match beforeClosing? 0 cs with
    | none => none
    | some (left, cs) =>
      match connective? cs with
      | none => none
      | some (op, cs) =>
        match beforeClosing? 0 cs with
        | some (right, []) => some (String.ofList left, op, String.ofList right)
        | _ => none
  | _ => none

theorem toList_grouped (left : String) (op : Connective) (right : String) :
    (grouped left op right).toList = '(' :: (left.toList ++ ')' :: ' ' ::
      (op.keyword.toList ++ ' ' :: '(' :: (right.toList ++ [')']))) := by
  simp [grouped]

/-- A text is split exactly as two balanced texts were put together. -/
theorem split?_eq_some_iff {text left right : String} {op : Connective} :
    split? text = some (left, op, right) ↔
      text = grouped left op right ∧ Balanced left ∧ Balanced right := by
  constructor
  · intro h
    rw [split?] at h
    -- Every step of the splitting undoes one of the putting together.
    split at h
    · rename_i cs htext
      split at h
      · cases h
      · rename_i l cs₁ hl
        split at h
        · cases h
        · rename_i op' cs₂ hop
          split at h
          · rename_i r hr
            obtain ⟨rfl, hrest⟩ := Prod.mk.inj (Option.some.inj h)
            obtain ⟨rfl, rfl⟩ := Prod.mk.inj hrest
            obtain ⟨rfl, hbl⟩ := beforeClosing?_eq_some_iff.1 hl
            obtain rfl := connective?_eq_some_iff.1 hop
            obtain ⟨rfl, hbr⟩ := beforeClosing?_eq_some_iff.1 hr
            refine ⟨String.toList_injective ?_, ?_, ?_⟩
            · rw [htext, toList_grouped, String.toList_ofList, String.toList_ofList]
            · rwa [Balanced, String.toList_ofList]
            · rwa [Balanced, String.toList_ofList]
          · cases h
    · cases h
  · rintro ⟨rfl, hl, hr⟩
    have hleft : ∀ rest, beforeClosing? 0 (left.toList ++ ')' :: rest) =
        some (left.toList, rest) := fun rest => beforeClosing?_eq_some_iff.2 ⟨rfl, hl⟩
    have hright : beforeClosing? 0 (right.toList ++ [')']) = some (right.toList, []) :=
      beforeClosing?_eq_some_iff.2 ⟨rfl, hr⟩
    rw [split?, toList_grouped]
    simp only [hleft, connective?_eq_some_iff.2 rfl, hright, String.ofList_toList]

/-- Balanced texts that are grouped are balanced. -/
theorem Balanced.grouped {left right : String} (hl : Balanced left) (hr : Balanced right)
    (op : Connective) : Balanced (grouped left op right) := by
  have hl : nesting 1 left.toList = some 1 := nesting_add hl 1
  have hr : nesting 1 right.toList = some 1 := nesting_add hr 1
  rw [Balanced, toList_grouped, nesting_open, nesting_append hl, nesting_close]
  cases op <;> exact nesting_append hr

/-- A text with others added to it, each under its connective. -/
def chained (first : String) (steps : List (Connective × String)) : String :=
  steps.foldl (fun text step => grouped text step.1 step.2) first

/-- The text and the steps that a text is read back as when it is split a number of times. -/
def readBack? : Nat → String → Option (String × List (Connective × String))
  | 0, text => some (text, [])
  | n + 1, text =>
    match split? text with
    | none => none
    | some (left, op, right) => (readBack? n left).map fun r => (r.1, r.2 ++ [(op, right)])

section Value

variable {α : Type} (meaning : Connective → α → α → α) (value : Nat → String → α)

/-- The value of a text that is split a number of times, where connectives have a meaning and every
part has a value that may depend on its number. -/
def evaluate? : Nat → String → Option α
  | 0, text => some (value 0 text)
  | n + 1, text =>
    match split? text with
    | none => none
    | some (left, op, right) =>
      (evaluate? n left).map fun before => meaning op before (value (n + 1) right)

/-- The value of a text with steps: each step is taken on the value of all before it. -/
def leftFold (first : String) (steps : List (Connective × String)) : α :=
  (steps.zipIdx 1).foldl (fun before s => meaning s.1.1 before (value s.2 s.1.2)) (value 0 first)

theorem leftFold_concat (first : String) (steps : List (Connective × String))
    (step : Connective × String) : leftFold meaning value first (steps ++ [step]) =
      meaning step.1 (leftFold meaning value first steps) (value (steps.length + 1) step.2) := by
  rw [leftFold, List.zipIdx_append, List.foldl_append, Nat.add_comm 1]
  rfl

end Value

section Chained

variable {first : String} {steps : List (Connective × String)}

theorem chained_concat (first : String) (steps : List (Connective × String))
    (step : Connective × String) :
    chained first (steps ++ [step]) = grouped (chained first steps) step.1 step.2 := by
  rw [chained, List.foldl_append]
  rfl

/-- Balanced steps on a balanced text make a balanced text. -/
theorem Balanced.chained (hf : Balanced first) (hs : ∀ s ∈ steps, Balanced s.2) :
    Balanced (chained first steps) := by
  induction steps using List.reverseRecOn with
  | nil => exact hf
  | append_singleton steps step ih =>
    rw [chained_concat]
    exact (ih fun s h => hs s (List.mem_append_left _ h)).grouped (hs step (by simp)) _

/-- What is split last is the step that was taken last. -/
theorem split?_chained_concat {step : Connective × String} (hf : Balanced first)
    (hs : ∀ s ∈ steps ++ [step], Balanced s.2) :
    split? (Filter.chained first (steps ++ [step])) =
      some (Filter.chained first steps, step.1, step.2) := by
  rw [chained_concat]
  exact split?_eq_some_iff.2 ⟨rfl, hf.chained fun s h => hs s (List.mem_append_left _ h),
    hs step (by simp)⟩

/-- Steps are read back. -/
theorem readBack?_chained (hf : Balanced first) (hs : ∀ s ∈ steps, Balanced s.2) :
    readBack? steps.length (Filter.chained first steps) = some (first, steps) := by
  induction steps using List.reverseRecOn with
  | nil => rfl
  | append_singleton steps step ih =>
    have hbefore := ih fun s h => hs s (List.mem_append_left _ h)
    rw [List.length_append, List.length_singleton, readBack?, split?_chained_concat hf hs]
    simp only [hbefore, Option.map_some]

/-- The value of a text with steps is that of its steps, taken from the left. -/
theorem evaluate?_chained {α : Type} (meaning : Connective → α → α → α) (value : Nat → String → α)
    (hf : Balanced first) (hs : ∀ s ∈ steps, Balanced s.2) :
    evaluate? meaning value steps.length (Filter.chained first steps) =
      some (leftFold meaning value first steps) := by
  induction steps using List.reverseRecOn with
  | nil => rfl
  | append_singleton steps step ih =>
    have hbefore := ih fun s h => hs s (List.mem_append_left _ h)
    rw [List.length_append, List.length_singleton, evaluate?, split?_chained_concat hf hs]
    simp only [hbefore, Option.map_some, leftFold_concat]

end Chained

/-! ### Conditions one after another -/

/-- The filter after conditions are combined with it, one after another. -/
def combineAll (f : Filter) (calls : List (Connective × Condition)) : Filter :=
  calls.foldl (fun f call => f.combine call.1 call.2) f

/-- The expressions that conditions add, with their connectives: all but the empty ones. -/
def fragments (calls : List (Connective × Condition)) : List (Connective × String) :=
  (calls.filter fun call => !call.2.expr.isEmpty).map fun call => (call.1, call.2.expr)

variable {f : Filter} {calls : List (Connective × Condition)}

@[simp] theorem joinExpr_empty_left (op : Connective) (added : String) :
    joinExpr op "" added = added := rfl

@[simp] theorem joinExpr_empty_right (op : Connective) (current : String) :
    joinExpr op current "" = current := by
  rw [joinExpr]
  by_cases h : current.isEmpty = true
  · rw [if_pos h, String.isEmpty_iff.1 h]
  · rw [if_neg h, if_pos (String.isEmpty_iff.2 rfl)]

/-- Two expressions that are not empty are grouped. -/
theorem joinExpr_of_ne_empty {current added : String} (hc : current ≠ "") (ha : added ≠ "")
    (op : Connective) : joinExpr op current added = grouped current op added := by
  rw [joinExpr, if_neg (mt String.isEmpty_iff.1 hc), if_neg (mt String.isEmpty_iff.1 ha), grouped]

/-- A condition without an expression changes the values and their categories only. -/
theorem combine_of_expr_eq_empty {c : Condition} (h : c.expr = "") (f : Filter) (op : Connective) :
    f.combine op c = f.absorb c := by
  rw [combine, h, joinExpr_empty_right]
  rfl

theorem grouped_ne_empty (left : String) (op : Connective) (right : String) :
    grouped left op right ≠ "" := by
  intro h
  have htext := congrArg String.toList h
  rw [toList_grouped] at htext
  cases htext

/-- The expression of a filter is the steps of its conditions on the one it had. -/
theorem expr_combineAll (hf : f.expr ≠ "") (calls : List (Connective × Condition)) :
    (f.combineAll calls).expr = chained f.expr (fragments calls) := by
  induction calls generalizing f with
  | nil => rfl
  | cons call calls ih =>
    rw [combineAll, List.foldl_cons]
    by_cases hc : call.2.expr = ""
    · have hsame : (f.combine call.1 call.2).expr = f.expr := by
        rw [combine_of_expr_eq_empty hc]
        rfl
      have hfragments : fragments (call :: calls) = fragments calls := by
        simp [fragments, hc]
      rw [hfragments, ← hsame]
      exact ih (hsame ▸ hf)
    · have hgrouped : (f.combine call.1 call.2).expr = grouped f.expr call.1 call.2.expr :=
        joinExpr_of_ne_empty hf hc call.1
      have hfragments : fragments (call :: calls) =
          (call.1, call.2.expr) :: fragments calls := by
        simp [fragments, hc]
      have hne : (f.combine call.1 call.2).expr ≠ "" := hgrouped ▸ grouped_ne_empty _ _ _
      rw [hfragments, chained, List.foldl_cons, ← hgrouped]
      exact ih hne

/-- Conditions change the values and their categories by merging their own, in order, and generate
no name. -/
theorem binds_combineAll (f : Filter) (calls : List (Connective × Condition)) :
    (f.combineAll calls).binds = calls.foldl (fun m call => m.merge call.2.binds) f.binds ∧
      (f.combineAll calls).types = calls.foldl (fun m call => m.merge call.2.types) f.types ∧
      (f.combineAll calls).generated = f.generated := by
  induction calls generalizing f with
  | nil => exact ⟨rfl, rfl, rfl⟩
  | cons call calls ih => exact ih (f.combine call.1 call.2)

/-- Balanced conditions combined with a balanced expression are read back as the conditions in the
order they were added, each joined to all before it, and no other balanced ones make the same text
in as many steps. So the value of the expression is the left fold, whatever the connectives mean and
whatever values its parts have. Conditions without an expression add values and categories only. -/
theorem combined_reads_back (hfirst : f.expr ≠ "") (hf : Balanced f.expr)
    (hcalls : ∀ call ∈ calls, Balanced call.2.expr) :
    let g := f.combineAll calls
    let added := fragments calls
    readBack? added.length g.expr = some (f.expr, added) ∧
      (∀ first others, others.length = added.length → Balanced first →
        (∀ s ∈ others, Balanced s.2) → chained first others = g.expr →
          first = f.expr ∧ others = added) ∧
      (∀ (α : Type) (meaning : Connective → α → α → α) (value : Nat → String → α),
        evaluate? meaning value added.length g.expr =
          some (leftFold meaning value f.expr added)) ∧
      g.binds = calls.foldl (fun m call => m.merge call.2.binds) f.binds ∧
      g.types = calls.foldl (fun m call => m.merge call.2.types) f.types ∧
      g.generated = f.generated ∧
      ∀ (h : Filter) (op : Connective) (c : Condition), c.expr = "" →
        h.combine op c = h.absorb c := by
  intro g added
  have hexpr : g.expr = chained f.expr added := expr_combineAll hfirst calls
  have hadded : ∀ s ∈ added, Balanced s.2 := by
    intro s hs
    obtain ⟨call, hcall, rfl⟩ := List.mem_map.1 hs
    exact hcalls call (List.mem_filter.1 hcall).1
  have hread : readBack? added.length g.expr = some (f.expr, added) := by
    rw [hexpr]
    exact readBack?_chained hf hadded
  obtain ⟨hbinds, htypes, hgenerated⟩ := binds_combineAll f calls
  refine ⟨hread, ?_, fun α meaning value => ?_, hbinds, htypes, hgenerated,
    fun h op c hc => combine_of_expr_eq_empty hc h op⟩
  · -- Whatever makes the text is what it is read back as.
    intro first others hlength hfirst' hothers hsame
    have hother := readBack?_chained hfirst' hothers
    rw [hsame, hlength, hread] at hother
    obtain ⟨rfl, rfl⟩ := Prod.mk.inj (Option.some.inj hother)
    exact ⟨rfl, rfl⟩
  · rw [hexpr]
    exact evaluate?_chained meaning value hf hadded

/-- Conditions that contain connectives themselves, and one that is empty. -/
theorem combined_reads_back_nested :
    let f : Filter := { expr := "a = 1 OR b = 2" }
    let calls : List (Connective × Condition) :=
      [(.and, .ofExpr "c IN (3, 4) OR d = 5"), (.or, (Condition.ofExpr "").bind "x" (.int 6)),
        (.or, .ofExpr "(e = 7) AND (f = 8)")]
    let g := f.combineAll calls
    g.expr = "((a = 1 OR b = 2) AND (c IN (3, 4) OR d = 5)) OR ((e = 7) AND (f = 8))" ∧
      readBack? 2 g.expr = some ("a = 1 OR b = 2",
        [(.and, "c IN (3, 4) OR d = 5"), (.or, "(e = 7) AND (f = 8)")]) := by
  intro f calls g
  have hcalls : ∀ call ∈ calls, Balanced call.2.expr := by decide +kernel
  exact ⟨by decide +kernel,
    (combined_reads_back (f := f) (by decide) (by decide +kernel) hcalls).1⟩

end Filter

end BoundSql
