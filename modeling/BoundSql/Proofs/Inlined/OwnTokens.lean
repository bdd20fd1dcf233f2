import BoundSql.Proofs.Inlined.Substitution
import BoundSql.Proofs.Session.Run

/-! # Tokens of the other dialect
A dialect has tokens of its own; the others are operators or parts of names to its servers.
* **`head?_literal`** — no literal begins like a token.
* **`substitute_eq_iff`** — substitution of fewer tokens gives the same text exactly if none of
  those left out carries a value.
* **`own_tokens_change_iff`** — inlining changes tokens of the dialect only, exactly if no token of
  the other dialect carries a value. -/

namespace BoundSql.Inlined

/-- Whether a piece is a bind token of a dialect. -/
def Piece.isTokenOf (d : Dialect) : Piece → Bool
  | question => d == .mysql
  | numbered _ => d == .postgres
  | named _ => d == .mysql
  | _ => false

/-- A piece that carries a value is a token. -/
theorem Piece.Carries.isToken {params : List Param} {before : List Piece} {p : Piece}
    {v : WireValue} (h : p.Carries params before v) : p.isToken = true := by
  obtain ⟨slot, hslot, -⟩ := h
  cases p with
  | question | numbered _ | named _ => rfl
  | literal _ | quoted _ | plain _ => exact hslot.elim

/-- The marks that tokens begin with. -/
def tokenMarks : List Char := ['?', '$', ':']

theorem Piece.head?_source {p : Piece} (h : p.isToken = true) :
    ∃ c ∈ tokenMarks, p.source.head? = some c := by
  cases p with
  | question => exact ⟨'?', by decide, rfl⟩
  | numbered digits => exact ⟨'$', by decide, rfl⟩
  | named name => exact ⟨':', by decide, rfl⟩
  | literal _ | quoted _ | plain _ => cases h

/-- Literals begin with a quote, a sign, a digit or a letter. -/
theorem head?_literal (d : Dialect) (max : Option Nat) (v : WireValue) :
    ∃ c ∉ tokenMarks, (v.literal d max).toList.head? = some c := by
  -- A numeral is not empty, and has digits only.
  have hnumeral : ∀ n : Nat, ∃ c ∉ tokenMarks, (Nat.toDigits 10 n).head? = some c := by
    intro n
    obtain ⟨c, cs, hdigits⟩ :=
      List.exists_cons_of_ne_nil (Nat.toDigits_ne_nil : Nat.toDigits 10 n ≠ [])
    have hc : c.isDigit = true :=
      Nat.isDigit_of_mem_toDigits (by decide) (by decide) (hdigits ▸ List.mem_cons_self)
    refine ⟨c, fun hmark => ?_, by rw [hdigits]; rfl⟩
    simp only [tokenMarks, List.mem_cons, List.not_mem_nil, or_false] at hmark
    rcases hmark with rfl | rfl | rfl <;> exact absurd hc (by decide)
  cases v with
  | str s =>
    exact ⟨'\'', by decide, by simp [WireValue.literal, Dialect.quoteString, Dialect.quoteChars]⟩
  | int n =>
    cases hn : n.toInt with
    | ofNat m =>
      obtain ⟨c, hc, hhead⟩ := hnumeral m
      exact ⟨c, hc, by rw [WireValue.literal, hn]; simpa [Int.repr, Nat.repr, toString] using hhead⟩
    | negSucc m => exact ⟨'-', by decide, by rw [WireValue.literal, hn]; simp [Int.repr, toString]⟩
  | bool b =>
    cases b with
    | false => exact ⟨'0', by decide, by simp [WireValue.literal, WireValue.digit]⟩
    | true => exact ⟨'1', by decide, by simp [WireValue.literal, WireValue.digit]⟩
  | null => exact ⟨'N', by decide, by simp [WireValue.literal]⟩

section

variable {d : Dialect} {max : Option Nat} {params : List Param} {before : List Piece}

/-- What replaces a token begins otherwise than the token. -/
theorem literal_append_ne {p : Piece} (h : p.isToken = true) (v : WireValue) (shown kept : String) :
    v.literal d max ++ shown ≠ String.ofList p.source ++ kept := by
  intro heq
  obtain ⟨c, hc, hsource⟩ := p.head?_source h
  obtain ⟨c', hc', hliteral⟩ := head?_literal d max v
  have hhead := congrArg (fun s : String => s.toList.head?) heq
  simp only [String.toList_append, String.toList_ofList, List.head?_append, hsource, hliteral,
    Option.some_or] at hhead
  obtain rfl := Option.some.inj hhead
  exact hc' hc

/-- Substitution of fewer tokens gives the same text exactly if none of those left out carries a
value. -/
theorem substitute_eq_iff {tokens : Piece → Bool} {pieces : List Piece} :
    substitute d max params Piece.isToken before pieces =
        substitute d max params tokens before pieces ↔
      ∀ front p back, pieces = front ++ p :: back → tokens p = false →
        ∀ v, ¬ p.Carries params (before ++ front) v := by
  -- The first place where the two differ decides, as no literal begins like a token.
  induction pieces generalizing before with
  | nil => simp [substitute]
  | cons p rest ih =>
    rw [substitute, substitute]
    by_cases hfree : tokens p = false → ∀ v, ¬ p.Carries params before v
    · -- Both write the same for the first piece, so all depends on the rest.
      have hfirst : p.substitute d max params Piece.isToken before =
          p.substitute d max params tokens before := by
        by_cases hv : ∃ v, p.Carries params before v
        · obtain ⟨v, hv⟩ := hv
          have htoken : tokens p = true := by
            by_contra hne
            exact hfree (by simpa using hne) v hv
          rw [Piece.substitute_of_carries hv.isToken hv, Piece.substitute_of_carries htoken hv]
        · have hnone : ∀ v, ¬ p.Carries params before v := fun v hc => hv ⟨v, hc⟩
          rw [Piece.substitute_of_free fun _ => hnone, Piece.substitute_of_free fun _ => hnone]
      rw [hfirst, String.append_right_inj, ih]
      constructor
      · intro hrest front q back heq hq
        cases front with
        | nil =>
          obtain ⟨rfl, -⟩ := List.cons.inj heq
          simpa using hfree hq
        | cons q' front =>
          obtain ⟨rfl, hback⟩ := List.cons.inj heq
          simpa using hrest front q back hback hq
      · intro hall front q back heq hq
        simpa using hall (p :: front) q back (by rw [heq]; rfl) hq
    · -- A token left out is replaced on one side only.
      obtain ⟨htoken, v, hv⟩ : tokens p = false ∧ ∃ v, p.Carries params before v := by
        simpa using hfree
      rw [Piece.substitute_of_carries hv.isToken hv,
        Piece.substitute_of_free fun ht => by rw [htoken] at ht; cases ht]
      refine iff_of_false (literal_append_ne hv.isToken v _ _) fun hall => ?_
      exact hall [] p rest rfl htoken v (by simpa using hv)

end

/-- When inlining changes tokens of the dialect only. The text has exactly one reading, and what is
shown is its text with the dialect's own tokens substituted and everything else kept, exactly if no
token of the other dialect stands for a parameter that is given. -/
theorem own_tokens_change_iff (d : Dialect) (max : Option Nat) (params : List Param)
    (sql : String) :
    ∃ pieces : List Piece,
      (∀ pieces', Reads d none sql.toList pieces' ↔ pieces' = pieces) ∧
      (Substituted d max params (Piece.isTokenOf d) [] pieces (inlined d max params sql) ↔
        ∀ before p after, pieces = before ++ p :: after → p.isTokenOf d = false →
          ∀ v, ¬ p.Carries params before v) := by
  obtain ⟨pieces, hpieces⟩ := exists_unique_reads d none sql.toList
  refine ⟨pieces, hpieces, ?_⟩
  rw [substituted_iff, ((hpieces pieces).2 rfl).inlined_eq, substitute_eq_iff]
  simp only [List.nil_append]

/-- A question mark is an operator of the other dialect, whose parameters are numbered. -/
theorem operator_changes :
    let sql := "SELECT tags ? 'a' FROM t WHERE id = $1"
    let binds := OrderedMap.ofList [(.index 0, .int 5)]
    let r := (Script.engine .postgres).perform (.query sql binds OrderedMap.empty) (Script.start {})
    let shown := r.2.session.inlinedSql .postgres none
    r.2.session.lastSql = sql ∧ shown = "SELECT tags 5 'a' FROM t WHERE id = 5" ∧
      ∃ pieces, Reads .postgres none sql.toList pieces ∧
        Substituted .postgres none r.2.session.lastParams (Piece.isTokenOf .postgres) [] pieces
          "SELECT tags ? 'a' FROM t WHERE id = 5" ∧
        ¬ Substituted .postgres none r.2.session.lastParams (Piece.isTokenOf .postgres) [] pieces
          shown := by
  intro sql binds r shown
  have hshown : shown = "SELECT tags 5 'a' FROM t WHERE id = 5" := by decide +kernel
  obtain ⟨pieces, hpieces⟩ := exists_unique_reads .postgres none sql.toList
  have hreads : Reads .postgres none sql.toList pieces := (hpieces pieces).2 rfl
  have hown : substitute .postgres none r.2.session.lastParams (Piece.isTokenOf .postgres) []
      pieces = "SELECT tags ? 'a' FROM t WHERE id = 5" := by
    rw [hreads.eq_scanFrom (by decide)]
    decide +kernel
  refine ⟨rfl, hshown, pieces, hreads, substituted_iff.2 hown.symm, fun h => ?_⟩
  rw [substituted_iff, hown, hshown] at h
  exact absurd h (by decide)

end BoundSql.Inlined
