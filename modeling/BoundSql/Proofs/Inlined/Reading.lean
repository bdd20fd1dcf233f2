import BoundSql.Inlined
import BoundSql.Proofs.Template.Segmentation

/-! # The grammar of native text
**`Piece.Starts`** says of each kind of piece when native text begins with it, and **`Reads`** when
a list of pieces is a reading of a text from left to right. A quoted identifier goes by the rule of
the dialect: a doubled quote stands inside it.
* **`exists_unique_reads`** — every text has exactly one reading.
* **`Piece.Starts.exists_parts`** — what the scanner finds in the place of a piece. It differs only
  in quoted identifiers, which the scanner ends at every quote. -/

namespace BoundSql.Inlined

open Template (afterColon afterColon_of_closes afterColon_of_ne ne_colon_of_opensLiteral)

/-! ### Runs of characters -/

/-- Whether `run` is the longest run of characters of a class at the start of `run ++ rest`. -/
def IsRun (p : Char → Bool) (run rest : List Char) : Prop :=
  (∀ c ∈ run, p c = true) ∧ ∀ c, rest.head? = some c → p c = false

section

variable {p : Char → Bool} {run rest : List Char}

theorem IsRun.takeWhile_eq_nil (h : IsRun p run rest) : rest.takeWhile p = [] := by
  cases rest with
  | nil => rfl
  | cons c cs => rw [List.takeWhile_cons_of_neg (by simp [h.2 c rfl])]

/-- The longest run is what is taken from the start. -/
theorem IsRun.takeWhile_append (h : IsRun p run rest) : (run ++ rest).takeWhile p = run := by
  rw [List.takeWhile_append_of_pos h.1, h.takeWhile_eq_nil, List.append_nil]

/-- What follows the longest run is what is left. -/
theorem IsRun.dropWhile_append (h : IsRun p run rest) : (run ++ rest).dropWhile p = rest := by
  have hsplit := List.takeWhile_append_dropWhile (p := p) (l := run ++ rest)
  rw [h.takeWhile_append] at hsplit
  exact List.append_cancel_left hsplit

theorem isRun_takeWhile (p : Char → Bool) (cs : List Char) :
    IsRun p (cs.takeWhile p) (cs.dropWhile p) := by
  refine ⟨List.all_eq_true.1 List.all_takeWhile, fun c hc => ?_⟩
  have hhead := List.head?_dropWhile_not p cs
  rw [hc] at hhead
  simpa using hhead

end

/-! ### Readings -/

/-- Whether text that follows the character `prev` begins with a piece, when `rest` is what follows
the piece. -/
def Piece.Starts (d : Dialect) (prev : Option Char) (rest : List Char) : Piece → Prop
  | literal text =>
    ∃ q body, text = q :: body ∧ d.opensLiteral q = true ∧
      Text.Closes d.backslashEscapes q body rest
  | quoted text => ∃ body, text = d.quoteChar :: body ∧ Text.Closes false d.quoteChar body rest
  | question => True
  | numbered digits => IsRun Char.isDigit digits rest
  | named name => prev ≠ some ':' ∧ name ≠ [] ∧ IsRun Text.isWordChar name rest
  | plain c =>
    d.opensLiteral c = false ∧ c ≠ d.quoteChar ∧ c ≠ '?' ∧ c ≠ '$' ∧
      (c = ':' → prev = some ':' ∨ IsRun Text.isWordChar [] rest)

/-- `Reads d prev cs pieces`: the text `cs`, which follows the character `prev`, reads from left to
right as `pieces`. -/
inductive Reads (d : Dialect) : Option Char → List Char → List Piece → Prop
  /-- Empty text has no pieces. -/
  | nil {prev : Option Char} : Reads d prev [] []
  /-- A piece is followed by the reading of the text after it. -/
  | cons {prev : Option Char} {p : Piece} {rest : List Char} {pieces : List Piece}
      (first : p.Starts d prev rest) (others : Reads d p.source.getLast? rest pieces) :
      Reads d prev (p.source ++ rest) (p :: pieces)

/-! ### The scanner, kind by kind -/

section Scanner

variable {d : Dialect} {b : Bool} {c : Char} {cs : List Char}

theorem scanFrom_literal (h : d.opensLiteral c = true) :
    scanFrom d b (c :: cs) =
      .literal (c :: (d.splitLiteral c cs).1) :: scanFrom d false (d.splitLiteral c cs).2 := by
  rw [scanFrom, if_pos h]

theorem scanFrom_quoted : scanFrom d b (d.quoteChar :: cs) =
    .quoted (d.quoteChar :: (splitAtQuote d.quoteChar cs).1) ::
      scanFrom d false (splitAtQuote d.quoteChar cs).2 := by
  have hl : d.opensLiteral d.quoteChar = false := Dialect.opensLiteral_eq_false_of_mem (by simp)
  rw [scanFrom, if_neg (by simp [hl]), if_pos rfl]

theorem scanFrom_question : scanFrom d b ('?' :: cs) = .question :: scanFrom d false cs := by
  have hl : d.opensLiteral '?' = false := Dialect.opensLiteral_eq_false_of_mem (by simp)
  rw [scanFrom, if_neg (by simp [hl]), if_neg (by cases d <;> decide), if_pos rfl]

theorem scanFrom_numbered : scanFrom d b ('$' :: cs) =
    .numbered (cs.takeWhile Char.isDigit) :: scanFrom d false (cs.dropWhile Char.isDigit) := by
  have hl : d.opensLiteral '$' = false := Dialect.opensLiteral_eq_false_of_mem (by simp)
  rw [scanFrom, if_neg (by simp [hl]), if_neg (by cases d <;> decide), if_neg (by decide),
    if_pos rfl]

theorem scanFrom_named (h : (Text.splitWord cs).1 ≠ []) : scanFrom d false (':' :: cs) =
    .named (Text.splitWord cs).1 :: scanFrom d false (Text.splitWord cs).2 := by
  have hl : d.opensLiteral ':' = false := Dialect.opensLiteral_eq_false_of_mem (by simp)
  rw [scanFrom, if_neg (by simp [hl]), if_neg (by cases d <;> decide), if_neg (by decide),
    if_neg (by decide), if_pos (by simpa using h)]

theorem scanFrom_plain (hl : d.opensLiteral c = false) (hq : c ≠ d.quoteChar) (hm : c ≠ '?')
    (hn : c ≠ '$') (hc : c = ':' → b = true ∨ (Text.splitWord cs).1 = []) :
    scanFrom d b (c :: cs) = .plain c :: scanFrom d (c == ':') cs := by
  rw [scanFrom, if_neg (by simp [hl]), if_neg hq, if_neg hm, if_neg hn, if_neg ?_]
  simp only [Bool.and_eq_true, Bool.not_eq_true', decide_eq_true_eq, List.isEmpty_eq_false_iff]
  rintro ⟨⟨hcolon, hb⟩, hw⟩
  rcases hc hcolon with hb' | hw'
  · rw [hb] at hb'
    cases hb'
  · exact hw hw'

/-- At the end of the text it does not matter what stands before. -/
theorem scanFrom_congr {b' : Bool} (h : cs ≠ [] → b = b') :
    scanFrom d b cs = scanFrom d b' cs := by
  cases cs with
  | nil => rw [scanFrom, scanFrom]
  | cons c cs => rw [h (by simp)]

end Scanner

/-! ### What the scanner finds in a reading's place -/

section

variable {d : Dialect} {prev : Option Char} {rest : List Char}

/-- Where the grammar has a piece other than a quoted identifier, the scanner finds it and goes on
after it. -/
theorem Piece.Starts.scanFrom_append {p : Piece} (h : p.Starts d prev rest)
    (hp : ∀ text, p ≠ .quoted text) :
    scanFrom d (afterColon prev) (p.source ++ rest) =
      p :: scanFrom d (afterColon p.source.getLast?) rest := by
  cases p with
  | literal text =>
    obtain ⟨q, body, rfl, hq, hc⟩ := h
    rw [Piece.source, List.cons_append, scanFrom_literal hq, Dialect.splitLiteral_of_closes hq hc]
    congr 1
    exact scanFrom_congr fun hr =>
      (afterColon_of_closes hc (ne_colon_of_opensLiteral hq) hr).symm
  | quoted text => exact absurd rfl (hp text)
  | question => exact scanFrom_question
  | numbered digits =>
    rw [Piece.source, List.cons_append, scanFrom_numbered, h.takeWhile_append, h.dropWhile_append]
    -- Neither the dollar sign nor a digit is a colon.
    have hlast : ∀ c ∈ '$' :: digits, c ≠ ':' := by
      rintro c hc rfl
      rcases List.mem_cons.1 hc with hc | hc
      · exact absurd hc (by decide)
      · exact absurd (h.1 ':' hc) (by decide)
    rw [List.getLast?_eq_some_getLast (List.cons_ne_nil _ _),
      afterColon_of_ne (hlast _ (List.getLast_mem _))]
  | named name =>
    obtain ⟨hprev, hne, hrun⟩ := h
    have hword : Text.splitWord (name ++ rest) = (name, rest) :=
      Prod.ext hrun.takeWhile_append hrun.dropWhile_append
    have hcolon : afterColon prev = false := by simpa [afterColon] using hprev
    rw [Piece.source, List.cons_append, hcolon, scanFrom_named (by rwa [hword]), hword]
    have hlast : name.getLast hne ≠ ':' := fun he =>
      absurd (hrun.1 _ (he ▸ List.getLast_mem hne)) (by decide)
    rw [List.getLast?_cons, List.getLast?_eq_some_getLast hne, Option.getD_some,
      afterColon_of_ne hlast]
  | plain c =>
    obtain ⟨hl, hq, hm, hn, hc⟩ := h
    have hword : c = ':' → afterColon prev = true ∨ (Text.splitWord rest).1 = [] := fun he =>
      (hc he).imp (fun hprev => by simp [afterColon, hprev]) fun hrun => hrun.takeWhile_append
    rw [Piece.source, List.singleton_append, scanFrom_plain hl hq hm hn hword]
    simp [afterColon]

/-- In place of a quoted identifier the scanner finds quoted identifiers that make it up. -/
theorem scanFrom_append_quoted {body : List Char} (h : Text.Closes false d.quoteChar body rest)
    (b : Bool) :
    ∃ parts, scanFrom d b (d.quoteChar :: (body ++ rest)) = parts ++ scanFrom d false rest ∧
      parts.flatMap Piece.source = d.quoteChar :: body ∧ ∀ p ∈ parts, ∃ text, p = .quoted text := by
  -- The induction is on the text after a quote that is open already.
  have hopen : ∃ parts,
      scanFrom d false (splitAtQuote d.quoteChar (body ++ rest)).2 =
        parts ++ scanFrom d false rest ∧
      (splitAtQuote d.quoteChar (body ++ rest)).1 ++ parts.flatMap Piece.source = body ∧
      ∀ p ∈ parts, ∃ text, p = .quoted text := by
    generalize hq : d.quoteChar = q at h ⊢
    induction h with
    | delimiter single => exact ⟨[], by simp [splitAtQuote]⟩
    | @doubled body rest tail ih =>
      -- The first of the two quotes closes, and the second one opens again.
      obtain ⟨parts, hscan, hsource, hparts⟩ := ih
      refine ⟨.quoted (q :: (splitAtQuote q (body ++ rest)).1) :: parts, ?_, ?_, ?_⟩
      · have hsplit : splitAtQuote q (q :: q :: body ++ rest) = ([q], q :: (body ++ rest)) := by
          simp [splitAtQuote]
        rw [hsplit, List.cons_append, ← hscan, ← hq, scanFrom_quoted]
      · simp [splitAtQuote, Piece.source, hsource]
      · intro p hp
        rcases List.mem_cons.1 hp with rfl | hp
        · exact ⟨_, rfl⟩
        · exact hparts p hp
    | escaped on => cases on
    | inside noDelimiter noEscape tail ih =>
      obtain ⟨parts, hscan, hsource, hparts⟩ := ih
      exact ⟨parts, by simpa [splitAtQuote, noDelimiter] using hscan,
        by simpa [splitAtQuote, noDelimiter] using hsource, hparts⟩
    | runsOut => exact ⟨[], by simp [splitAtQuote]⟩
    | dangling on => cases on
  obtain ⟨parts, hscan, hsource, hparts⟩ := hopen
  refine ⟨.quoted (d.quoteChar :: (splitAtQuote d.quoteChar (body ++ rest)).1) :: parts, ?_, ?_, ?_⟩
  · rw [scanFrom_quoted, hscan, List.cons_append]
  · rw [List.flatMap_cons, Piece.source, List.cons_append, hsource]
  · intro p hp
    rcases List.mem_cons.1 hp with rfl | hp
    · exact ⟨_, rfl⟩
    · exact hparts p hp

/-- In the reading's place the scanner finds pieces that make up the same text. -/
theorem Piece.Starts.exists_parts {p : Piece} (h : p.Starts d prev rest) :
    ∃ parts, scanFrom d (afterColon prev) (p.source ++ rest) =
        parts ++ scanFrom d (afterColon p.source.getLast?) rest ∧
      (parts = [p] ∨ (∃ text, p = .quoted text) ∧ parts.flatMap Piece.source = p.source ∧
        ∀ q ∈ parts, ∃ text, q = .quoted text) := by
  by_cases hp : ∃ text, p = .quoted text
  · obtain ⟨text, rfl⟩ := hp
    obtain ⟨body, rfl, hc⟩ := h
    obtain ⟨parts, hscan, hsource, hparts⟩ := scanFrom_append_quoted hc (afterColon prev)
    refine ⟨parts, ?_, .inr ⟨⟨_, rfl⟩, hsource, hparts⟩⟩
    rw [Piece.source, List.cons_append, hscan]
    congr 1
    exact scanFrom_congr fun hr => (afterColon_of_closes hc (by cases d <;> decide) hr).symm
  · exact ⟨[p], h.scanFrom_append fun text he => hp ⟨text, he⟩, .inl rfl⟩

/-! ### The one reading of a text -/

/-- No piece is without text. -/
theorem Piece.Starts.source_ne_nil {p : Piece} (h : p.Starts d prev rest) : p.source ≠ [] := by
  cases p with
  | literal text =>
    obtain ⟨q, body, rfl, -⟩ := h
    exact List.cons_ne_nil _ _
  | quoted text =>
    obtain ⟨body, rfl, -⟩ := h
    exact List.cons_ne_nil _ _
  | question | numbered _ | named _ | plain _ => exact List.cons_ne_nil _ _

/-- The scanner tells quoted identifiers from all other pieces, and the others from each other. -/
theorem Piece.Starts.head?_scanFrom {p : Piece} (h : p.Starts d prev rest) :
    ∃ q, (scanFrom d (afterColon prev) (p.source ++ rest)).head? = some q ∧
      (p = q ∨ (∃ text, p = .quoted text) ∧ ∃ text, q = .quoted text) := by
  obtain ⟨parts, hscan, hparts⟩ := h.exists_parts
  rcases hparts with rfl | ⟨hp, hsource, hquoted⟩
  · exact ⟨p, by rw [hscan]; rfl, .inl rfl⟩
  · cases parts with
    | nil => exact absurd hsource.symm h.source_ne_nil
    | cons q parts => exact ⟨q, by rw [hscan]; rfl, .inr ⟨hp, hquoted q (by simp)⟩⟩

/-- Text begins with one piece at most. -/
theorem Piece.Starts.unique {p p' : Piece} {rest' : List Char} (h : p.Starts d prev rest)
    (h' : p'.Starts d prev rest') (heq : p.source ++ rest = p'.source ++ rest') : p = p' := by
  obtain ⟨q, hq, hp⟩ := h.head?_scanFrom
  obtain ⟨q', hq', hp'⟩ := h'.head?_scanFrom
  rw [← heq, hq] at hq'
  obtain rfl := Option.some.inj hq'
  have hcases : p = p' ∨ (∃ text, p = .quoted text) ∧ ∃ text, p' = .quoted text := by
    rcases hp with rfl | ⟨hp, hquoted⟩
    · rcases hp' with rfl | ⟨hp', hquoted⟩
      · exact .inl rfl
      · exact .inr ⟨hquoted, hp'⟩
    · rcases hp' with rfl | ⟨hp', -⟩
      · exact .inr ⟨hp, hquoted⟩
      · exact .inr ⟨hp, hp'⟩
  rcases hcases with rfl | ⟨⟨text, rfl⟩, text', rfl⟩
  · rfl
  · -- Two quoted identifiers end at the same quote.
    obtain ⟨body, rfl, hc⟩ := h
    obtain ⟨body', rfl, hc'⟩ := h'
    have hbody : body ++ rest = body' ++ rest' := by simpa [Piece.source] using heq
    have hcut := Dialect.splitQuoted_of_closes hc
    rw [hbody, Dialect.splitQuoted_of_closes hc'] at hcut
    obtain ⟨rfl, -⟩ := Prod.mk.inj hcut
    rfl

/-- A text has one reading at most. -/
theorem Reads.unique {cs : List Char} {pieces pieces' : List Piece} (h : Reads d prev cs pieces)
    (h' : Reads d prev cs pieces') : pieces = pieces' := by
  induction h generalizing pieces' with
  | nil =>
    generalize hcs : ([] : List Char) = cs at h'
    cases h' with
    | nil => rfl
    | cons first others =>
      exact absurd (List.append_eq_nil_iff.1 hcs.symm).1 first.source_ne_nil
  | @cons prev p rest pieces first others ih =>
    generalize hcs : p.source ++ rest = cs at h'
    cases h' with
    | nil => exact absurd (List.append_eq_nil_iff.1 hcs).1 first.source_ne_nil
    | cons first' others' =>
      obtain rfl := first.unique first' hcs
      obtain rfl := List.append_cancel_left hcs
      rw [ih others']

/-- Text without quotes of identifiers is read as the scanner cuts it. -/
theorem Reads.eq_scanFrom {cs : List Char} {pieces : List Piece} (h : Reads d prev cs pieces)
    (hq : d.quoteChar ∉ cs) : pieces = scanFrom d (afterColon prev) cs := by
  induction h with
  | nil => rw [scanFrom]
  | @cons prev p rest pieces first others ih =>
    obtain ⟨hp, hrest⟩ := not_or.1 (mt List.mem_append.2 hq)
    have hunquoted : ∀ text, p ≠ .quoted text := by
      rintro text rfl
      obtain ⟨body, rfl, -⟩ := first
      exact hp List.mem_cons_self
    rw [first.scanFrom_append hunquoted, ← ih hrest]

/-- Text that is not empty begins with a piece. -/
theorem exists_starts (d : Dialect) (prev : Option Char) (c : Char) (cs : List Char) :
    ∃ (p : Piece) (rest : List Char), c :: cs = p.source ++ rest ∧ p.Starts d prev rest := by
  -- The first character decides the kind, except that a colon needs what stands around it.
  by_cases hl : d.opensLiteral c = true
  · exact ⟨.literal (c :: (d.splitLiteral c cs).1), (d.splitLiteral c cs).2,
      congrArg (c :: ·) (Text.splitClosing_append _ _ _).symm,
      c, _, rfl, hl, Text.closes_splitClosing _ _ _⟩
  by_cases hq : c = d.quoteChar
  · subst hq
    exact ⟨.quoted (d.quoteChar :: (d.splitQuoted cs).1), (d.splitQuoted cs).2,
      congrArg (_ :: ·) (Text.splitClosing_append _ _ _).symm,
      _, rfl, Text.closes_splitClosing _ _ _⟩
  by_cases hm : c = '?'
  · subst hm
    exact ⟨.question, cs, rfl, trivial⟩
  by_cases hn : c = '$'
  · subst hn
    exact ⟨.numbered (cs.takeWhile Char.isDigit), cs.dropWhile Char.isDigit,
      congrArg (_ :: ·) List.takeWhile_append_dropWhile.symm, isRun_takeWhile _ _⟩
  have hrun : IsRun Text.isWordChar (Text.splitWord cs).1 (Text.splitWord cs).2 :=
    isRun_takeWhile _ _
  by_cases hname : c = ':' ∧ prev ≠ some ':' ∧ (Text.splitWord cs).1 ≠ []
  · obtain ⟨rfl, hprev, hne⟩ := hname
    exact ⟨.named (Text.splitWord cs).1, (Text.splitWord cs).2,
      congrArg (_ :: ·) (Text.splitWord_append cs).symm, hprev, hne, hrun⟩
  · refine ⟨.plain c, cs, rfl, by simpa using hl, hq, hm, hn, fun hc => ?_⟩
    by_cases hprev : prev = some ':'
    · exact .inl hprev
    by_cases hnil : (Text.splitWord cs).1 = []
    · have hrest : (Text.splitWord cs).2 = cs := by
        have hsplit := Text.splitWord_append cs
        rwa [hnil] at hsplit
      rw [hnil, hrest] at hrun
      exact .inr hrun
    · exact absurd ⟨hc, hprev, hnil⟩ hname

end

/-- Every text has exactly one reading. -/
theorem exists_unique_reads (d : Dialect) (prev : Option Char) (cs : List Char) :
    ∃ pieces, ∀ pieces', Reads d prev cs pieces' ↔ pieces' = pieces := by
  have hexists : ∃ pieces, Reads d prev cs pieces := by
    -- The text after the first piece is shorter, and its reading follows.
    induction hn : cs.length using Nat.strongRecOn generalizing prev cs with
    | _ n ih =>
      cases cs with
      | nil => exact ⟨[], .nil⟩
      | cons c cs =>
        obtain ⟨p, rest, hcs, hp⟩ := exists_starts d prev c cs
        have hlength : (c :: cs).length = p.source.length + rest.length := by
          rw [hcs, List.length_append]
        have hpos : 0 < p.source.length := List.length_pos_iff.2 hp.source_ne_nil
        obtain ⟨pieces, hpieces⟩ := ih rest.length (by omega) p.source.getLast? rest rfl
        rw [hcs]
        exact ⟨p :: pieces, .cons hp hpieces⟩
  obtain ⟨pieces, hpieces⟩ := hexists
  exact ⟨pieces, fun pieces' => ⟨fun h => h.unique hpieces, fun h => h ▸ hpieces⟩⟩

end BoundSql.Inlined
