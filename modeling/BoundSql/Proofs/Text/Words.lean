import BoundSql.Text.Blank

/-! # Words of a text
* **`Text.WordsOf`** — how a text is made up of words and the separators around them.
* **`Text.wordsOf_iff`** — each text has one list of words, the one that `words` finds.
* **`Text.words_append_separators`** — separators in a text end the words before them, however many
  they are. -/

namespace BoundSql.Text

variable {p : Char → Bool} {a cs w : List Char} {ws : List (List Char)}

/-- `WordsOf p cs ws`: a text consists of words, and of separators around and between them. -/
inductive WordsOf (p : Char → Bool) : List Char → List (List Char) → Prop
  /-- Separators only. -/
  | nil {separators : List Char} (hseparators : ∀ c ∈ separators, p c = true) :
    WordsOf p separators []
  /-- A word, which ends at a separator or with the text. -/
  | cons {separators word rest : List Char} {ws : List (List Char)}
    (hseparators : ∀ c ∈ separators, p c = true) (hne : word ≠ [])
    (hword : ∀ c ∈ word, p c = false) (hend : ∀ c ∈ rest.head?, p c = true)
    (hrest : WordsOf p rest ws) : WordsOf p (separators ++ word ++ rest) (word :: ws)

/-! ### Texts put together -/

/-- The words are the parts between separators that are not empty. -/
theorem words_eq_splitOnP (p : Char → Bool) (cs : List Char) :
    words p cs = (cs.splitOnP p).filter fun w => w ≠ [] := by
  induction cs with
  | nil => simp [List.splitOnP_nil]
  | cons c cs ih =>
    rw [words.eq_def, List.splitOnP_cons_eq_if_modifyHead]
    by_cases hc : p c = true
    · simp [hc, ih]
    · cases cs with
      | nil => simp [hc, List.splitOnP_nil]
      | cons d cs =>
        simp only [hc, Bool.false_eq_true, if_false, ih]
        rw [List.splitOnP_cons_eq_if_modifyHead]
        by_cases hd : p d = true
        · simp [hd]
        · -- The first part goes on with a letter, so it is not empty.
          obtain ⟨part, parts, hparts⟩ := List.exists_cons_of_ne_nil (List.splitOnP_ne_nil p cs)
          simp [hd, hparts]

/-- A separator ends the word before it. -/
theorem words_append_cons {c : Char} (hc : p c = true) (a b : List Char) :
    words p (a ++ c :: b) = words p a ++ words p b := by
  rw [words_eq_splitOnP, List.splitOnP_append_cons a b hc, List.filter_append, ← words_eq_splitOnP,
    ← words_eq_splitOnP]

theorem words_append_of_head {b : List Char} (hb : ∀ c ∈ b.head?, p c = true) (a : List Char) :
    words p (a ++ b) = words p a ++ words p b := by
  cases b with
  | nil => simp
  | cons c b =>
    have hc : p c = true := hb c rfl
    rw [words_append_cons hc, words_cons_separator b hc]

theorem words_of_separators (h : ∀ c ∈ a, p c = true) : words p a = [] := by
  induction a with
  | nil => rfl
  | cons c a ih =>
    rw [List.forall_mem_cons] at h
    rw [words_cons_separator a h.1, ih h.2]

theorem words_separators_append (h : ∀ c ∈ a, p c = true) (b : List Char) :
    words p (a ++ b) = words p b := by
  induction a with
  | nil => rfl
  | cons c a ih =>
    rw [List.forall_mem_cons] at h
    rw [List.cons_append, words_cons_separator _ h.1, ih h.2]

/-- Separators in a text end the words before them, however many they are. -/
theorem words_append_separators {separators : List Char} (hne : separators ≠ [])
    (h : ∀ c ∈ separators, p c = true) (a b : List Char) :
    words p (a ++ separators ++ b) = words p a ++ words p b := by
  obtain ⟨c, separators, rfl⟩ := List.exists_cons_of_ne_nil hne
  rw [List.forall_mem_cons] at h
  rw [List.append_assoc, List.cons_append, words_append_cons h.1, words_separators_append h.2]

theorem words_of_no_separator (hne : w ≠ []) (h : ∀ c ∈ w, p c = false) : words p w = [w] := by
  rw [words_eq_splitOnP, List.splitOnP_eq_singleton h]
  simp [hne]

/-! ### Words as they are found -/

theorem WordsOf.cons_separator {c : Char} (h : WordsOf p cs ws) (hc : p c = true) :
    WordsOf p (c :: cs) ws := by
  cases h with
  | nil hseparators => exact .nil (List.forall_mem_cons.2 ⟨hc, hseparators⟩)
  | cons hseparators hne hword hend hrest =>
    exact .cons (List.forall_mem_cons.2 ⟨hc, hseparators⟩) hne hword hend hrest

/-- A letter in front begins a word, or lengthens the one that the text begins with. -/
theorem WordsOf.exists_cons {c : Char} (h : WordsOf p cs ws) (hc : p c = false) :
    ∃ ws', WordsOf p (c :: cs) ws' := by
  have hnone : ∀ d ∈ ([] : List Char), p d = true := by simp
  have hletter : ∀ d ∈ [c], p d = false := List.forall_mem_singleton.2 hc
  cases h with
  | nil hseparators =>
    have hend : ∀ d ∈ cs.head?, p d = true := fun d hd =>
      hseparators d (List.mem_of_mem_head? hd)
    exact ⟨[[c]], .cons hnone (List.cons_ne_nil c []) hletter hend (.nil hseparators)⟩
  | @cons separators word rest ws hseparators hne hword hend hrest =>
    cases separators with
    | nil =>
      have hlonger : ∀ d ∈ c :: word, p d = false := List.forall_mem_cons.2 ⟨hc, hword⟩
      exact ⟨(c :: word) :: ws, .cons hnone (List.cons_ne_nil c word) hlonger hend hrest⟩
    | cons d separators =>
      have hfirst : ∀ e ∈ (d :: separators ++ word ++ rest).head?, p e = true := by
        simpa using hseparators d List.mem_cons_self
      exact ⟨[c] :: word :: ws, .cons hnone (List.cons_ne_nil c []) hletter hfirst
        (.cons hseparators hne hword hend hrest)⟩

theorem exists_wordsOf (p : Char → Bool) (cs : List Char) : ∃ ws, WordsOf p cs ws := by
  induction cs with
  | nil => exact ⟨[], .nil (by simp)⟩
  | cons c cs ih =>
    obtain ⟨ws, h⟩ := ih
    cases hc : p c with
    | true => exact ⟨ws, h.cons_separator hc⟩
    | false => exact h.exists_cons hc

theorem WordsOf.words_eq (h : WordsOf p cs ws) : words p cs = ws := by
  induction h with
  | nil hseparators => exact words_of_separators hseparators
  | cons hseparators hne hword hend _ ih =>
    rw [List.append_assoc, words_separators_append hseparators, words_append_of_head hend,
      words_of_no_separator hne hword, ih, List.singleton_append]

/-- Each text has one list of words, the one that is found. -/
theorem wordsOf_iff : WordsOf p cs ws ↔ words p cs = ws := by
  refine ⟨WordsOf.words_eq, ?_⟩
  rintro rfl
  obtain ⟨ws, h⟩ := exists_wordsOf p cs
  rwa [h.words_eq]

theorem wordsOf_words (p : Char → Bool) (cs : List Char) : WordsOf p cs (words p cs) :=
  wordsOf_iff.2 rfl

/-- A word is a part of the text, without separators. -/
theorem WordsOf.mem_of_mem {c : Char} (h : WordsOf p cs ws) (hw : w ∈ ws) (hc : c ∈ w) :
    c ∈ cs ∧ p c = false := by
  induction h with
  | nil => cases hw
  | cons _ _ hword _ _ ih =>
    rcases List.mem_cons.1 hw with rfl | hw
    · exact ⟨List.mem_append_left _ (List.mem_append_right _ hc), hword c hc⟩
    · exact ⟨List.mem_append_right _ (ih hw).1, (ih hw).2⟩

/-- A character that is no separator is in a word. -/
theorem WordsOf.exists_mem {c : Char} (h : WordsOf p cs ws) (hmem : c ∈ cs) (hc : p c = false) :
    ∃ w ∈ ws, c ∈ w := by
  have hno : ∀ {l : List Char}, (∀ d ∈ l, p d = true) → c ∉ l := fun hl hcl => by
    simp [hl c hcl] at hc
  induction h with
  | nil hseparators => exact absurd hmem (hno hseparators)
  | @cons separators word rest ws hseparators _ _ _ _ ih =>
    rcases List.mem_append.1 hmem with hmem | hmem
    · rcases List.mem_append.1 hmem with hmem | hmem
      · exact absurd hmem (hno hseparators)
      · exact ⟨word, List.mem_cons_self, hmem⟩
    · obtain ⟨w, hw, hcw⟩ := ih hmem
      exact ⟨w, List.mem_cons_of_mem _ hw, hcw⟩

end BoundSql.Text
