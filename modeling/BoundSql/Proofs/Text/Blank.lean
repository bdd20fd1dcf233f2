import BoundSql.Text.Blank
import BoundSql.Text.Word

/-! # Words, and white space around text
* **`Text.isWordChar_of_mem`**, **`Text.ne_of_isWordChar`** — words hold word characters only, and
  no marks.
* **`Text.isBlank_of_isWordChar`** — words hold no white space.
* **`Text.trim_append`** — what is cut off a text is the white space around it, and nothing else. -/

namespace BoundSql.Text

/-- A word has word characters only. -/
theorem isWordChar_of_mem {cs : List Char} (h : isWord cs = true) {c : Char} (hc : c ∈ cs) :
    isWordChar c = true := by
  rw [isWord, Bool.and_eq_true] at h
  exact List.all_eq_true.1 h.2 c hc

/-- A word character is none of the other ones. -/
theorem ne_of_isWordChar {c mark : Char} (h : isWordChar c = true)
    (hmark : isWordChar mark = false) : c ≠ mark := by
  rintro rfl
  rw [h] at hmark
  cases hmark

/-- A word has no closing bracket. -/
theorem not_mem_of_isWord {cs : List Char} (h : isWord cs = true) : ']' ∉ cs := fun hc =>
  absurd (isWordChar_of_mem h hc) (by decide)

/-- A digit is one of ten characters next to each other. -/
theorem toNat_of_isDigit {c : Char} (h : c.isDigit = true) : 48 ≤ c.toNat ∧ c.toNat ≤ 57 :=
  (Bool.and_eq_true_iff.1 h).imp of_decide_eq_true of_decide_eq_true

/-- Digits come before the letters, and capital letters before the small ones. -/
theorem toNat_of_isAlphanum {c : Char} (h : c.isAlphanum = true) :
    48 ≤ c.toNat ∧ c.toNat ≤ 122 := by
  obtain h | h : c.isAlpha = true ∨ c.isDigit = true := Bool.or_eq_true_iff.1 h
  · obtain h | h : c.isUpper = true ∨ c.isLower = true := Bool.or_eq_true_iff.1 h
    · have hupper : 65 ≤ c.toNat ∧ c.toNat ≤ 90 := of_decide_eq_true h
      omega
    · have hlower : 97 ≤ c.toNat ∧ c.toNat ≤ 122 :=
        (Bool.and_eq_true_iff.1 h).imp of_decide_eq_true of_decide_eq_true
      omega
  · have hdigit := toNat_of_isDigit h
    omega

theorem toNat_of_isWordChar {c : Char} (h : isWordChar c = true) :
    48 ≤ c.toNat ∧ c.toNat ≤ 122 := by
  obtain h | h : c.isAlphanum = true ∨ (c == '_') = true := Bool.or_eq_true_iff.1 h
  · exact toNat_of_isAlphanum h
  · rw [beq_iff_eq.1 h]
    decide

/-- A word character is no white space. -/
theorem isBlank_of_isWordChar {c : Char} (h : isWordChar c = true) : isBlank c = false := by
  have hrange := toNat_of_isWordChar h
  -- Between the digits and the lower-case letters there is no white space.
  simp only [isBlank, blankRanges, List.any_cons, List.any_nil, Bool.or_false, Bool.or_eq_false_iff,
    Bool.and_eq_false_iff, decide_eq_false_iff_not]
  omega

/-- A digit is no white space. -/
theorem isBlank_of_isDigit {c : Char} (h : c.isDigit = true) : isBlank c = false :=
  isBlank_of_isWordChar (by simp [isWordChar, Char.isAlphanum, h])

/-- White space in front is dropped up to the first character that is none. -/
theorem dropWhile_isBlank_append {blanks cs : List Char} (hblanks : ∀ c ∈ blanks, isBlank c = true)
    (hhead : ∀ c ∈ cs.head?, isBlank c = false) : (blanks ++ cs).dropWhile isBlank = cs := by
  rw [List.dropWhile_append_of_pos hblanks]
  cases cs with
  | nil => rfl
  | cons c cs => rw [List.dropWhile_cons_of_neg (by simp [hhead c rfl])]

/-- White space around a text that neither begins nor ends in white space is cut off. -/
theorem trim_append {left cs right : List Char} (hleft : ∀ c ∈ left, isBlank c = true)
    (hright : ∀ c ∈ right, isBlank c = true) (hhead : ∀ c ∈ cs.head?, isBlank c = false)
    (hlast : ∀ c ∈ cs.getLast?, isBlank c = false) : trim (left ++ cs ++ right) = cs := by
  have hend : trimEnd (cs ++ right) = cs := by
    have hreverse : (right.reverse ++ cs.reverse).dropWhile isBlank = cs.reverse :=
      dropWhile_isBlank_append (fun c hc => hright c (List.mem_reverse.1 hc))
        (by rwa [List.head?_reverse])
    rw [trimEnd, List.reverse_append, hreverse, List.reverse_reverse]
  rw [trim, trimStart, List.append_assoc]
  by_cases hcs : cs = []
  · -- There is white space only, and all of it is dropped in front.
    subst hcs
    have hblank : ∀ c ∈ left ++ right, isBlank c = true := by
      simpa [or_imp, forall_and] using ⟨hleft, hright⟩
    have hnone : ∀ c ∈ ([] : List Char).head?, isBlank c = false := by simp
    have hall := dropWhile_isBlank_append hblank hnone
    rw [List.append_nil] at hall
    rw [List.nil_append, hall]
    rfl
  · have hstart : (left ++ (cs ++ right)).dropWhile isBlank = cs ++ right := by
      refine dropWhile_isBlank_append hleft fun c hc => hhead c ?_
      obtain ⟨first, rest, rfl⟩ := List.exists_cons_of_ne_nil hcs
      exact hc
    rw [hstart, hend]

/-- Text that neither begins nor ends in white space stays as it is. -/
theorem trim_eq_self {cs : List Char} (hhead : ∀ c ∈ cs.head?, isBlank c = false)
    (hlast : ∀ c ∈ cs.getLast?, isBlank c = false) : trim cs = cs := by
  have hnone : ∀ c ∈ ([] : List Char), isBlank c = true := by simp
  have h := trim_append hnone hnone hhead hlast
  rwa [List.nil_append, List.append_nil] at h

theorem trim_of_isWord {cs : List Char} (h : isWord cs = true) : trim cs = cs := by
  have hblank : ∀ c ∈ cs, isBlank c = false := fun c hc =>
    isBlank_of_isWordChar (isWordChar_of_mem h hc)
  exact trim_eq_self (fun c hc => hblank c (List.mem_of_mem_head? hc))
    fun c hc => hblank c (List.mem_of_getLast? hc)

/-- A word is not blank. -/
theorem trim_ne_nil_of_isWord {cs : List Char} (h : isWord cs = true) : trim cs ≠ [] := by
  rw [trim_of_isWord h]
  rintro rfl
  cases h

end BoundSql.Text
