import BoundSql.Proofs.Template.Composed
import BoundSql.Proofs.Template.TokenReading

/-! # Placeholders and casts
Colons delimit the placeholders of a template, and two in a row write a cast. What a colon does is
told by the characters next to it.
* **`Template.segment_at_cast`** — two colons in a row are plain text outside of quotes and
  brackets.
* **`Template.scanFrom_named_colon`** — a word between two colons is plain text as well, if a third
  colon follows.
* **`Rendering.placeholder_before_colon_iff`** — so casts are kept, and a placeholder is rewritten
  exactly if it does not stand right in front of one. -/

namespace BoundSql

namespace Template

variable {d : Dialect} {prev : Option Char} {cs front post : List Char} {segs : List Segment}

/-! ### Places in a text -/

/-- No text begins with an empty segment. -/
theorem Segment.Starts.source_ne_nil {s : Segment} {rest : List Char} (h : s.Starts d prev rest) :
    s.source ≠ [] := by
  cases s with
  | literal text =>
    obtain ⟨q, body, rfl, -⟩ := h
    exact List.cons_ne_nil q body
  | quoted text =>
    obtain ⟨body, rfl, -⟩ := h
    exact List.cons_ne_nil _ body
  | bracket inner | unclosed inner | placeholder name | question | plain c =>
    exact List.cons_ne_nil _ _

/-- The segments of a reading make up the text. -/
theorem Segmented.flatMap_source (h : Segmented d prev cs segs) :
    segs.flatMap Segment.source = cs := by
  induction h with
  | nil => rfl
  | cons first others ih => rw [List.flatMap_cons, ih]

/-- A reading begins with a segment and goes on with a reading of the text after it. -/
theorem Segmented.of_cons {s : Segment} {after : List Segment}
    (h : Segmented d prev cs (s :: after)) :
    s.Starts d prev (after.flatMap Segment.source) ∧
      Segmented d s.source.getLast? (after.flatMap Segment.source) after := by
  cases h with
  | cons first others =>
    rw [others.flatMap_source]
    exact ⟨first, others⟩

/-- What follows some segments of a reading is a reading of the text after them. -/
theorem Segmented.of_append {before after : List Segment}
    (h : Segmented d prev cs (before ++ after)) :
    Segmented d ((before.flatMap Segment.source).getLast?.or prev) (after.flatMap Segment.source)
      after := by
  induction before generalizing prev cs with
  | nil =>
    rw [List.nil_append] at h
    rwa [← h.flatMap_source] at h
  | cons s before ih =>
    obtain ⟨first, others⟩ := Segmented.of_cons h
    -- The first segment has a last character, so what stands before it does not matter.
    obtain ⟨c, hc⟩ := Option.ne_none_iff_exists'.1
      (mt List.getLast?_eq_none_iff.1 first.source_ne_nil)
    have hrest := ih others
    rw [hc] at hrest
    rwa [List.flatMap_cons, List.getLast?_append, hc, Option.or_assoc, Option.some_or]

/-- Every character of a text lies in one of its segments. -/
theorem exists_segment_at {c : Char} (h : segs.flatMap Segment.source = front ++ c :: post) :
    ∃ (before : List Segment) (s : Segment) (after : List Segment) (inner outer : List Char),
      segs = before ++ s :: after ∧ front = before.flatMap Segment.source ++ inner ∧
      s.source = inner ++ c :: outer ∧ post = outer ++ after.flatMap Segment.source := by
  induction segs generalizing front with
  | nil => simp at h
  | cons s rest ih =>
    rw [List.flatMap_cons, List.append_eq_append_iff] at h
    rcases h with ⟨front', rfl, hrest⟩ | ⟨tail, hs, htail⟩
    · -- The first segment ends before the character.
      obtain ⟨before, s', after, inner, outer, rfl, rfl, hs', rfl⟩ := ih hrest
      exact ⟨s :: before, s', after, inner, outer, rfl, by simp, hs', rfl⟩
    · cases tail with
      | nil =>
        have hrest : rest.flatMap Segment.source = [] ++ c :: post := htail.symm
        obtain ⟨before, s', after, inner, outer, rfl, hfront, hs', rfl⟩ := ih hrest
        exact ⟨s :: before, s', after, inner, outer, rfl, by simp [hs, ← hfront], hs', rfl⟩
      | cons c' outer =>
        obtain ⟨rfl, rfl⟩ := List.cons.inj htail
        exact ⟨[], s, rest, front, outer, rfl, rfl, hs, rfl⟩

/-! ### Colons in a row -/

/-- A colon after a colon is plain text. -/
theorem Segmented.colon (h : Segmented d (some ':') (':' :: cs) segs) :
    ∃ after, segs = .plain ':' :: after ∧ Segmented d (some ':') cs after := by
  have hscan : scanFrom d true (':' :: cs) = .plain ':' :: scanFrom d true cs :=
    scanFrom_colon rfl
  exact ⟨_, h.eq_scanFrom.trans hscan, segmented_scanFrom d (some ':') cs⟩

/-- Whether a segment is text in quotes or in brackets. -/
def Segment.isEnclosed : Segment → Bool
  | literal _ | quoted _ | bracket _ | unclosed _ => true
  | placeholder _ | question | plain _ => false

/-- Two colons in a row are plain text, or the first of them stands in quotes or brackets. -/
theorem segment_at_cast (h : Segmented d prev (front ++ ':' :: ':' :: post) segs) :
    (∃ before s after inner outer, segs = before ++ s :: after ∧ s.isEnclosed = true ∧
      front = before.flatMap Segment.source ++ inner ∧ s.source = inner ++ ':' :: outer) ∨
    ∃ before after, segs = before ++ .plain ':' :: .plain ':' :: after ∧
      front = before.flatMap Segment.source ∧ post = after.flatMap Segment.source := by
  obtain ⟨before, s, after, inner, outer, rfl, hfront, hs, hpost⟩ :=
    exists_segment_at h.flatMap_source
  obtain ⟨first, others⟩ := Segmented.of_cons h.of_append
  cases s with
  | literal text | quoted text | bracket inner' | unclosed inner' =>
    exact .inl ⟨before, _, after, inner, outer, rfl, rfl, hfront, hs⟩
  | placeholder name =>
    -- Neither its first colon nor its last has another one right after it.
    exfalso
    obtain ⟨-, hword, hnext⟩ := first
    have hcolon : ':' ∉ name := fun hc => absurd (Text.isWordChar_of_mem hword hc) (by decide)
    cases inner with
    | nil =>
      obtain rfl : name ++ [':'] = outer := (List.cons.inj hs).2
      cases name with
      | nil => cases hword
      | cons c name =>
        obtain ⟨rfl, -⟩ := List.cons.inj hpost
        exact hcolon List.mem_cons_self
    | cons c inner =>
      have htail : name ++ [':'] = inner ++ ':' :: outer := (List.cons.inj hs).2
      rcases List.eq_nil_or_concat outer with rfl | ⟨outer, c', rfl⟩
      · rw [List.nil_append] at hpost
        exact hnext (by rw [← hpost]; rfl)
      · rw [List.concat_eq_append, ← List.cons_append, ← List.append_assoc] at htail
        exact hcolon (by simp [(List.append_inj' htail rfl).1])
  | question =>
    have hmem : ':' ∈ Segment.question.source := by rw [hs]; simp
    exact absurd hmem (by decide)
  | plain c =>
    cases inner with
    | nil =>
      obtain ⟨rfl, rfl⟩ := List.cons.inj hs
      rw [List.nil_append] at hpost
      rw [← hpost] at others
      obtain ⟨after', rfl, hafter⟩ := others.colon
      exact .inr ⟨before, after', rfl, by simpa using hfront, hafter.flatMap_source.symm⟩
    | cons c' inner => simp [Segment.source] at hs

/-- A word stands for itself outside of its placeholder. -/
theorem isInertText_of_isWord {name : String} (h : Text.isWord name.toList = true) :
    isInertText d name = true := by
  have hall : ∀ c ∈ name.toList, isInert d c = true := fun c hc =>
    isInert_of_isWordChar (Text.isWordChar_of_mem h hc)
  rw [Text.isWord, Bool.and_eq_true] at h
  rw [isInertText, h.1, Bool.true_and, List.all_eq_true]
  exact hall

/-- A word between two colons is plain text if a third colon follows, whatever comes next. -/
theorem scanFrom_named_colon {name : List Char} (h : Text.isWord name = true) (rest : List Char) :
    scanFrom d false (':' :: (name ++ ':' :: ':' :: rest)) =
      verbatim (":" ++ String.ofList name ++ ":") ++ scanFrom d true (':' :: rest) := by
  have hnone : placeholderAt? false (name ++ ':' :: ':' :: rest) = none := by
    rw [placeholderAt?, if_neg (by decide), placeholder?, splitWord_append_colon h]
    cases name with
    | nil => rfl
    | cons c name => rfl
  have hword : isInertText d (String.ofList name) = true :=
    isInertText_of_isWord (by rwa [String.toList_ofList])
  have hplain := scanFrom_verbatim (b := true) hword (':' :: ':' :: rest)
  rw [String.toList_ofList] at hplain
  rw [scanFrom_colon hnone, hplain, scanFrom_colon rfl]
  simp [verbatim]

end Template

namespace Rendering

open Template

variable {t : Rendering} {native : Native}

/-! ### Colons in native text -/

/-- The native text of a segment begins with a colon only if the segment does. -/
theorem exists_head?_image {s : Segment} (hne : s.source ≠ [])
    (hs : s.source.head? ≠ some ':') (before : List Segment) :
    ∃ c, (t.image before s).toList.head? = some c ∧ c ≠ ':' := by
  -- Text that stands for itself begins as it does in the template.
  have hself : ∀ text : List Char, text ≠ [] → text.head? ≠ some ':' →
      ∃ c, (String.ofList text).toList.head? = some c ∧ c ≠ ':' := by
    intro text hne hs
    rw [String.toList_ofList]
    cases text with
    | nil => exact absurd rfl hne
    | cons c text => exact ⟨c, rfl, fun hc => hs (by rw [hc]; rfl)⟩
  cases s with
  | literal text | quoted text | unclosed rest | plain c => exact hself _ hne hs
  | bracket inner =>
    obtain ⟨c, hc, hhead⟩ := t.head?_identifier (String.ofList (Text.trim inner))
    refine ⟨c, hhead, ?_⟩
    rintro rfl
    cases hd : t.dialect <;> rw [hd] at hc <;> exact absurd hc (by decide)
  | placeholder name => exact absurd rfl hs
  | question =>
    cases hreference : Segment.question.reference? t.binds.isPositional (questions before) with
    | none =>
      unfold image
      rw [hreference]
      exact hself _ hne hs
    | some key =>
      rw [image_of_reference hreference]
      cases hd : t.dialect with
      | mysql =>
        have hkey : ∃ i, key = .index i := by
          rw [Segment.reference?] at hreference
          split at hreference
          · exact ⟨_, (Option.some.inj hreference).symm⟩
          · cases hreference
        obtain ⟨i, rfl⟩ := hkey
        exact ⟨'?', by simp [Dialect.token], by decide⟩
      | postgres => exact ⟨'$', by simp [Dialect.token], by decide⟩

/-- Behind a colon native text begins with as many colons as the template text. -/
theorem takeWhile_colon_images (t : Rendering) {cs : List Char} {segs : List Segment}
    (h : Segmented t.dialect (some ':') cs segs) (before : List Segment) :
    (String.join (t.images before segs)).toList.takeWhile (· = ':') =
      cs.takeWhile (· = ':') := by
  induction cs generalizing segs before with
  | nil =>
    cases h.eq_scanFrom
    simp [scanFrom, images]
  | cons c cs ih =>
    by_cases hc : c = ':'
    · subst hc
      obtain ⟨after, rfl, hafter⟩ := h.colon
      have himage : (t.image before (.plain ':')).toList = [':'] := String.toList_ofList
      rw [images, String.join_cons, String.toList_append, himage, List.singleton_append,
        List.takeWhile_cons_of_pos (by simp), List.takeWhile_cons_of_pos (by simp), ih hafter]
    · -- Another character ends the colons, and what it becomes begins with none.
      cases segs with
      | nil => cases h.flatMap_source
      | cons s after =>
        obtain ⟨first, -⟩ := h.of_cons
        have hhead : s.source.head? = some c := by
          have hsource := h.flatMap_source
          rw [List.flatMap_cons] at hsource
          cases hs : s.source with
          | nil => exact absurd hs first.source_ne_nil
          | cons c' tail =>
            rw [hs] at hsource
            rw [(List.cons.inj hsource).1, List.head?_cons]
        obtain ⟨c', hc', hne⟩ := t.exists_head?_image first.source_ne_nil
          (by rw [hhead]; simpa using hc) before
        obtain ⟨tail, htail⟩ := List.head?_eq_some_iff.1 hc'
        rw [images, String.join_cons, String.toList_append, htail, List.cons_append,
          List.takeWhile_cons_of_neg (by simpa using hne),
          List.takeWhile_cons_of_neg (by simpa using hc)]

/-- Whether native text has a text behind the images of some segments, and then as many colons as
the template text that follows them. -/
def Puts (t : Rendering) (native : Native) (before : List Segment) (text post : List Char) : Prop :=
  ∃ following : List Char,
    native.sql.toList = (String.join (t.images [] before)).toList ++ (text ++ following) ∧
      following.takeWhile (· = ':') = post.takeWhile (· = ':')

/-- Segments that end in a colon put their images. -/
theorem puts_of_source_eq (h : t.run = .ok native) (segs : List Segment)
    {before after : List Segment} (hs : t.source = before ++ (segs ++ after))
    (hlast : (segs.flatMap Segment.source).getLast? = some ':') :
    t.Puts native before (String.join (t.images before segs)).toList
      (after.flatMap Segment.source) := by
  have hreading : Segmented t.dialect none t.sql.toList (before ++ segs ++ after) := by
    rw [List.append_assoc, ← hs]
    exact segmented_scanFrom t.dialect none t.sql.toList
  have hafter := hreading.of_append
  rw [List.flatMap_append, List.getLast?_append, hlast, Option.some_or, Option.some_or] at hafter
  refine ⟨_, ?_, t.takeWhile_colon_images hafter (before ++ segs)⟩
  rw [sql_eq_join_images h, hs, images_append, images_append, String.join_append,
    String.join_append, String.toList_append, String.toList_append, List.nil_append]

/-- Whether the parameter of a placeholder is bound in a native statement and its token stands there
in place of the placeholder. -/
structure Replaces (t : Rendering) (native : Native) (before : List Segment)
    (name post : List Char) : Prop where
  /-- The name is bound in the template. -/
  bound : .name (String.ofList name) ∈ t.binds.keys
  /-- The native statement has its value under the key of the token. -/
  value : native.binds.get?
      (t.dialect.nativeKey (t.referencesOf t.source) (.name (String.ofList name))) =
    t.binds.get? (.name (String.ofList name))
  /-- The token stands where the placeholder stood, in front of what followed. -/
  text : t.Puts native before (t.tokenOf name) post

/-- A placeholder of a text that has a native form is replaced by its token. -/
theorem replaces_of_source_eq (h : t.run = .ok native) {before after : List Segment}
    {name : List Char} (hs : t.source = before ++ .placeholder name :: after) :
    t.Replaces native before name (after.flatMap Segment.source) := by
  have hmem : .placeholder name ∈ t.source := by simp [hs]
  have hreference : .name (String.ofList name) ∈ t.referencesOf t.source := by
    rw [referencesOf, hs, references, referencesFrom_append, List.mem_append]
    exact .inr (List.mem_append_left _ (List.mem_singleton.2 rfl))
  have hputs := puts_of_source_eq h [.placeholder name] hs
    (by simp [Segment.source, List.getLast?_cons])
  have himage : (String.join (t.images before [.placeholder name])).toList = t.tokenOf name := by
    rw [images, images, String.join_cons, image_eq_token rfl after, ← hs]
    simp [tokenOf]
  rw [himage] at hputs
  obtain ⟨n, htracks, rfl⟩ := exists_tracks_of_run_eq_ok h
  exact ⟨isSound_of_run_eq_ok h _ hmem, htracks.value _ hreference, hputs⟩

/-- A token with some colons behind it is not the placeholder with the same colons behind it. -/
theorem not_puts_token_of_puts {before : List Segment} {name post : List Char}
    (hleft : t.Puts native before (':' :: (name ++ [':'])) post) :
    ¬ t.Puts native before (t.tokenOf name) post := by
  rintro ⟨following, hsql, hcolons⟩
  obtain ⟨following', hsql', hcolons'⟩ := hleft
  have htext := List.append_cancel_left (hsql.symm.trans hsql')
  rw [tokenOf] at htext
  cases hd : t.dialect with
  | mysql =>
    -- The token has the first colon, so one more colon would follow it.
    rw [hd] at htext
    have hrest : following = ':' :: following' := by simpa [Dialect.token] using htext
    have hlength := congrArg List.length (hcolons.trans hcolons'.symm)
    rw [hrest, List.takeWhile_cons_of_pos (by simp), List.length_cons] at hlength
    omega
  | postgres =>
    rw [hd] at htext
    simp [Dialect.token] at htext

/-- Casts are told from placeholders, but not placeholders from casts. Two colons in a row are kept
wherever they do not stand in quotes or brackets. A word between two colons that follows no colon,
and with which a segment begins, is replaced by its bound parameter, or refused if the name is not
bound, exactly if no third colon follows: in front of a cast it stays in the native text. -/
theorem placeholder_before_colon_iff (t : Rendering) :
    (∀ native, t.run = .ok native →
      ∀ front post : List Char, t.sql.toList = front ++ ':' :: ':' :: post →
        (∃ before s after inner outer, t.source = before ++ s :: after ∧ s.isEnclosed = true ∧
          front = before.flatMap Segment.source ++ inner ∧ s.source = inner ++ ':' :: outer) ∨
        ∃ before after, t.source = before ++ after ∧ front = before.flatMap Segment.source ∧
          t.Puts native before [':', ':'] post) ∧
      ∀ (before after : List Segment) (name post : List Char), t.source = before ++ after →
        after.flatMap Segment.source = ':' :: (name ++ ':' :: post) →
        (before.flatMap Segment.source).getLast? ≠ some ':' → Text.isWord name = true →
        (∀ native, t.run = .ok native →
          (t.Replaces native before name post ↔ post.head? ≠ some ':') ∧
            (post.head? = some ':' → t.Puts native before (':' :: (name ++ [':'])) post)) ∧
          (post.head? ≠ some ':' → .name (String.ofList name) ∉ t.binds.keys →
            ∃ e, t.run = .error (.composition e)) := by
  refine ⟨fun native h front post hsql => ?_, fun before after name post hs htext hlast hword => ?_⟩
  · have hreading := segmented_scanFrom t.dialect none t.sql.toList
    rw [hsql] at hreading
    have hsource : t.source =
        scanFrom t.dialect (afterColon none) (front ++ ':' :: ':' :: post) := by
      rw [← hsql]
      rfl
    rcases segment_at_cast hreading with henclosed | ⟨before, after, hsegs, hfront, hpost⟩
    · exact .inl (hsource ▸ henclosed)
    · rw [← hsource] at hsegs
      have hputs := puts_of_source_eq h (verbatim "::") hsegs rfl
      rw [join_images_verbatim, ← hpost] at hputs
      exact .inr ⟨before, _, hsegs, hfront, hputs⟩
  · -- What the reading goes on with depends on the character after the second colon.
    have hreading : Segmented t.dialect none t.sql.toList (before ++ after) :=
      hs ▸ segmented_scanFrom t.dialect none t.sql.toList
    have hafter := hreading.of_append.eq_scanFrom
    have hprev : afterColon ((before.flatMap Segment.source).getLast?.or none) = false := by
      rw [Option.or_none, afterColon, beq_eq_false_iff_ne]
      exact hlast
    rw [hprev, htext] at hafter
    have htail : ∀ cs, (scanFrom t.dialect true cs).flatMap Segment.source = cs :=
      flatMap_source_scanFrom t.dialect true
    by_cases hcolon : post.head? = some ':'
    · -- A third colon: the word stays, and where it stays no token stands.
      obtain ⟨rest, rfl⟩ := List.head?_eq_some_iff.1 hcolon
      rw [scanFrom_named_colon hword] at hafter
      have hleft : ∀ native, t.run = .ok native →
          t.Puts native before (':' :: (name ++ [':'])) (':' :: rest) := fun native h => by
        have hputs := puts_of_source_eq h _ (hafter ▸ hs)
          (by simp [verbatim, Segment.source, List.getLast?_cons])
        rw [join_images_verbatim, htail] at hputs
        simpa using hputs
      have hnot : ∀ native, t.run = .ok native → ¬ t.Replaces native before name (':' :: rest) :=
        fun native h hreplaces => not_puts_token_of_puts (hleft native h) hreplaces.text
      exact ⟨fun native h => ⟨iff_of_false (hnot native h) (not_not_intro hcolon),
        fun _ => hleft native h⟩, fun hne => absurd hcolon hne⟩
    · -- None: the word is a placeholder, so its parameter is bound or the text is refused.
      rw [scanFrom_named hword hcolon] at hafter
      rw [hafter] at hs
      have hreplaces : ∀ native, t.run = .ok native → t.Replaces native before name post :=
        fun native h => htail post ▸ replaces_of_source_eq h hs
      refine ⟨fun native h => ⟨iff_of_true (hreplaces native h) hcolon, fun hc => absurd hc hcolon⟩,
        fun _ hunbound => ?_⟩
      rcases faultFree_or_exists_fault t [] t.source with hf | ⟨l, s, r, e, hs', hl, he⟩
      · obtain ⟨n, -, hrun⟩ := run_of_faultFree hf
        exact absurd (hreplaces _ hrun).bound hunbound
      · exact ⟨e, run_of_fault hs' hl he⟩

/-- A cast and a placeholder in one text. -/
theorem placeholder_before_colon_iff_apart :
    let t : Rendering := ⟨.postgres, OrderedMap.empty, OrderedMap.ofList [(.name "n", .int 5)],
      OrderedMap.empty, "a::b=:n:"⟩
    let native : Native :=
      ⟨"a::b=$1", OrderedMap.ofList [(.index 0, .int 5)], OrderedMap.empty⟩
    t.run = .ok native ∧ t.Replaces native (verbatim "a::b=") ['n'] [] := by
  intro t native
  have h : t.run = .ok native := by decide +kernel
  have hs : t.source = verbatim "a::b=" ++ [.placeholder ['n']] := by decide +kernel
  have hiff := ((placeholder_before_colon_iff t).2 _ _ ['n'] [] hs rfl (by decide) rfl).1 native h
  exact ⟨h, hiff.1.2 (by decide)⟩

/-- A placeholder in front of a cast stays, and its value is lost. -/
theorem placeholder_left_before_cast :
    let t : Rendering := ⟨.postgres, OrderedMap.empty, OrderedMap.ofList [(.name "n", .int 5)],
      OrderedMap.empty, "SELECT :n:::int"⟩
    let native : Native := ⟨"SELECT :n:::int", OrderedMap.empty, OrderedMap.empty⟩
    t.run = .ok native ∧
      ¬ t.Replaces native (verbatim "SELECT ") ['n'] [':', ':', 'i', 'n', 't'] := by
  intro t native
  refine ⟨by decide +kernel, fun hreplaces => ?_⟩
  have hvalue : none = some (Value.int 5) := hreplaces.value
  cases hvalue

end Rendering

end BoundSql
