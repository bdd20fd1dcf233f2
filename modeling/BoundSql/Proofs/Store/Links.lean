import BoundSql.Proofs.OrderedMap
import BoundSql.Store.Directory

/-! # Links in a directory
What a name leads to, and what changes that.
* **`Tree.way`** — the entries that are looked up on the way from a name; what the name leads to
  depends on them only (`follow_congr`).
* **`Tree.Reaches`**, **`Tree.LeadsOver`** — what is written under one name is read under another,
  and a link leads over an entry of the directory.
* **`Tree.read_write_rename`**, **`Tree.read_write_rename_of_ne`** — a file is written under one
  name and renamed: what its new name and what other names then lead to.
* **`Tree.IsPlain`** — entries without links, where no name meets another. -/

namespace BoundSql

/-- Whether a name stands for an entry directly inside a directory, not for the directory itself,
the one it stands in or something further down. -/
def Path.IsEntryName (name : String) : Prop :=
  name ≠ "" ∧ name ≠ "." ∧ name ≠ ".." ∧ '/' ∉ name.toList

namespace Tree

variable {t s : Tree} {links number : Nat} {reached names path : RelativePath} {name other : String}
  {found : Found} {content : Bytes}

/-! ### The entries on the way -/

/-- The entries that names are looked up at from a directory that is reached, up to the first
link. -/
def passed (t : Tree) (reached : RelativePath) : RelativePath → List RelativePath
  | [] => []
  | name :: rest =>
    if name = "." then t.passed reached rest
    else if name = ".." then t.passed (above reached) rest
    else if Path.isTooLong name then []
    else
      (reached ++ [name]) ::
        if t.nodes.get? (reached ++ [name]) = some .directory then t.passed (reached ++ [name]) rest
        else []

/-- The entries that are looked up on the way to what names lead to. -/
def way (t : Tree) (links : Nat) (reached names : RelativePath) : List RelativePath :=
  t.passed reached names ++
    match t.walk reached names with
    | .ok (.inr (reached, names)) =>
      match links with
      | 0 => []
      | links + 1 => t.way links reached names
    | _ => []

/-- The entries that are looked up on the way to what a name leads to. -/
def wayOf (t : Tree) (name : String) : List RelativePath := t.way maxLinks [] [name]

/-! ### Steps -/

@[simp] theorem walk_point : t.walk reached ("." :: names) = t.walk reached names := by
  rw [walk, if_pos rfl]

@[simp] theorem walk_points : t.walk reached (".." :: names) = t.walk (above reached) names := by
  rw [walk, if_neg (by decide), if_pos rfl]

@[simp] theorem passed_point : t.passed reached ("." :: names) = t.passed reached names := by
  rw [passed, if_pos rfl]

@[simp] theorem passed_points :
    t.passed reached (".." :: names) = t.passed (above reached) names := by
  rw [passed, if_neg (by decide), if_pos rfl]

/-- Any other name is looked up. -/
theorem walk_cons (hpoint : name ≠ ".") (hpoints : name ≠ "..")
    (hshort : Path.isTooLong name = false) :
    t.walk reached (name :: names) =
      match t.nodes.get? (reached ++ [name]) with
      | some .directory => t.walk (reached ++ [name]) names
      | some (.link target) => .ok (.inr (reached, target ++ names))
      | some (.file number) =>
        if names.isEmpty then .ok (.inl (.file number)) else .error .notDirectory
      | none =>
        if names.isEmpty then .ok (.inl (.free (reached ++ [name]))) else .error .notFound :=
  (if_neg hpoint).trans ((if_neg hpoints).trans (if_neg (by simp [hshort])))

theorem passed_cons (hpoint : name ≠ ".") (hpoints : name ≠ "..")
    (hshort : Path.isTooLong name = false) :
    t.passed reached (name :: names) =
      (reached ++ [name]) ::
        if t.nodes.get? (reached ++ [name]) = some .directory then
          t.passed (reached ++ [name]) names
        else [] := by
  rw [passed, if_neg hpoint, if_neg hpoints, hshort, if_neg Bool.false_ne_true]

/-- Where names lead up to the first link depends on the entries that are passed. -/
theorem walk_congr (h : ∀ p ∈ t.passed reached names, s.nodes.get? p = t.nodes.get? p) :
    s.walk reached names = t.walk reached names := by
  fun_induction t.walk reached names with
  | case1 => rfl
  | case2 reached names ih =>
    rw [walk_point]
    exact ih (by rwa [passed_point] at h)
  | case3 reached names _ ih =>
    rw [walk_points]
    exact ih (by rwa [passed_points] at h)
  | case4 reached name names hpoint hpoints hlong =>
    rw [walk, if_neg hpoint, if_neg hpoints, if_pos hlong]
  | case5 reached name names hpoint hpoints hshort hnode ih =>
    -- Only behind a directory are there more entries.
    rw [passed_cons hpoint hpoints (eq_false_of_ne_true hshort), hnode, if_pos rfl,
      List.forall_mem_cons, hnode] at h
    rw [walk_cons hpoint hpoints (eq_false_of_ne_true hshort), h.1]
    exact ih h.2
  | _ reached name names hpoint hpoints hshort =>
    rw [passed_cons hpoint hpoints (eq_false_of_ne_true hshort), List.forall_mem_cons] at h
    rw [walk_cons hpoint hpoints (eq_false_of_ne_true hshort), h.1]
    simp [*]

/-- What names lead to depends on the entries on the way. -/
theorem follow_congr (h : ∀ p ∈ t.way links reached names, s.nodes.get? p = t.nodes.get? p) :
    s.follow links reached names = t.follow links reached names := by
  induction links generalizing reached names with
  | zero =>
    rw [way] at h
    rw [follow, follow, walk_congr fun p hp => h p (List.mem_append_left _ hp)]
  | succ links ih =>
    rw [way, List.forall_mem_append] at h
    rw [follow, follow, walk_congr h.1]
    cases hwalk : t.walk reached names with
    | error e => rfl
    | ok r =>
      cases r with
      | inl found => rfl
      | inr further =>
        rw [hwalk] at h
        exact ih h.2

/-- A link that leads back to itself leads nowhere. -/
theorem follow_of_loop (h : t.walk reached names = .ok (.inr (reached, names))) (links : Nat) :
    t.follow links reached names = .error .tooManyLinks := by
  induction links with
  | zero => rw [follow, h]
  | succ links ih => rw [follow, h]; exact ih

/-! ### What is found -/

/-- Whether what was found is there: a file has a name, and a free path has no entry. -/
def Has (t : Tree) : Found → Prop
  | .file number => ∃ p, t.nodes.get? p = some (.file number)
  | .directory _ => True
  | .free path => t.nodes.get? path = none

theorem has_of_walk (h : t.walk reached names = .ok (.inl found)) : t.Has found := by
  fun_induction t.walk reached names with
  | case1 reached =>
    obtain rfl := Sum.inl.inj (Except.ok.inj h)
    trivial
  | case2 reached names ih | case3 reached names _ ih => exact ih h
  | case5 reached name names _ _ _ _ ih => exact ih h
  | case7 reached name names _ _ _ number hnode =>
    obtain rfl := Sum.inl.inj (Except.ok.inj h)
    exact ⟨_, hnode⟩
  | case9 reached name names _ _ _ hnode =>
    obtain rfl := Sum.inl.inj (Except.ok.inj h)
    exact hnode
  | case4 | case6 | case8 | case10 => cases h

/-- What is found is found before the first link, or behind it. -/
theorem follow_eq_ok (h : t.follow links reached names = .ok found) :
    t.walk reached names = .ok (.inl found) ∨
      ∃ fewer reached' names', links = fewer + 1 ∧
        t.walk reached names = .ok (.inr (reached', names')) ∧
        t.follow fewer reached' names' = .ok found := by
  rw [follow.eq_def] at h
  split at h
  · cases h
  · rename_i hwalk
    exact .inl (hwalk.trans (by rw [Except.ok.inj h]))
  · rename_i hwalk
    cases links with
    | zero => cases h
    | succ fewer => exact .inr ⟨fewer, _, _, rfl, hwalk, h⟩

theorem has_of_follow (h : t.follow links reached names = .ok found) : t.Has found := by
  induction links generalizing reached names with
  | zero =>
    rcases follow_eq_ok h with hwalk | ⟨_, _, _, hlinks, -⟩
    · exact has_of_walk hwalk
    · cases hlinks
  | succ links ih =>
    rcases follow_eq_ok h with hwalk | ⟨_, _, _, hlinks, -, hrest⟩
    · exact has_of_walk hwalk
    · obtain rfl := Nat.succ.inj hlinks
      exact ih hrest

/-- No file has the fresh number. -/
theorem lt_freshNumber (h : t.nodes.get? path = some (.file number)) : number < t.freshNumber := by
  have hmem := List.mem_map_of_mem (f := fun e : RelativePath × Node => e.2.next)
    (OrderedMap.mem_entries_of_get?_eq_some h)
  rw [freshNumber]
  generalize (t.nodes.entries.map fun e => e.2.next) = numbers at hmem
  induction numbers with
  | nil => cases hmem
  | cons n numbers ih =>
    rw [List.foldr_cons]
    rcases List.mem_cons.1 hmem with hn | hn
    · exact Nat.lt_of_lt_of_le (hn ▸ Nat.lt_succ_self number) (Nat.le_max_left _ _)
    · exact Nat.lt_of_lt_of_le (ih hn) (Nat.le_max_right _ _)

/-- What is found once a path that was free has a file. -/
def filled (path : RelativePath) (number : Nat) : Found → Found
  | .free p => if p = path then .file number else .free p
  | found => found

/-- Entries among which a path that was free has a file lead to that file instead. -/
theorem walk_filled (hpath : t.nodes.get? path = none)
    (h : ∀ p ∈ t.passed reached names,
      s.nodes.get? p = if p = path then some (.file number) else t.nodes.get? p)
    {r : Found ⊕ RelativePath × RelativePath} (hr : t.walk reached names = .ok r) :
    s.walk reached names = .ok (r.map (filled path number) id) := by
  fun_induction t.walk reached names with
  | case1 reached =>
    obtain rfl := Except.ok.inj hr
    rfl
  | case2 reached names ih =>
    rw [walk_point]
    exact ih (by rwa [passed_point] at h) hr
  | case3 reached names _ ih =>
    rw [walk_points]
    exact ih (by rwa [passed_points] at h) hr
  | case4 | case8 | case10 => cases hr
  | case5 reached name names hpoint hpoints hshort hnode ih =>
    rw [passed_cons hpoint hpoints (eq_false_of_ne_true hshort), hnode, if_pos rfl,
      List.forall_mem_cons, hnode] at h
    -- The free path is none of a directory.
    rw [if_neg (by rintro rfl; simp [hpath] at hnode)] at h
    rw [walk_cons hpoint hpoints (eq_false_of_ne_true hshort), h.1]
    exact ih h.2 hr
  | case6 reached name names hpoint hpoints hshort target hnode =>
    rw [passed_cons hpoint hpoints (eq_false_of_ne_true hshort), List.forall_mem_cons, hnode,
      if_neg (by rintro rfl; simp [hpath] at hnode)] at h
    rw [walk_cons hpoint hpoints (eq_false_of_ne_true hshort), h.1]
    obtain rfl := Except.ok.inj hr
    rfl
  | case7 reached name names hpoint hpoints hshort n hnode hlast =>
    rw [passed_cons hpoint hpoints (eq_false_of_ne_true hshort), List.forall_mem_cons, hnode,
      if_neg (by rintro rfl; simp [hpath] at hnode)] at h
    rw [walk_cons hpoint hpoints (eq_false_of_ne_true hshort), h.1]
    obtain rfl := Except.ok.inj hr
    simp [hlast, filled]
  | case9 reached name names hpoint hpoints hshort hnode hlast =>
    rw [passed_cons hpoint hpoints (eq_false_of_ne_true hshort), List.forall_mem_cons, hnode] at h
    rw [walk_cons hpoint hpoints (eq_false_of_ne_true hshort), h.1]
    obtain rfl := Except.ok.inj hr
    by_cases hp : reached ++ [name] = path
    · simp [hp, hlast, filled]
    · simp [hp, hlast, filled]

theorem follow_filled (hpath : t.nodes.get? path = none)
    (h : ∀ p ∈ t.way links reached names,
      s.nodes.get? p = if p = path then some (.file number) else t.nodes.get? p)
    (hfound : t.follow links reached names = .ok found) :
    s.follow links reached names = .ok (filled path number found) := by
  induction links generalizing reached names with
  | zero =>
    rcases follow_eq_ok hfound with hwalk | ⟨_, _, _, hlinks, -⟩
    · rw [way] at h
      rw [follow, walk_filled hpath (fun p hp => h p (List.mem_append_left _ hp)) hwalk]
      rfl
    · cases hlinks
  | succ links ih =>
    rw [way, List.forall_mem_append] at h
    rcases follow_eq_ok hfound with hwalk | ⟨_, _, _, hlinks, hwalk, hrest⟩
    · rw [follow, walk_filled hpath h.1 hwalk]
      rfl
    · obtain rfl := Nat.succ.inj hlinks
      rw [follow, walk_filled hpath h.1 hwalk]
      rw [hwalk] at h
      exact ih h.2 hrest

/-! ### Names of entries -/

theorem find_of_long (h : Path.IsEntryName name) (hlong : Path.isTooLong name = true) :
    t.find name = .error .nameTooLong := by
  rw [find, maxLinks, follow, walk, if_neg h.2.1, if_neg h.2.2.1, if_pos hlong]

theorem find_of_none (h : Path.IsEntryName name) (hshort : Path.isTooLong name = false)
    (hnode : t.nodes.get? [name] = none) : t.find name = .ok (.free [name]) := by
  rw [find, maxLinks, follow, walk_cons h.2.1 h.2.2.1 hshort, List.nil_append, hnode]
  rfl

theorem find_of_file (h : Path.IsEntryName name) (hshort : Path.isTooLong name = false)
    (hnode : t.nodes.get? [name] = some (.file number)) : t.find name = .ok (.file number) := by
  rw [find, maxLinks, follow, walk_cons h.2.1 h.2.2.1 hshort, List.nil_append, hnode]
  rfl

theorem find_of_directory (h : Path.IsEntryName name) (hshort : Path.isTooLong name = false)
    (hnode : t.nodes.get? [name] = some .directory) : t.find name = .ok (.directory [name]) := by
  rw [find, maxLinks, follow, walk_cons h.2.1 h.2.2.1 hshort, List.nil_append, hnode]
  rfl

/-- A link is the first of those that may be followed. -/
theorem find_of_link (h : Path.IsEntryName name) (hshort : Path.isTooLong name = false)
    {target : RelativePath} (hnode : t.nodes.get? [name] = some (.link target)) :
    t.find name = t.follow 39 [] target := by
  rw [find, maxLinks, follow, walk_cons h.2.1 h.2.2.1 hshort, List.nil_append, hnode]
  simp only [List.append_nil]

theorem wayOf_of_link (h : Path.IsEntryName name) (hshort : Path.isTooLong name = false)
    {target : RelativePath} (hnode : t.nodes.get? [name] = some (.link target)) :
    t.wayOf name = [name] :: t.way 39 [] target := by
  rw [wayOf, maxLinks, way, walk_cons h.2.1 h.2.2.1 hshort, passed_cons h.2.1 h.2.2.1 hshort,
    List.nil_append, hnode]
  simp

theorem wayOf_of_long (h : Path.IsEntryName name) (hlong : Path.isTooLong name = true) :
    t.wayOf name = [] := by
  have hname : t.walk [] [name] = .error .nameTooLong ∧ t.passed [] [name] = [] := by
    rw [walk, passed, if_neg h.2.1, if_neg h.2.2.1, if_pos hlong, if_neg h.2.1, if_neg h.2.2.1,
      if_pos hlong]
    exact ⟨rfl, rfl⟩
  rw [wayOf, maxLinks, way, hname.1, hname.2]
  rfl

/-- The name itself is looked up first. -/
theorem exists_wayOf_eq (h : Path.IsEntryName name) (hshort : Path.isTooLong name = false) :
    ∃ rest, t.wayOf name = [name] :: rest := by
  rw [wayOf, maxLinks, way, passed_cons h.2.1 h.2.2.1 hshort, List.nil_append, List.cons_append]
  exact ⟨_, rfl⟩

/-- Where no link is, nothing else is looked up. -/
theorem wayOf_of_no_link (h : Path.IsEntryName name) (hshort : Path.isTooLong name = false)
    (hnode : ∀ target, t.nodes.get? [name] ≠ some (.link target)) : t.wayOf name = [[name]] := by
  rw [wayOf, maxLinks, way, walk_cons h.2.1 h.2.2.1 hshort, passed_cons h.2.1 h.2.2.1 hshort,
    List.nil_append]
  cases hget : t.nodes.get? [name] with
  | none => simp
  | some node =>
    cases node with
    | file number => simp
    | directory => simp [walk, passed]
    | link target => exact absurd hget (hnode target)

/-- Two points lead to the directory above, and nothing is looked up. -/
theorem find_points : t.find ".." = .ok (.directory [".."]) := by
  rw [find, maxLinks, follow, walk_points]
  rfl

theorem wayOf_points : t.wayOf ".." = [] := by
  rw [wayOf, maxLinks, way, walk_points, passed_points]
  rfl

/-! ### Reading after writing and renaming -/

/-- What is written under one name is read under another: both lead to one file, or the file would
be made where the other name looks. -/
inductive Reaches (t : Tree) (name other : String) : Prop
  /-- Both names lead to one file. -/
  | file {number : Nat} (found : t.find name = .ok (.file number))
      (other : t.find other = .ok (.file number))
  /-- The other name looks at the free path. -/
  | free {path : RelativePath} (found : t.find name = .ok (.free path))
      (other : path ∈ t.wayOf other)

/-- Whether a link leads from one name over another. -/
def LeadsOver (t : Tree) (name other : String) : Prop := [other] ∈ (t.wayOf name).tail

/-- Another name that is looked up on the way is led over. -/
theorem leadsOver_of_mem (hname : Path.IsEntryName name) (hne : other ≠ name)
    (hmem : [other] ∈ t.wayOf name) : t.LeadsOver name other := by
  cases hlong : Path.isTooLong name with
  | true =>
    rw [wayOf_of_long hname hlong] at hmem
    cases hmem
  | false =>
    obtain ⟨rest, hrest⟩ := exists_wayOf_eq (t := t) hname hlong
    rw [hrest, List.mem_cons] at hmem
    rw [LeadsOver, hrest]
    exact hmem.resolve_left fun he => hne (List.cons.inj he).1

/-- What a name reads depends on the entries on the way and on the content of the file. -/
theorem read_congr (hnodes : ∀ p ∈ t.wayOf name, s.nodes.get? p = t.nodes.get? p)
    (hcontent : ∀ number, t.find name = .ok (.file number) → s.content number = t.content number) :
    s.read name = t.read name := by
  have hfind : s.find name = t.find name := follow_congr hnodes
  rw [read, read, hfind]
  cases hfound : t.find name with
  | error e => rfl
  | ok found =>
    cases found with
    | file number => exact congrArg Except.ok (hcontent number hfound)
    | directory _ | free _ => rfl

theorem read_of_file (hfound : t.find name = .ok (.file number))
    (hcontent : t.contents.get? number = some content) : t.read name = .ok content := by
  rw [read, hfound]
  exact congrArg Except.ok (by rw [Tree.content, hcontent, Option.getD_some])

/-- A write fills the file that its name leads to, or makes one at a free path. -/
theorem write_eq_ok (h : t.write name content = .ok s) :
    (∃ number, t.find name = .ok (.file number) ∧
        s = { t with contents := t.contents.insert number content }) ∨
      ∃ path, t.find name = .ok (.free path) ∧
        s = ⟨t.nodes.insert path (.file t.freshNumber),
          t.contents.insert t.freshNumber content⟩ := by
  rw [write] at h
  cases hfound : t.find name with
  | error e => simp [hfound] at h
  | ok found =>
    rw [hfound] at h
    cases found with
    | file number => exact .inl ⟨number, rfl, (Except.ok.inj h).symm⟩
    | directory path => cases h
    | free path => exact .inr ⟨path, rfl, (Except.ok.inj h).symm⟩

/-- A write leaves the entries but for the free path that its name leads to. -/
theorem get?_write (h : t.write name content = .ok s)
    (hpath : t.find name ≠ .ok (.free path)) : s.nodes.get? path = t.nodes.get? path := by
  rcases write_eq_ok h with ⟨number, -, rfl⟩ | ⟨free, hfree, rfl⟩
  · rfl
  · exact OrderedMap.get?_insert_of_ne _ _ fun he => hpath (he ▸ hfree)

/-- A write leaves what files hold but for the one that its name leads to. -/
theorem content_write (h : t.write name content = .ok s) (hhas : t.Has (.file number))
    (hnumber : t.find name ≠ .ok (.file number)) : s.content number = t.content number := by
  rcases write_eq_ok h with ⟨number', hfound, rfl⟩ | ⟨free, -, rfl⟩
  · rw [Tree.content, Tree.content,
      OrderedMap.get?_insert_of_ne _ _ fun he => hnumber (hfound.trans (by rw [he]))]
  · -- The fresh number is that of no file.
    obtain ⟨p, hp⟩ := hhas
    rw [Tree.content, Tree.content,
      OrderedMap.get?_insert_of_ne _ _ (Nat.ne_of_lt (lt_freshNumber hp))]

/-- What is renamed is a file or a link, and then it has the new name. Either it had that name
already, or it is moved. -/
theorem rename_eq_ok (h : t.rename name other = .ok s) :
    ∃ node, t.nodes.get? [name] = some node ∧ node ≠ .directory ∧
      Path.isTooLong other = false ∧
      (s = t ∧ t.nodes.get? [other] = some node ∨
        s = { t with nodes := (t.nodes.erase [name]).insert [other] node }) := by
  rw [rename] at h
  split at h
  · cases h
  rename_i hshort
  rw [Bool.not_eq_true, Bool.or_eq_false_iff] at hshort
  split at h
  · cases h
  rename_i node hnode
  split at h
  · cases h
  rename_i hdirectory
  rw [not_or] at hdirectory
  refine ⟨node, hnode, hdirectory.1, hshort.2, ?_⟩
  split at h
  · rename_i hsame
    rw [Bool.and_eq_true, beq_iff_eq] at hsame
    exact .inl ⟨(Except.ok.inj h).symm, hsame.2⟩
  · exact .inr (Except.ok.inj h).symm

/-- A file or a link is renamed if no directory has the new name. -/
theorem exists_rename_iff :
    (∃ s, t.rename name other = .ok s) ↔
      Path.isTooLong name = false ∧ Path.isTooLong other = false ∧
        (∃ node, t.nodes.get? [name] = some node ∧ node ≠ .directory) ∧
        t.nodes.get? [other] ≠ some .directory := by
  rw [rename]
  by_cases hlong : (Path.isTooLong name || Path.isTooLong other) = true
  · rcases Bool.or_eq_true_iff.1 hlong with hlong | hlong <;> simp [hlong]
  rw [Bool.not_eq_true, Bool.or_eq_false_iff] at hlong
  simp only [hlong.1, hlong.2, Bool.or_self, Bool.false_eq_true, if_false, true_and]
  cases hnode : t.nodes.get? [name] with
  | none => simp
  | some node =>
    by_cases hdirectory : node = .directory ∨ t.nodes.get? [other] = some .directory
    · simp only [hdirectory, if_true]
      simpa using fun hnode => hdirectory.resolve_left hnode
    · simp only [if_neg hdirectory]
      rw [not_or] at hdirectory
      refine iff_of_true ?_ ⟨⟨node, rfl, hdirectory.1⟩, hdirectory.2⟩
      split <;> exact ⟨_, rfl⟩

/-- Renaming leaves the entries but for the two names. -/
theorem get?_rename (h : t.rename name other = .ok s) (hname : path ≠ [name])
    (hother : path ≠ [other]) : s.nodes.get? path = t.nodes.get? path := by
  obtain ⟨node, -, -, -, ⟨rfl, -⟩ | rfl⟩ := rename_eq_ok h
  · rfl
  · rw [OrderedMap.get?_insert_of_ne _ _ hother, OrderedMap.get?_erase, if_neg hname]

/-- The new name has what the old one had. -/
theorem get?_rename_other (h : t.rename name other = .ok s) :
    s.nodes.get? [other] = t.nodes.get? [name] := by
  obtain ⟨node, hnode, -, -, ⟨rfl, hsame⟩ | rfl⟩ := rename_eq_ok h
  · rw [hsame, hnode]
  · rw [OrderedMap.get?_insert_self, hnode]

/-- Renaming leaves what files hold. -/
theorem contents_rename (h : t.rename name other = .ok s) : s.contents = t.contents := by
  obtain ⟨node, -, -, -, ⟨rfl, -⟩ | rfl⟩ := rename_eq_ok h <;> rfl

variable {t₁ t₂ : Tree} {temp : String}

/-- What is written is read under the names that it reaches only. -/
theorem read_write (h : t.write temp content = .ok s) (hreach : ¬ t.Reaches temp other) :
    s.read other = t.read other := by
  refine read_congr (fun p hp => get?_write h fun hfree => hreach (.free hfree hp))
    fun number hfound => content_write h (has_of_follow hfound) fun hfile => ?_
  exact hreach (.file hfile hfound)

/-- A file that is written under one name and renamed is read under the names that it reaches, and
under those that lead over the two names. -/
theorem read_write_rename_of_ne (hwrite : t.write temp content = .ok t₁)
    (hrename : t₁.rename temp name = .ok t₂) (hreach : ¬ t.Reaches temp other)
    (htemp : [temp] ∉ t.wayOf other) (hname : [name] ∉ t.wayOf other) :
    t₂.read other = t.read other := by
  refine read_congr (fun p hp => ?_) fun number hfound => ?_
  · rw [get?_rename hrename (fun he => htemp (he ▸ hp)) fun he => hname (he ▸ hp),
      get?_write hwrite fun hfree => hreach (.free hfree hp)]
  · rw [Tree.content, contents_rename hrename]
    exact content_write hwrite (has_of_follow hfound) fun hfile => hreach (.file hfile hfound)

/-- What is written is found wherever names led to what the name leads to, if nothing on that way
has changed since. -/
theorem follow_of_write (hwrite : t.write name content = .ok t₁)
    (hfollow : t.follow links reached names = t.find name)
    (hnodes : ∀ p ∈ t.way links reached names, s.nodes.get? p = t₁.nodes.get? p) :
    ∃ number, s.follow links reached names = .ok (.file number) ∧
      t₁.contents.get? number = some content := by
  rcases write_eq_ok hwrite with ⟨number, hfile, rfl⟩ | ⟨free, hfree, rfl⟩
  · exact ⟨number, (follow_congr hnodes).trans (hfollow.trans hfile),
      OrderedMap.get?_insert_self ..⟩
  · have hhas : t.nodes.get? free = none := has_of_follow hfree
    have hfilled := follow_filled hhas (fun p hp => by rw [hnodes p hp, OrderedMap.get?_insert])
      (hfollow.trans hfree)
    refine ⟨t.freshNumber, ?_, OrderedMap.get?_insert_self ..⟩
    rw [hfilled, filled, if_pos rfl]

/-- A file that is written under one name is read under the name it is renamed to, unless a link led
from the one over one of the two. -/
theorem read_write_rename (htemp : Path.IsEntryName temp) (hname : Path.IsEntryName name)
    (hwrite : t.write temp content = .ok t₁)
    (hrename : t₁.rename temp name = .ok t₂)
    (hlinks : ¬ t.LeadsOver temp temp ∧ ¬ t.LeadsOver temp name) :
    t₂.read name = .ok content := by
  obtain ⟨node, hnode, hdirectory, hshort, -⟩ := rename_eq_ok hrename
  have hshort' : Path.isTooLong temp = false := by
    refine Bool.eq_false_iff.2 fun hlong => ?_
    rw [write, find_of_long htemp hlong] at hwrite
    cases hwrite
  have hnew : t₂.nodes.get? [name] = some node := (get?_rename_other hrename).trans hnode
  have hcontents : t₂.contents = t₁.contents := contents_rename hrename
  cases node with
  | directory => exact absurd rfl hdirectory
  | file number =>
    -- The entry that moves is that of the file that was written.
    obtain ⟨number', hfound, hcontent⟩ := follow_of_write (s := t₁) hwrite rfl fun _ _ => rfl
    have hmoved := (find_of_file htemp hshort' hnode).symm.trans hfound
    obtain rfl := Found.file.inj (Except.ok.inj hmoved)
    exact read_of_file (find_of_file hname hshort hnew) (hcontents ▸ hcontent)
  | link target =>
    -- A write makes no link, so the one that moves was there and leads to where it led.
    have hold : t.nodes.get? [temp] = some (.link target) := by
      rcases write_eq_ok hwrite with ⟨_, -, rfl⟩ | ⟨free, -, rfl⟩
      · exact hnode
      · rw [OrderedMap.get?_insert] at hnode
        split at hnode
        · cases hnode
        · exact hnode
    rw [LeadsOver, LeadsOver, wayOf_of_link htemp hshort' hold, List.tail_cons] at hlinks
    obtain ⟨number, hfound, hcontent⟩ := follow_of_write (s := t₂) hwrite
      (find_of_link htemp hshort' hold).symm fun p hp =>
        get?_rename hrename (fun he => hlinks.1 (he ▸ hp)) fun he => hlinks.2 (he ▸ hp)
    exact read_of_file ((find_of_link hname hshort hnew).trans hfound) (hcontents ▸ hcontent)

/-! ### Entries without links -/

/-- Entries without links: no symbolic one, and no file with two names. -/
structure IsPlain (t : Tree) : Prop where
  /-- No entry is a symbolic link. -/
  noLink : ∀ path target, t.nodes.get? path ≠ some (.link target)
  /-- No file has two names. -/
  oneName : ∀ path path' number, t.nodes.get? path = some (.file number) →
    t.nodes.get? path' = some (.file number) → path = path'

theorem isPlain_empty : empty.IsPlain := ⟨nofun, nofun⟩

namespace IsPlain

variable (h : t.IsPlain)

include h

/-- A name is looked up on its own way only. -/
theorem not_mem_wayOf (hname : Path.IsEntryName name) (hne : other ≠ name) :
    [other] ∉ t.wayOf name := by
  cases hlong : Path.isTooLong name with
  | true => simp [wayOf_of_long hname hlong]
  | false => simp [wayOf_of_no_link hname hlong (h.noLink [name]), hne]

/-- A name leads over no other. -/
theorem not_leadsOver (hname : Path.IsEntryName name) (other : String) :
    ¬ t.LeadsOver name other := by
  rw [LeadsOver]
  cases hlong : Path.isTooLong name with
  | true => simp [wayOf_of_long hname hlong]
  | false => simp [wayOf_of_no_link hname hlong (h.noLink [name])]

/-- A name leads to the file of that name, or to a place for it. -/
theorem get?_of_find (hname : Path.IsEntryName name) (hfound : t.find name = .ok found) :
    (∀ number, found = .file number → t.nodes.get? [name] = some (.file number)) ∧
      ∀ path, found = .free path → path = [name] := by
  cases hlong : Path.isTooLong name with
  | true =>
    rw [find_of_long hname hlong] at hfound
    cases hfound
  | false =>
    cases hnode : t.nodes.get? [name] with
    | none =>
      rw [find_of_none hname hlong hnode] at hfound
      obtain rfl := Except.ok.inj hfound
      exact ⟨nofun, fun path hpath => (Found.free.inj hpath).symm⟩
    | some node =>
      cases node with
      | file number =>
        rw [find_of_file hname hlong hnode] at hfound
        obtain rfl := Except.ok.inj hfound
        exact ⟨fun number' he => by rw [Found.file.inj he], nofun⟩
      | directory =>
        rw [find_of_directory hname hlong hnode] at hfound
        obtain rfl := Except.ok.inj hfound
        exact ⟨nofun, nofun⟩
      | link target => exact absurd hnode (h.noLink _ target)

/-- What is written under one name is read under no other. -/
theorem not_reaches (hname : Path.IsEntryName name) (hother : Path.IsEntryName other)
    (hne : name ≠ other) : ¬ t.Reaches name other := by
  rintro (⟨hfile, hfile'⟩ | ⟨hfree, hway⟩)
  · have hnames := h.oneName _ _ _ ((h.get?_of_find hname hfile).1 _ rfl)
      ((h.get?_of_find hother hfile').1 _ rfl)
    exact hne (List.cons.inj hnames).1
  · obtain rfl := (h.get?_of_find hname hfree).2 _ rfl
    exact h.not_mem_wayOf hother hne hway

/-- A file is written if no directory has its name. -/
theorem exists_write_iff (hname : Path.IsEntryName name) :
    (∃ s, t.write name content = .ok s) ↔
      Path.isTooLong name = false ∧ t.nodes.get? [name] ≠ some .directory := by
  rw [Tree.write]
  cases hlong : Path.isTooLong name with
  | true => simp [find_of_long hname hlong]
  | false =>
    cases hnode : t.nodes.get? [name] with
    | none => simp [find_of_none hname hlong hnode, fill]
    | some node =>
      cases node with
      | file number => simp [find_of_file hname hlong hnode, fill]
      | directory => simp [find_of_directory hname hlong hnode, fill]
      | link target => exact absurd hnode (h.noLink _ target)

/-- A name that is written is that of a file. -/
theorem get?_of_write (hname : Path.IsEntryName name) (hwrite : t.write name content = .ok s) :
    ∃ number, s.nodes.get? [name] = some (.file number) := by
  rcases write_eq_ok hwrite with ⟨number, hfound, rfl⟩ | ⟨path, hfound, rfl⟩
  · exact ⟨number, (h.get?_of_find hname hfound).1 _ rfl⟩
  · obtain rfl := (h.get?_of_find hname hfound).2 _ rfl
    exact ⟨_, OrderedMap.get?_insert_self ..⟩

/-- Writing makes no link. -/
theorem write (hwrite : t.write name content = .ok s) : s.IsPlain := by
  rcases write_eq_ok hwrite with ⟨number, -, rfl⟩ | ⟨path, -, rfl⟩
  · exact ⟨h.noLink, h.oneName⟩
  · refine ⟨fun p target hp => ?_, fun p p' number hp hp' => ?_⟩
    · rw [OrderedMap.get?_insert] at hp
      split at hp
      · cases hp
      · exact h.noLink p target hp
    · -- The fresh number is that of one path only.
      have hfresh : ∀ q, t.nodes.get? q = some (.file t.freshNumber) → False := fun q hq =>
        Nat.lt_irrefl _ (lt_freshNumber hq)
      rw [OrderedMap.get?_insert] at hp hp'
      split at hp
      · rename_i he
        obtain rfl := Node.file.inj (Option.some.inj hp)
        split at hp'
        · rename_i he'
          rw [he, he']
        · exact (hfresh _ hp').elim
      · split at hp'
        · obtain rfl := Node.file.inj (Option.some.inj hp')
          exact (hfresh _ hp).elim
        · exact h.oneName p p' number hp hp'

/-- Renaming makes no link. -/
theorem rename (hrename : t.rename name other = .ok s) : s.IsPlain := by
  obtain ⟨node, hnode, -, -, ⟨rfl, -⟩ | rfl⟩ := rename_eq_ok hrename
  · exact h
  · -- Every entry is one that was there, and that of the old name is gone.
    have hold : ∀ p node', ((t.nodes.erase [name]).insert [other] node).get? p = some node' →
        p = [other] ∧ t.nodes.get? [name] = some node' ∨
          p ≠ [other] ∧ p ≠ [name] ∧ t.nodes.get? p = some node' := by
      intro p node' hp
      rw [OrderedMap.get?_insert, OrderedMap.get?_erase] at hp
      split at hp
      · exact .inl ⟨‹_›, hnode.trans hp⟩
      · split at hp
        · cases hp
        · exact .inr ⟨‹_›, ‹_›, hp⟩
    refine ⟨fun p target hp => ?_, fun p p' number hp hp' => ?_⟩
    · rcases hold p _ hp with ⟨-, hp⟩ | ⟨-, -, hp⟩
      · exact h.noLink _ _ hp
      · exact h.noLink _ _ hp
    · rcases hold p _ hp with ⟨he, hp⟩ | ⟨-, hne, hp⟩ <;>
        rcases hold p' _ hp' with ⟨he', hp'⟩ | ⟨-, hne', hp'⟩
      · rw [he, he']
      · exact absurd (h.oneName _ _ _ hp' hp) hne'
      · exact absurd (h.oneName _ _ _ hp hp') hne
      · exact h.oneName _ _ _ hp hp'

end IsPlain

end Tree

end BoundSql
