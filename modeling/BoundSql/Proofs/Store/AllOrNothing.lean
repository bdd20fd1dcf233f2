import BoundSql.Proofs.Store.File
import BoundSql.Proofs.Text.Blank

/-! # Writes that fail
A value is written to a temporary file, which then takes the place of the file of its key.
* **`FileStore.withExtension`** — the rule behind the temporary name: the extension of a file's name
  is replaced (`tempName_eq_withExtension`).
* **`FileStore.SharesTemp`**, **`FileStore.Crosses`** — the keys that links tie to the temporary
  name of another key, or to its file.
* **`FileStore.IsClear`** — nothing is in the way of writing a key.
* **`FileStore.write_all_or_nothing`** — a write that fails is not seen by reading, one that
  succeeds is seen under the names of its file only. -/

namespace BoundSql

namespace FileStore

variable {store : FileStore} {key key' : String} {value : Bytes} {d : Directory} {t : Tree}

/-! ### Sizes of names -/

/-- A character of a file's name is one byte. -/
theorem utf8Size_of_isNameChar {c : Char} (h : isNameChar c = true) : c.utf8Size = 1 := by
  refine Char.utf8Size_eq_one_iff.2 (UInt32.le_iff_toNat_le.2 ?_)
  simp only [isNameChar, Bool.or_eq_true, beq_iff_eq] at h
  rcases h with ((h | rfl) | rfl) | rfl
  · exact Nat.le_trans (Text.toNat_of_isAlphanum h).2 (by decide)
  · decide
  · decide
  · decide

theorem utf8ByteSize_ofList {l : List Char} (h : ∀ c ∈ l, isNameChar c = true) :
    (String.ofList l).utf8ByteSize = l.length := by
  induction l with
  | nil => rfl
  | cons c l ih =>
    obtain ⟨hc, hl⟩ := List.forall_mem_cons.1 h
    rw [String.ofList_cons, String.utf8ByteSize_append, String.utf8ByteSize_singleton,
      utf8Size_of_isNameChar hc, ih hl, List.length_cons, Nat.add_comm]

/-- A key is written in as many bytes as it has characters. -/
theorem utf8ByteSize_stem (key : String) : (stem key).utf8ByteSize = key.length := by
  have hstem := utf8ByteSize_ofList fun c (hc : c ∈ (stem key).toList) => isNameChar_of_mem_stem hc
  rw [String.ofList_toList] at hstem
  rw [hstem, stem, String.toList_ofList, List.length_map, String.length_toList]

theorem utf8ByteSize_fileName (key : String) : (fileName key).utf8ByteSize = key.length + 5 := by
  rw [fileName, String.utf8ByteSize_append, utf8ByteSize_stem]
  rfl

theorem isTooLong_fileName (key : String) :
    Path.isTooLong (fileName key) = decide (250 < key.length) := by
  rw [Path.isTooLong, utf8ByteSize_fileName, Path.maxNameBytes]
  exact decide_eq_decide.2 (by omega)

/-! ### Extensions -/

/-- The name in front of the last point. A name without points, or with its only point in front, has
no extension. -/
def beforeExtension? (name : List Char) : Option (List Char) :=
  match name.reverse.dropWhile (· ≠ '.') with
  | [] => none
  | _ :: before => if before = [] then none else some before.reverse

/-- A name with another extension. The old extension is cut off before its point is: two points that
are left alone name the directory above, which has no extension to set. -/
def withExtension (extension name : String) : String :=
  match beforeExtension? name.toList with
  | none => name ++ "." ++ extension
  | some before =>
    if before = ['.'] then ".." else String.ofList before ++ "." ++ extension

theorem beforeExtension?_append (before : List Char) {extension : List Char}
    (h : '.' ∉ extension) :
    beforeExtension? (before ++ '.' :: extension) = if before = [] then none else some before := by
  have hdrop : (before ++ '.' :: extension).reverse.dropWhile (· ≠ '.') =
      '.' :: before.reverse := by
    rw [List.reverse_append, List.reverse_cons, List.append_assoc, List.dropWhile_append_of_pos]
    · rfl
    · intro c hc
      exact decide_eq_true fun he => h (he ▸ List.mem_reverse.1 hc)
  rw [beforeExtension?, hdrop]
  simp

/-- The temporary name is the file's name with another extension. -/
theorem tempName_eq_withExtension (key : String) :
    tempName key = withExtension "json.tmp" (fileName key) := by
  have hbefore : beforeExtension? (fileName key).toList =
      if (stem key).toList = [] then none else some (stem key).toList := by
    have hjson : '.' ∉ "json".toList := by decide
    rw [fileName, String.toList_append]
    exact beforeExtension?_append _ hjson
  rw [withExtension, hbefore, tempName]
  by_cases hempty : stem key = ""
  · simp [hempty, fileName]
  · have hlist : (stem key).toList ≠ [] := mt String.toList_eq_nil_iff.1 hempty
    rw [if_neg hlist, if_neg hempty]
    dsimp only
    by_cases hdot : stem key = "."
    · simp [hdot]
    · have hlist' : (stem key).toList ≠ ['.'] := by
        intro h
        exact hdot (String.toList_inj.1 h)
      rw [if_neg hdot, if_neg hlist', String.ofList_toList, String.append_assoc]
      rfl

/-! ### The directory before it is written to -/

/-- Whether the name of a key's file is too long for a directory, and its whole path is not. Nothing
is looked up while the directory is missing, so that the name is refused only once it is there. -/
def Refused (store : FileStore) (key : String) : Prop :=
  Path.isTooLong (fileName key) = true ∧
    Path.fault? (Path.join store.dir (fileName key)) = none

/-- A key reads nothing in a new directory, as while there was none, unless its name is refused. -/
theorem read_created_iff (store : FileStore) (key : String) :
    store.read key Directory.absent.ensure.2 = store.read key .absent ↔ ¬ store.Refused key := by
  have hname := isEntryName_fileName key
  have hempty : Directory.absent.ensure.2 = .entries .empty := rfl
  rw [hempty, Refused, read, read, Directory.readFile, Directory.readFile, Directory.within,
    Directory.absent, Directory.within]
  cases Path.fault? (Path.join store.dir (fileName key)) with
  | some e => simp
  | none =>
    cases hlong : Path.isTooLong (fileName key) with
    | true => simp [Tree.read, Tree.find_of_long hname hlong]
    | false =>
      have hnone : Tree.empty.nodes.get? [fileName key] = none := rfl
      simp [Tree.read, Tree.find_of_none hname hlong hnone, Tree.bytes]

/-- A path is right if it has no NUL character and is not too long. -/
theorem fault?_join {dir name : String} (hdir : '\x00' ∉ dir.toList) (hname : '\x00' ∉ name.toList)
    (hsize : dir.utf8ByteSize + 1 + name.utf8ByteSize ≤ 4095) :
    Path.fault? (Path.join dir name) = none := by
  have hnone : ∀ path : String, '\x00' ∉ path.toList → path.utf8ByteSize ≤ 4095 →
      Path.fault? path = none := by
    intro path hpath hlength
    rw [Path.fault?, if_neg (by simpa using hpath), Path.maxBytes, if_neg (Nat.not_lt.2 hlength)]
  rw [Path.join]
  split
  · refine hnone _ (by simp [String.toList_append, hdir, hname]) ?_
    rw [String.utf8ByteSize_append]
    omega
  · refine hnone _ (by simp [String.toList_append, hdir, hname]) ?_
    rw [String.utf8ByteSize_append, String.utf8ByteSize_append]
    exact hsize

/-- A key whose name is too long reads nothing while there is no directory. Its write fails and
leaves an empty directory, in which the key is refused. -/
theorem refused_of_length (store : FileStore) (key : String) (hdir : store.dir ≠ "")
    (hpath : Path.fault? store.dir = none) (hnul : '\x00' ∉ store.dir.toList) (h : 250 < key.length)
    (hsize : store.dir.utf8ByteSize + key.length ≤ 4085) (value : Bytes) :
    store.read key .absent = .ok none ∧
      store.write key value .absent = (.error (storeError .nameTooLong), .entries .empty) ∧
      store.read key (.entries .empty) = .error (storeError .nameTooLong) := by
  -- The stem is too long to be empty or a lone point.
  have hstem : ∀ name : String, name.utf8ByteSize ≤ 250 → stem key ≠ name := by
    rintro name hlength rfl
    rw [utf8ByteSize_stem] at hlength
    omega
  have htempName : tempName key = stem key ++ ".json.tmp" := by
    rw [tempName, if_neg (hstem _ (by decide)), if_neg (hstem _ (by decide))]
  have htempSize : (tempName key).utf8ByteSize = key.length + 9 := by
    rw [htempName, String.utf8ByteSize_append, utf8ByteSize_stem]
    rfl
  have hpoint : key ≠ "." := by
    rintro rfl
    exact absurd h (by decide)
  -- The paths are right, but nothing is found under the names.
  have hchars : ∀ tail : String, '\x00' ∉ tail.toList → '\x00' ∉ (stem key ++ tail).toList := by
    intro tail htail hmem
    rw [String.toList_append, List.mem_append] at hmem
    exact absurd (isNameChar_of_mem_stem (hmem.resolve_right htail)) (by decide)
  have htemp : Path.fault? (Path.join store.dir (tempName key)) = none :=
    fault?_join hnul (htempName ▸ hchars _ (by decide)) (by omega)
  have hfile : Path.fault? (Path.join store.dir (fileName key)) = none :=
    fault?_join hnul (hchars _ (by decide)) (by rw [utf8ByteSize_fileName]; omega)
  have hlong : Path.isTooLong (fileName key) = true :=
    (isTooLong_fileName key).trans (decide_eq_true h)
  have htempLong : Path.isTooLong (tempName key) = true :=
    decide_eq_true (show 255 < (tempName key).utf8ByteSize by omega)
  have hfound := Tree.find_of_long (t := .empty) (isEntryName_fileName key) hlong
  have htempFound := Tree.find_of_long (t := .empty) (isEntryName_tempName hpoint) htempLong
  refine ⟨?_, ?_, ?_⟩
  · simp [read, Directory.readFile, Directory.within, Directory.absent, hfile]
  · simp [write, ensure, hdir, hpath, Directory.ensure, Directory.absent, Directory.writeFile,
      Directory.within, htemp, Tree.write, htempFound, Except.map]
  · simp [read, Directory.readFile, Directory.within, hfile, Tree.read, hfound]

/-! ### Keys that links tie to others -/

/-- Whether what is written under the temporary name of one key is read as the value of another,
since links lead to it. -/
def SharesTemp (key key' : String) (d : Directory) : Prop :=
  ∃ t, d = .entries t ∧ t.Reaches (tempName key) (fileName key')

/-- Whether a link leads from a name over the temporary name of a key or over that of its file. -/
def Crosses (name key : String) (d : Directory) : Prop :=
  ∃ t, d = .entries t ∧
    (t.LeadsOver name (tempName key) ∨ t.LeadsOver name (fileName key))

theorem not_sharesTemp (h : d.IsPlain) (key key' : String) : ¬ SharesTemp key key' d := by
  rintro ⟨t, rfl, hreach⟩
  rcases isEntryName_or_tempName_eq key with htemp | htemp
  · exact (h t rfl).not_reaches htemp (isEntryName_fileName key') (tempName_ne_fileName key key')
      hreach
  · -- The directory above is no file and no place for one.
    rw [htemp] at hreach
    cases hreach <;> simp_all [Tree.find_points]

theorem not_crosses_fileName (h : d.IsPlain) (key key' : String) :
    ¬ Crosses (fileName key') key d := by
  rintro ⟨t, rfl, hleads | hleads⟩ <;>
    exact (h t rfl).not_leadsOver (isEntryName_fileName key') _ hleads

theorem not_crosses_tempName (h : d.IsPlain) (key : String) : ¬ Crosses (tempName key) key d := by
  rintro ⟨t, rfl, hleads⟩
  rcases isEntryName_or_tempName_eq key with htemp | htemp
  · rcases hleads with hleads | hleads <;> exact (h t rfl).not_leadsOver htemp _ hleads
  · rw [htemp, Tree.LeadsOver, Tree.LeadsOver, Tree.wayOf_points] at hleads
    simp at hleads

/-! ### Writes that fail and writes that succeed -/

/-- Nothing is in the way of writing a key to the entries of a directory: its path and those of the
two files are right, their names fit, and none of the two is the name of a directory. -/
structure IsClear (store : FileStore) (key : String) (t : Tree) : Prop where
  /-- The key is not a lone point, the temporary name of which is that of the directory above. -/
  notPoint : key ≠ "."
  /-- The path of the directory is right. -/
  dirPath : Path.fault? store.dir = none
  /-- The path of the temporary file is right. -/
  tempPath : Path.fault? (Path.join store.dir (tempName key)) = none
  /-- The path of the file is right. -/
  filePath : Path.fault? (Path.join store.dir (fileName key)) = none
  /-- The temporary name fits. -/
  tempFits : Path.isTooLong (tempName key) = false
  /-- The name fits. -/
  fileFits : Path.isTooLong (fileName key) = false
  /-- No directory has the temporary name. -/
  tempFree : t.nodes.get? [tempName key] ≠ some .directory
  /-- No directory has the name. -/
  fileFree : t.nodes.get? [fileName key] ≠ some .directory

/-- Once the directory is there, nothing was wrong with its path if it could be created. -/
theorem ensure_ok_iff (hready : (store.ensure d).2 = .entries t) :
    (store.ensure d).1 = .ok () ↔ Path.fault? store.dir = none := by
  rw [ensure] at hready ⊢
  by_cases hdir : store.dir = ""
  · rw [if_pos hdir, hdir]
    exact iff_of_true rfl rfl
  rw [if_neg hdir] at hready ⊢
  cases hfault : Path.fault? store.dir with
  | some e => simp
  | none =>
    rw [hfault] at hready
    refine iff_of_true ?_ rfl
    cases d with
    | unreached reading creation => cases creation <;> first | rfl | cases hready
    | entries t => rfl

/-- A write to entries that are there writes the temporary file and renames it. -/
theorem write_ok_iff_exists (hready : (store.ensure d).2 = .entries t) :
    (store.write key value d).1 = .ok () ↔
      Path.fault? store.dir = none ∧ Path.fault? (Path.join store.dir (tempName key)) = none ∧
        Path.fault? (Path.join store.dir (fileName key)) = none ∧
        ∃ t₁ t₂, t.write (tempName key) value = .ok t₁ ∧
          t₁.rename (tempName key) (fileName key) = .ok t₂ := by
  rw [← ensure_ok_iff hready, write]
  rcases hensure : store.ensure d with ⟨_ | _, ready⟩
  · simp
  rw [hensure] at hready
  subst hready
  simp only [Directory.writeFile, Directory.rename, Directory.within, true_and]
  cases Path.fault? (Path.join store.dir (tempName key)) with
  | some e => simp [Except.map]
  | none =>
    cases t.write (tempName key) value with
    | error e => simp [Except.map]
    | ok t₁ =>
      cases Path.fault? (Path.join store.dir (fileName key)) with
      | some e => simp [Except.map]
      | none =>
        cases hrename : t₁.rename (tempName key) (fileName key) <;> simp [hrename, Except.map]

/-- In a directory without links, a key is written exactly if nothing is in the way. -/
theorem write_ok_iff (h : t.IsPlain) (hready : (store.ensure d).2 = .entries t) :
    (store.write key value d).1 = .ok () ↔ store.IsClear key t := by
  rw [write_ok_iff_exists hready]
  -- Writing the temporary file leaves what has the name of the file.
  have hfile : ∀ t₁, Path.IsEntryName (tempName key) → t.write (tempName key) value = .ok t₁ →
      t₁.nodes.get? [fileName key] = t.nodes.get? [fileName key] := by
    refine fun t₁ htemp hwrite => Tree.get?_write hwrite fun hfree => ?_
    have hnames := (h.get?_of_find htemp hfree).2 _ rfl
    exact tempName_ne_fileName key key (List.cons.inj hnames).1.symm
  constructor
  · rintro ⟨hdir, htempPath, hfilePath, t₁, t₂, hwrite, hrename⟩
    have htemp := isEntryName_of_write hwrite
    obtain ⟨htempFits, htempFree⟩ := (h.exists_write_iff htemp).1 ⟨t₁, hwrite⟩
    obtain ⟨-, hfileFits, -, hfileFree⟩ := Tree.exists_rename_iff.1 ⟨t₂, hrename⟩
    rw [hfile t₁ htemp hwrite] at hfileFree
    refine ⟨?_, hdir, htempPath, hfilePath, htempFits, hfileFits, htempFree, hfileFree⟩
    rintro rfl
    exact htemp.2.2.1 rfl
  · intro hclear
    have htemp := isEntryName_tempName hclear.notPoint
    obtain ⟨t₁, hwrite⟩ := (h.exists_write_iff htemp).2 ⟨hclear.tempFits, hclear.tempFree⟩
    obtain ⟨number, hnode⟩ := h.get?_of_write htemp hwrite
    obtain ⟨t₂, hrename⟩ := Tree.exists_rename_iff.2
      ⟨hclear.tempFits, hclear.fileFits, ⟨_, hnode, nofun⟩,
        hfile t₁ htemp hwrite ▸ hclear.fileFree⟩
    exact ⟨hclear.dirPath, hclear.tempPath, hclear.filePath, t₁, t₂, hwrite, hrename⟩

section

variable {ready : Directory} {result : Except DbError Unit × Directory}

/-- A write that fails is read under the names only that links tie to the temporary one. -/
theorem Written.read_of_error (h : store.Written key value ready result) {e : DbError}
    (he : result.1 = .error e) (hshares : ¬ SharesTemp key key' ready) :
    store.read key' result.2 = store.read key' ready := by
  cases h with
  | unwritten e => rfl
  | left e ht hwrite =>
    subst ht
    exact read_congr (Tree.read_write hwrite fun hreach => hshares ⟨_, rfl, hreach⟩)
  | moved ht hwrite hrename => cases he

/-- A write that succeeds is read under its key, unless a link at the temporary name led over one of
the two names. -/
theorem Written.read_of_ok (h : store.Written key value ready result) (hok : result.1 = .ok ())
    (hcrosses : ¬ Crosses (tempName key) key ready) :
    store.read key result.2 = .ok (some value) := by
  cases h with
  | unwritten e => cases hok
  | left e ht hwrite => cases hok
  | moved ht hwrite hrename _ hpath =>
    subst ht
    exact read_of_tree hpath (Tree.read_write_rename (isEntryName_of_write hwrite)
      (isEntryName_fileName key) hwrite hrename
      ⟨fun hleads => hcrosses ⟨_, rfl, .inl hleads⟩, fun hleads => hcrosses ⟨_, rfl, .inr hleads⟩⟩)

/-- A write that succeeds is read under no other key that no link ties to one of the two names. -/
theorem Written.read_of_ok_of_ne (h : store.Written key value ready result)
    (hok : result.1 = .ok ()) (hne : fileName key' ≠ fileName key)
    (hshares : ¬ SharesTemp key key' ready) (hcrosses : ¬ Crosses (fileName key') key ready) :
    store.read key' result.2 = store.read key' ready := by
  cases h with
  | unwritten e => cases hok
  | left e ht hwrite => cases hok
  | moved ht hwrite hrename =>
    subst ht
    have hname := isEntryName_fileName key'
    refine read_congr (Tree.read_write_rename_of_ne hwrite hrename
      (fun hreach => hshares ⟨_, rfl, hreach⟩) (fun hmem => ?_) fun hmem => ?_)
    · exact hcrosses
        ⟨_, rfl, .inl (Tree.leadsOver_of_mem hname (tempName_ne_fileName key key') hmem)⟩
    · exact hcrosses ⟨_, rfl, .inr (Tree.leadsOver_of_mem hname (Ne.symm hne) hmem)⟩

end

/-- In every state of the directory and for every value, whatever fails in a write.

The directory `ready` is the one that the value is written to, created if it was not there. If the
write fails, every key reads as before, and if it succeeds, its key reads the value and every key
with another file reads as before, but for the keys that links tie to the temporary name of the key
or to its file; without links there are none. A directory that is there, or that something is in the
way of, is left as it is. Creating a new one is not seen either, but by the keys whose names are too
long for a directory: they read nothing while it is missing, and are refused once it is there. In a
directory without links, a write fails only if something is in the way. The files of all keys and
the temporary files of all keys but a lone point stand directly inside the directory, and no
temporary file is the file of a key. -/
theorem write_all_or_nothing (store : FileStore) (fault : Option Fault) (key : String)
    (value : Bytes) (d : Directory) :
    let ready := (store.ensureUnder fault d).2
    let result := store.writeUnder fault key value d
    (fault = none → result = store.write key value d) ∧
      (∀ e, result.1 = .error e → ∀ key', ¬ SharesTemp key key' ready →
        store.read key' result.2 = store.read key' ready) ∧
      (result.1 = .ok () →
        (¬ Crosses (tempName key) key ready → store.read key result.2 = .ok (some value)) ∧
          ∀ key', fileName key' ≠ fileName key → ¬ SharesTemp key key' ready →
            ¬ Crosses (fileName key') key ready →
              store.read key' result.2 = store.read key' ready) ∧
      (d.IsPlain → ¬ Crosses (tempName key) key ready ∧
        (∀ key', ¬ SharesTemp key key' ready ∧ ¬ Crosses (fileName key') key ready) ∧
        ∀ t, fault = none → ready = .entries t → (result.1 = .ok () ↔ store.IsClear key t)) ∧
      (ready = d ∨ ready = d.ensure.2) ∧
      (∀ t, d = .entries t → ready = d) ∧
      (∀ reading e, d = .unreached reading (.fails e reading) → ready = d) ∧
      (d = .absent → ready ≠ d → ∀ key',
        store.read key' ready = store.read key' d ↔ ¬ store.Refused key') ∧
      Path.IsEntryName (fileName key) ∧ (key ≠ "." → Path.IsEntryName (tempName key)) ∧
      ∀ key', tempName key ≠ fileName key' := by
  intro ready result
  have hwritten : store.Written key value ready result := store.writeUnder_written fault key value d
  have hready : ready = d ∨ ready = d.ensure.2 := store.ensureUnder_eq_or fault d
  have hnone : fault = none → result = store.write key value d := by
    rintro rfl
    exact store.writeUnder_none key value d
  refine ⟨hnone, fun e he key' => hwritten.read_of_error he,
    fun hok => ⟨hwritten.read_of_ok hok, fun key' => hwritten.read_of_ok_of_ne hok⟩,
    fun hplain => ?_, hready, ?_, ?_, ?_, isEntryName_fileName key, isEntryName_tempName,
    tempName_ne_fileName key⟩
  · have hplain' : ready.IsPlain := by
      rw [Directory.IsPlain, store.tree?_ensureUnder]
      exact hplain
    refine ⟨not_crosses_tempName hplain' key, fun key' => ⟨not_sharesTemp hplain' key key',
      not_crosses_fileName hplain' key key'⟩, fun t hfault ht => ?_⟩
    rw [hnone hfault]
    subst hfault
    have hensure : (store.ensure d).2 = .entries t := (store.ensureUnder_none d).symm.trans ht
    exact write_ok_iff (Directory.isPlain_entries.1 (ht ▸ hplain')) hensure
  · rintro t rfl
    exact hready.elim id id
  · rintro reading e rfl
    exact hready.elim id id
  · rintro rfl hne key'
    rw [hready.resolve_left hne]
    exact store.read_created_iff key'

/-- Three files `a.json.tmp`, `a.json` and `b.json`: entries with these nodes, if any, and a file
that holds a byte. -/
def tied (temp file other : Option Node) : Directory :=
  let nodes := [(["a.json.tmp"], temp), (["a.json"], file), (["b.json"], other)]
  .entries ⟨.ofList (nodes.filterMap fun e => e.2.map (e.1, ·)), .ofList [(0, [1])]⟩

/-- Each exception occurs. A key that reads nothing while the directory is missing is refused after
a write that fails. A write that fails is read under another name of the temporary file, and one
that succeeds is read under the name that a link at the temporary name leads to. The link is read no
more if that is the name of the key's own file. The temporary file of a lone point is the directory
above. -/
theorem write_not_all_or_nothing :
    let store : FileStore := ⟨"/tmp/cache"⟩
    let long := String.ofList (List.replicate 251 'a')
    let shared := tied (some (.file 0)) (some .directory) (some (.file 0))
    let linked := tied (some (.link ["b.json"])) none (some (.file 0))
    let circular := tied (some (.link ["a.json"])) none none
    (store.read long .absent = .ok none ∧
      ∃ d', store.write long [120] .absent = (.error (storeError .nameTooLong), d') ∧
        store.read long d' = .error (storeError .nameTooLong)) ∧
      (store.read "b" shared = .ok (some [1]) ∧
        (store.write "a" [2] shared).1 = .error (storeError .isDirectory) ∧
        store.read "b" (store.write "a" [2] shared).2 = .ok (some [2])) ∧
      (store.read "b" linked = .ok (some [1]) ∧ (store.write "a" [2] linked).1 = .ok () ∧
        store.read "b" (store.write "a" [2] linked).2 = .ok (some [2])) ∧
      ((store.write "a" [2] circular).1 = .ok () ∧
        store.read "a" (store.write "a" [2] circular).2 = .error (storeError .tooManyLinks)) ∧
      tempName "." = ".." := by
  dsimp only
  refine ⟨?_, ⟨rfl, rfl, rfl⟩, ⟨rfl, rfl, rfl⟩, ⟨rfl, ?_⟩, rfl⟩
  · have hlength : (String.ofList (List.replicate 251 'a')).length = 251 := by
      rw [String.length_ofList, List.length_replicate]
    have hrefused := refused_of_length ⟨"/tmp/cache"⟩ _ (by decide) rfl (by decide)
      (by rw [hlength]; decide) (by rw [hlength]; decide) [120]
    exact ⟨hrefused.1, _, hrefused.2⟩
  · -- The link is moved to the name that it leads to.
    obtain ⟨t, ht, hloop⟩ : ∃ t,
        (write ⟨"/tmp/cache"⟩ "a" [2] (tied (some (.link ["a.json"])) none none)).2 = .entries t ∧
          t.walk [] ["a.json"] = .ok (.inr ([], ["a.json"])) := ⟨_, rfl, rfl⟩
    have hread : t.read "a.json" = .error .tooManyLinks := by
      rw [Tree.read, Tree.find, Tree.follow_of_loop hloop]
    have hpath : Path.fault? (Path.join "/tmp/cache" "a.json") = none := rfl
    have hname : fileName "a" = "a.json" := rfl
    rw [ht]
    simp [read, Directory.readFile, Directory.within, hpath, hname, hread]

end FileStore

end BoundSql
