import BoundSql.Proofs.Store.Links
import BoundSql.Store.File

/-! # What files hold
* **`StoreAccess.Keeps`** — a store from which every value that was written is read back.
* **`FileStore.Fault`**, **`FileStore.writeUnder`** — a write that the operating system may fail in
  any of its steps; **`FileStore.writeUnder_cases`** says all that it can do to a directory.
* **`FileStore.value?`** — the value that the file of a key holds. In a directory without links it
  is what reading answers (`read_eq_ok`), and writing one key changes it for the keys that share its
  file (**`value?_write`**), so that values are read back (`keeps`). -/

namespace BoundSql

/-! ### Stores -/

namespace StoreAccess

variable {ι τ : Type}

/-- Whether a value that was written can be read back. -/
def Keeps (a : StoreAccess ι τ) (i : ι) : Prop :=
  ∀ key value stores stores', a.write i key value stores = (.ok (), stores') →
    a.read i key stores' = .ok (some value)

/-- Access to stores in a state that every write keeps. -/
def restrict (a : StoreAccess ι τ) (P : τ → Prop)
    (kept : ∀ i key value stores, P stores → P (a.write i key value stores).2) :
    StoreAccess ι { stores // P stores } where
  read i key stores := a.read i key stores.1
  write i key value stores :=
    ((a.write i key value stores.1).1, ⟨_, kept i key value stores.1 stores.2⟩)

end StoreAccess

/-- Values in a map are read back. -/
theorem MemoryStore.keeps : MemoryStore.access.Keeps () := by
  rintro key value m _ h
  obtain ⟨-, rfl⟩ := Prod.mk.inj h
  exact congrArg Except.ok (m.get?_insert_self key value)

/-! ### Directories -/

namespace Directory

variable {α : Type} {d d' : Directory} {path dir name other : String} {content : Bytes} {t : Tree}

/-- The entries of a directory, or those it will have once it is created. -/
def tree? : Directory → Option Tree
  | unreached _ (.fails _ _) => none
  | unreached _ (.opens t) => some t
  | entries t => some t

/-- Whether a directory has no links. -/
def IsPlain (d : Directory) : Prop := ∀ t, d.tree? = some t → t.IsPlain

theorem isPlain_entries : (entries t).IsPlain ↔ t.IsPlain :=
  ⟨fun h => h t rfl, fun h _ ht => Option.some.inj ht ▸ h⟩

theorem isPlain_absent : absent.IsPlain := fun _ ht => Option.some.inj ht ▸ Tree.isPlain_empty

theorem tree?_ensure : d.ensure.2.tree? = d.tree? := by
  cases d with
  | unreached reading creation => cases creation <;> rfl
  | entries t => rfl

/-- Something is done to the entries of a directory that is there, if the path is right. -/
theorem within_eq_ok {f : Tree → Except FileError α} {a : α} :
    d.within path f = .ok a ↔ Path.fault? path = none ∧ ∃ t, d = entries t ∧ f t = .ok a := by
  cases hfault : Path.fault? path with
  | some e => simp [within, hfault]
  | none => cases d <;> simp [within, hfault]

/-- That something is missing is found among the entries of a directory that is there. -/
theorem of_within_eq_notFound {f : Tree → Except FileError α}
    (h : (entries t).within path f = .error .notFound) : f t = .error .notFound := by
  rw [within] at h
  split at h
  · rename_i e hfault
    rw [Path.fault?] at hfault
    obtain rfl := Except.error.inj h
    split at hfault
    · cases hfault
    · split at hfault <;> cases hfault
  · exact h

/-- Entries that are changed are those of a directory that is there. -/
theorem exists_of_map_within {f : Tree → Except FileError Tree}
    (h : (d.within path f).map entries = .ok d') :
    Path.fault? path = none ∧ ∃ t t', d = entries t ∧ f t = .ok t' ∧ d' = entries t' := by
  cases hwithin : d.within path f with
  | error e =>
    rw [hwithin] at h
    cases h
  | ok t' =>
    rw [hwithin] at h
    obtain ⟨hfault, t, ht, hf⟩ := within_eq_ok.1 hwithin
    exact ⟨hfault, t, t', ht, hf, (Except.ok.inj h).symm⟩

theorem writeFile_eq_ok (h : d.writeFile dir name content = .ok d') :
    Path.fault? (Path.join dir name) = none ∧
      ∃ t t', d = entries t ∧ t.write name content = .ok t' ∧ d' = entries t' :=
  exists_of_map_within h

theorem rename_eq_ok (h : d.rename dir name other = .ok d') :
    Path.fault? (Path.join dir other) = none ∧
      ∃ t t', d = entries t ∧ t.rename name other = .ok t' ∧ d' = entries t' := by
  rw [rename] at h
  split at h
  · cases h
  · exact exists_of_map_within h

end Directory

namespace FileStore

variable {store : FileStore} {key key' : String} {value : Bytes} {d d' : Directory} {t : Tree}

/-! ### Names of files -/

theorem isNameChar_of_mem_stem {c : Char} (h : c ∈ (stem key).toList) : isNameChar c = true := by
  rw [stem, String.toList_ofList] at h
  obtain ⟨c', -, rfl⟩ := List.mem_map.1 h
  split
  · assumption
  · rfl

/-- A stem and more of such characters, three at least, name an entry. -/
theorem isEntryName_stem_append (key : String) {tail : String} (hlength : 2 < tail.length)
    (h : tail.toList.all isNameChar = true) : Path.IsEntryName (stem key ++ tail) := by
  have hlong : ∀ name : String, name.length ≤ 2 → stem key ++ tail ≠ name := by
    rintro name hname rfl
    rw [String.length_append] at hname
    omega
  refine ⟨hlong _ (by decide), hlong _ (by decide), hlong _ (by decide), fun hslash => ?_⟩
  have hchar : isNameChar '/' = true := by
    rw [String.toList_append] at hslash
    rcases List.mem_append.1 hslash with hstem | htail
    · exact isNameChar_of_mem_stem hstem
    · exact List.all_eq_true.1 h _ htail
  cases hchar

theorem isEntryName_fileName (key : String) : Path.IsEntryName (fileName key) :=
  isEntryName_stem_append key (by decide) (by decide)

/-- Two keys share a file exactly if they are written alike in file names. -/
theorem fileName_eq_iff : fileName key = fileName key' ↔ stem key = stem key' := by
  rw [fileName, fileName, ← String.toList_inj, String.toList_append, String.toList_append,
    List.append_cancel_right_eq, String.toList_inj]

/-- A key is a lone point if it is written as one in file names. -/
theorem stem_eq_dot_iff : stem key = "." ↔ key = "." := by
  constructor
  · intro h
    have hmap := congrArg String.toList h
    rw [stem, String.toList_ofList] at hmap
    obtain ⟨c, hkey, hc⟩ := List.map_eq_singleton_iff.1 hmap
    have hdot : c = '.' := by
      by_cases hname : isNameChar c = true
      · rwa [if_pos hname] at hc
      · rw [if_neg hname] at hc
        cases hc
    rw [← String.toList_inj, hkey, hdot]
    rfl
  · rintro rfl
    rfl

/-- The name of the temporary file of every key but a lone point is that of an entry. -/
theorem isEntryName_tempName (h : key ≠ ".") : Path.IsEntryName (tempName key) := by
  rw [tempName, if_neg (mt stem_eq_dot_iff.1 h)]
  by_cases hs : stem key = ""
  · rw [if_pos hs]
    have hname : Path.IsEntryName (stem key ++ ".json.json.tmp") :=
      isEntryName_stem_append key (by decide) (by decide)
    rwa [hs, String.empty_append] at hname
  · rw [if_neg hs]
    exact isEntryName_stem_append key (by decide) (by decide)

/-- A temporary file is the file of no key: their names end differently. -/
theorem tempName_ne_fileName (key key' : String) : tempName key ≠ fileName key' := by
  intro heq
  have hlast : (fileName key').toList.getLast? = some 'n' := by
    simp [fileName, String.toList_append, List.getLast?_append]
  -- The names of files end in `n`, those of temporary files in `p` or in a point.
  rw [← heq, tempName] at hlast
  split at hlast
  · simp at hlast
  split at hlast
  · simp at hlast
  · simp [String.toList_append, List.getLast?_append] at hlast

/-- The temporary name is that of an entry, or of the directory above. -/
theorem isEntryName_or_tempName_eq (key : String) :
    Path.IsEntryName (tempName key) ∨ tempName key = ".." := by
  by_cases hkey : key = "."
  · exact .inr (hkey ▸ rfl)
  · exact .inl (isEntryName_tempName hkey)

/-- What is written under the temporary name is written in an entry. -/
theorem isEntryName_of_write {content : Bytes} {t' : Tree}
    (h : t.write (tempName key) content = .ok t') : Path.IsEntryName (tempName key) := by
  refine (isEntryName_or_tempName_eq key).resolve_right fun hpoints => ?_
  rw [hpoints, Tree.write, Tree.find_points] at h
  cases h

/-! ### Reading -/

/-- A key reads the same in directories in which its file does. -/
theorem read_congr {t' : Tree} (h : t'.read (fileName key) = t.read (fileName key)) :
    store.read key (.entries t') = store.read key (.entries t) := by
  simp only [read, Directory.readFile, Directory.within, h]

/-- A key reads what its file does, if its path is right. -/
theorem read_of_tree (hpath : Path.fault? (Path.join store.dir (fileName key)) = none)
    (h : t.read (fileName key) = .ok value) : store.read key (.entries t) = .ok (some value) := by
  simp only [read, Directory.readFile, Directory.within, hpath, h]

/-! ### Writes with failures -/

/-- A failure of the operating system in one step of a write, with its message. -/
inductive Fault
  /-- The directory is not created. -/
  | ensure (message : String)
  /-- The temporary file is not opened. -/
  | openFile (message : String)
  /-- The temporary file is left with some content, perhaps a part of the value. -/
  | writeFile (message : String) (content : Bytes)
  /-- The temporary file is not renamed. -/
  | rename (message : String)
  deriving DecidableEq, Repr

/-- The directory, created if it is not there. -/
def ensureUnder (store : FileStore) (fault : Option Fault) (d : Directory) :
    Except DbError Unit × Directory :=
  match fault with
  | some (.ensure message) => (.error (.store message), d)
  | _ =>
    match store.ensure d with
    | (.error e, d) => (.error (storeError e), d)
    | (.ok _, d) => (.ok (), d)

/-- The directory with the temporary file. -/
def fillUnder (store : FileStore) (fault : Option Fault) (key : String) (value : Bytes)
    (d : Directory) : Except DbError Unit × Directory :=
  match fault with
  | some (.openFile message) => (.error (.store message), d)
  | some (.writeFile message content) =>
    match d.writeFile store.dir (tempName key) content with
    | .error e => (.error (storeError e), d)
    | .ok d => (.error (.store message), d)
  | _ =>
    match d.writeFile store.dir (tempName key) value with
    | .error e => (.error (storeError e), d)
    | .ok d => (.ok (), d)

/-- The directory with the temporary file in the place of the file of the key. -/
def renameUnder (store : FileStore) (fault : Option Fault) (key : String) (d : Directory) :
    Except DbError Unit × Directory :=
  match fault with
  | some (.rename message) => (.error (.store message), d)
  | _ =>
    match d.rename store.dir (tempName key) (fileName key) with
    | .error e => (.error (storeError e), d)
    | .ok d => (.ok (), d)

/-- The directory with the value of a key, written while one step may fail. -/
def writeUnder (store : FileStore) (fault : Option Fault) (key : String) (value : Bytes)
    (d : Directory) : Except DbError Unit × Directory :=
  match store.ensureUnder fault d with
  | (.error e, d) => (.error e, d)
  | (.ok _, d) =>
    match store.fillUnder fault key value d with
    | (.error e, d) => (.error e, d)
    | (.ok _, d) => store.renameUnder fault key d

/-- Without a failure this is a write. -/
theorem writeUnder_none (store : FileStore) (key : String) (value : Bytes) (d : Directory) :
    store.writeUnder none key value d = store.write key value d := by
  simp only [writeUnder, write, ensureUnder, fillUnder, renameUnder]
  rcases store.ensure d with ⟨_ | _, d₁⟩
  · rfl
  · dsimp only
    cases d₁.writeFile store.dir (tempName key) value <;> rfl

variable {fault : Option Fault} {e : DbError}

theorem ensureUnder_none (store : FileStore) (d : Directory) :
    (store.ensureUnder none d).2 = (store.ensure d).2 := by
  simp only [ensureUnder]
  rcases store.ensure d with ⟨_ | _, _⟩ <;> rfl

/-- Either nothing is done to create the directory, or all that can be done. -/
theorem ensureUnder_eq_or (store : FileStore) (fault : Option Fault) (d : Directory) :
    (store.ensureUnder fault d).2 = d ∨ (store.ensureUnder fault d).2 = d.ensure.2 := by
  have hensure : (store.ensure d).2 = d ∨ (store.ensure d).2 = d.ensure.2 := by
    rw [ensure]
    split
    · exact .inl rfl
    split
    · exact .inl rfl
    · exact .inr rfl
  rw [ensureUnder.eq_def]
  split
  · exact .inl rfl
  · split <;> simp_all

theorem fillUnder_error (h : store.fillUnder fault key value d = (.error e, d')) :
    d' = d ∨ ∃ content, d.writeFile store.dir (tempName key) content = .ok d' := by
  unfold fillUnder at h
  split at h
  · exact .inl (Prod.mk.inj h).2.symm
  · rename_i content
    split at h
    · exact .inl (Prod.mk.inj h).2.symm
    · rename_i hwrite
      exact .inr ⟨content, (Prod.mk.inj h).2 ▸ hwrite⟩
  · split at h
    · exact .inl (Prod.mk.inj h).2.symm
    · cases (Prod.mk.inj h).1

theorem fillUnder_ok (h : store.fillUnder fault key value d = (.ok (), d')) :
    d.writeFile store.dir (tempName key) value = .ok d' := by
  unfold fillUnder at h
  split at h
  · cases (Prod.mk.inj h).1
  · split at h <;> cases (Prod.mk.inj h).1
  · split at h
    · cases (Prod.mk.inj h).1
    · rename_i hwrite
      exact (Prod.mk.inj h).2 ▸ hwrite

theorem renameUnder_error (h : store.renameUnder fault key d = (.error e, d')) : d' = d := by
  unfold renameUnder at h
  split at h
  · exact (Prod.mk.inj h).2.symm
  · split at h
    · exact (Prod.mk.inj h).2.symm
    · cases (Prod.mk.inj h).1

theorem renameUnder_ok (h : store.renameUnder fault key d = (.ok (), d')) :
    d.rename store.dir (tempName key) (fileName key) = .ok d' := by
  unfold renameUnder at h
  split at h
  · cases (Prod.mk.inj h).1
  · split at h
    · cases (Prod.mk.inj h).1
    · rename_i hrename
      exact (Prod.mk.inj h).2 ▸ hrename

/-- What a write does to the directory `ready` that is there once it was to be created. -/
inductive Written (store : FileStore) (key : String) (value : Bytes) (ready : Directory) :
    Except DbError Unit × Directory → Prop
  /-- It fails before anything is written. -/
  | unwritten (e : DbError) : Written store key value ready (.error e, ready)
  /-- It fails when something, perhaps not all, is written under the temporary name. -/
  | left (e : DbError) {t t' : Tree} {content : Bytes} (hready : ready = .entries t)
      (write : t.write (tempName key) content = .ok t') :
      Written store key value ready (.error e, .entries t')
  /-- The value is written under the temporary name, which is replaced by that of the key. -/
  | moved {t t₁ t₂ : Tree} (hready : ready = .entries t)
      (write : t.write (tempName key) value = .ok t₁)
      (rename : t₁.rename (tempName key) (fileName key) = .ok t₂)
      (path : Path.fault? (Path.join store.dir (tempName key)) = none)
      (path' : Path.fault? (Path.join store.dir (fileName key)) = none) :
      Written store key value ready (.ok (), .entries t₂)

/-- A write fails in one of its steps, or does all of them. -/
theorem writeUnder_written (store : FileStore) (fault : Option Fault) (key : String)
    (value : Bytes) (d : Directory) :
    store.Written key value (store.ensureUnder fault d).2
      (store.writeUnder fault key value d) := by
  rw [writeUnder]
  rcases store.ensureUnder fault d with ⟨e | _, ready⟩
  · exact .unwritten e
  dsimp only
  rcases hfill : store.fillUnder fault key value ready with ⟨e | _, d₁⟩
  · rcases fillUnder_error hfill with rfl | ⟨content, hfile⟩
    · exact .unwritten e
    · obtain ⟨-, t, t', ht, hwrite, rfl⟩ := Directory.writeFile_eq_ok hfile
      exact .left e ht hwrite
  · obtain ⟨hpath, t, t₁, ht, hwrite, rfl⟩ := Directory.writeFile_eq_ok (fillUnder_ok hfill)
    dsimp only
    rcases hrename : store.renameUnder fault key (.entries t₁) with ⟨e | _, d₂⟩
    · obtain rfl := renameUnder_error hrename
      exact .left e ht hwrite
    · obtain ⟨hpath', t₁', t₂, ht₁, hrename, rfl⟩ :=
        Directory.rename_eq_ok (renameUnder_ok hrename)
      obtain rfl := Directory.entries.inj ht₁
      exact .moved ht hwrite hrename hpath hpath'

/-! ### Directories without links -/

theorem tree?_ensureUnder (store : FileStore) (fault : Option Fault) (d : Directory) :
    (store.ensureUnder fault d).2.tree? = d.tree? := by
  rcases store.ensureUnder_eq_or fault d with h | h
  · rw [h]
  · rw [h, d.tree?_ensure]

/-- A write makes no link. -/
theorem isPlain_write (store : FileStore) (key : String) (value : Bytes) {d : Directory}
    (h : d.IsPlain) : (store.write key value d).2.IsPlain := by
  have hwritten := store.writeUnder_written none key value d
  rw [writeUnder_none] at hwritten
  have hready : (store.ensureUnder none d).2.IsPlain := by
    rw [Directory.IsPlain, store.tree?_ensureUnder]
    exact h
  generalize store.write key value d = result at hwritten
  cases hwritten with
  | unwritten e => exact hready
  | left e ht hwrite =>
    rw [ht, Directory.isPlain_entries] at hready
    exact Directory.isPlain_entries.2 (hready.write hwrite)
  | moved ht hwrite hrename =>
    rw [ht, Directory.isPlain_entries] at hready
    exact Directory.isPlain_entries.2 ((hready.write hwrite).rename hrename)

/-- The value that the file of a key holds. -/
def value? (key : String) (d : Directory) : Option Bytes :=
  d.tree?.bind fun t => (t.read (fileName key)).toOption

theorem value?_absent (key : String) : value? key .absent = none := by
  have hname := isEntryName_fileName key
  show (Tree.empty.read (fileName key)).toOption = none
  rw [Tree.read]
  cases hlong : Path.isTooLong (fileName key) with
  | true => rw [Tree.find_of_long hname hlong]; rfl
  | false => rw [Tree.find_of_none hname hlong rfl]; rfl

/-- What is read in a directory that is there, or in one without a value for the key, is the value
that the file of the key holds. -/
theorem read_eq_ok {v : Option Bytes} (h : store.read key d = .ok v)
    (hd : (∃ t, d = .entries t) ∨ value? key d = none) : v = value? key d := by
  rw [read] at h
  cases hfile : d.readFile store.dir (fileName key) with
  | ok content =>
    obtain ⟨-, t, rfl, hread⟩ := Directory.within_eq_ok.1 hfile
    rw [hfile] at h
    rw [← Except.ok.inj h]
    simp [value?, Directory.tree?, hread, Except.toOption]
  | error e =>
    rw [hfile] at h
    cases e with
    | notFound =>
      rw [← Except.ok.inj h]
      rcases hd with ⟨t, rfl⟩ | hnone
      · have hread := Directory.of_within_eq_notFound hfile
        simp [value?, Directory.tree?, hread, Except.toOption]
      · exact hnone.symm
    | _ => cases h

/-- A write that succeeds leaves the value in the file of its key, and changes no other key's
file. -/
theorem read_of_write (hplain : d.IsPlain) (h : store.write key value d = (.ok (), d')) :
    ∃ t t', d.tree? = some t ∧ d' = .entries t' ∧
      Path.fault? (Path.join store.dir (fileName key)) = none ∧
      t'.read (fileName key) = .ok value ∧
      ∀ key', stem key' ≠ stem key → t'.read (fileName key') = t.read (fileName key') := by
  have hwritten := store.writeUnder_written none key value d
  rw [writeUnder_none, h] at hwritten
  have htree := store.tree?_ensureUnder none d
  cases hwritten with
  | @moved t t₁ t₂ ht hwrite hrename _ hfault =>
    have hd : d.tree? = some t := by rw [← htree, ht]; rfl
    have ht := hplain t hd
    have htemp := isEntryName_of_write hwrite
    have hname := isEntryName_fileName key
    refine ⟨t, t₂, hd, rfl, hfault, ?_, fun key' hkey => ?_⟩
    · exact Tree.read_write_rename htemp hname hwrite hrename
        ⟨ht.not_leadsOver htemp _, ht.not_leadsOver htemp _⟩
    · have hname' := isEntryName_fileName key'
      exact Tree.read_write_rename_of_ne hwrite hrename
        (ht.not_reaches htemp hname' (tempName_ne_fileName key key'))
        (ht.not_mem_wayOf hname' (tempName_ne_fileName key key'))
        (ht.not_mem_wayOf hname' fun he => hkey (fileName_eq_iff.1 he).symm)

/-- A write that succeeds changes the value of the keys that share the file of its key, and of no
other. -/
theorem value?_write (hplain : d.IsPlain) (h : store.write key value d = (.ok (), d'))
    (key' : String) :
    value? key' d' = if stem key' = stem key then some value else value? key' d := by
  obtain ⟨t, t', htree, rfl, -, hread, hothers⟩ := read_of_write hplain h
  rw [value?, value?, htree]
  by_cases hkey : stem key' = stem key
  · rw [if_pos hkey, fileName_eq_iff.2 hkey]
    simp [Directory.tree?, hread, Except.toOption]
  · rw [if_neg hkey]
    simp [Directory.tree?, hothers key' hkey]

/-- Values in files of a directory without links are read back. -/
theorem keeps (store : FileStore) :
    (store.access.restrict Directory.IsPlain fun _ => store.isPlain_write).Keeps () := by
  intro key value d d' h
  obtain ⟨hok, hd'⟩ := Prod.mk.inj h
  have hwrite : store.write key value d.1 = (.ok (), d'.1) :=
    Prod.ext hok (congrArg Subtype.val hd')
  obtain ⟨t, t', -, ht', hfault, hread, -⟩ := read_of_write d.2 hwrite
  show store.read key d'.1 = _
  rw [ht']
  exact read_of_tree hfault hread

end FileStore

end BoundSql
