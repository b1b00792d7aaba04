/-
# Creating a backup

Model of `NewManager`, `Manager.Backup`, `addFileToTar` and `cleanupOldBackups` in
`internal/backup/backup.go`, over the tree of files below the configuration directory.  The
compressed archive is the list of its entries.

`Forest.mem_visits_iff` says which files `filepath.Walk` gets to, and with which paths,
`shouldBackup_iff` which names are saved, and `pack_eq_some_iff` when the files can be added to the
archive, and what is then in it.
-/
import IPShadowT.Bytes
import IPShadowT.LexicalPath

open LexicalPath

namespace Backup

/-! ## The tree below the configuration directory -/

/-- A directory entry that is not a directory.  What reading it gives is `none` where opening or
reading it fails or does not end. -/
inductive Leaf where
  | regular (content : Bytes) (readable : Bool)
  | irregular (size : ℕ) (read : Option Bytes)
  deriving DecidableEq, Repr

/-- The size that `Lstat` reports. -/
def Leaf.size : Leaf → ℕ
  | regular content _ => content.length
  | irregular size _ => size

/-- What is read when it is opened. -/
def Leaf.read : Leaf → Option Bytes
  | regular content readable => if readable then some content else none
  | irregular _ read => read

/-- The content of a readable regular file. -/
def Leaf.content? : Leaf → Option Bytes
  | regular content readable => if readable then some content else none
  | irregular _ _ => none

theorem Leaf.read_of_content? {l : Leaf} {c : Bytes} (h : l.content? = some c) :
    l.read = some c ∧ l.size = c.length := by
  cases l with
  | irregular size read => cases h
  | regular content readable =>
    refine ⟨h, ?_⟩
    cases readable with
    | false => cases h
    | true => exact congrArg List.length (Option.some.inj h)

/-- A row of directory entries, in the order in which they are visited. -/
inductive Forest where
  | nil
  | leaf (name : Path) (l : Leaf) (siblings : Forest)
  | dir (name : Path) (listable : Bool) (children siblings : Forest)
  deriving DecidableEq, Repr

/-- The names in a row. -/
def Forest.names : Forest → List Path
  | nil => []
  | leaf name _ siblings => name :: siblings.names
  | dir name _ _ siblings => name :: siblings.names

/-- Every name is one of a file, and no row has two entries of one name. -/
def Forest.Valid : Forest → Prop
  | nil => True
  | leaf name _ siblings => IsName name ∧ name ∉ siblings.names ∧ siblings.Valid
  | dir name _ children siblings =>
    IsName name ∧ name ∉ siblings.names ∧ children.Valid ∧ siblings.Valid

/-- What stands at the end of a list of names. -/
def Forest.leafAt : Forest → List Path → Option Leaf
  | nil, _ => none
  | leaf name l siblings, ns => if ns = [name] then some l else siblings.leafAt ns
  | dir name _ children siblings, ns =>
    if ns.head? = some name then children.leafAt ns.tail else siblings.leafAt ns

/-- All directories on the way can be listed. -/
def Forest.Listed : Forest → List Path → Prop
  | nil, _ => True
  | leaf name _ siblings, ns => ns = [name] ∨ siblings.Listed ns
  | dir name listable children siblings, ns =>
    if ns.head? = some name then listable = true ∧ children.Listed ns.tail
    else siblings.Listed ns

/-- The configuration directory. -/
structure Tree where
  listable : Bool
  entries : Forest
  valid : entries.Valid

/-- The content of the readable regular file at the end of a list of names. -/
def Tree.file? (t : Tree) (ns : List Path) : Option Bytes :=
  (t.entries.leafAt ns).bind Leaf.content?

/-- The configuration directory and all directories on the way can be listed. -/
def Tree.Listed (t : Tree) (ns : List Path) : Prop := t.listable = true ∧ t.entries.Listed ns

/-! ## `filepath.Walk` -/

/-- What the walk passes on of an entry that is not a directory: its names from the configuration
directory on, the last of which is that of its `FileInfo`, and its path. -/
structure Visit where
  names : List Path
  path : Path
  leaf : Leaf
  deriving DecidableEq, Repr

/-- The entries that are visited in a row.  The function does nothing for a directory, so the walk
goes on below it; a directory that cannot be listed is left out. -/
def Forest.visits (path : Path) (above : List Path) : Forest → List Visit
  | nil => []
  | leaf name l siblings =>
    ⟨above ++ [name], join path name, l⟩ :: siblings.visits path above
  | dir name listable children siblings =>
    (if listable then children.visits (join path name) (above ++ [name]) else []) ++
      siblings.visits path above

/-- `filepath.Walk` over the configuration directory. -/
def Tree.visits (configDir : Path) (t : Tree) : List Visit :=
  if t.listable then t.entries.visits configDir [] else []

section Forest

variable {f : Forest} {ns : List Path} {l : Leaf}

theorem Forest.exists_head_of_leafAt (h : f.leafAt ns = some l) :
    ∃ name ∈ f.names, ns.head? = some name := by
  induction f with
  | nil => cases h
  | leaf name l' siblings ih =>
    rw [leafAt] at h
    split_ifs at h with hns
    · exact ⟨name, List.mem_cons_self, by rw [hns]; rfl⟩
    · obtain ⟨x, hx, hhead⟩ := ih h
      exact ⟨x, List.mem_cons_of_mem name hx, hhead⟩
  | dir name listable children siblings _ ih =>
    rw [leafAt] at h
    split_ifs at h with hns
    · exact ⟨name, List.mem_cons_self, hns⟩
    · obtain ⟨x, hx, hhead⟩ := ih h
      exact ⟨x, List.mem_cons_of_mem name hx, hhead⟩

theorem Forest.head_ne_of_leafAt {name : Path} (hname : name ∉ f.names)
    (h : f.leafAt ns = some l) : ns.head? ≠ some name := by
  obtain ⟨x, hx, hhead⟩ := exists_head_of_leafAt h
  rw [hhead]
  rintro heq
  exact hname (Option.some.inj heq ▸ hx)

theorem Forest.ne_nil_of_leafAt (h : f.leafAt ns = some l) : ns ≠ [] := by
  obtain ⟨x, -, hhead⟩ := exists_head_of_leafAt h
  rintro rfl
  cases hhead

theorem Forest.isName_of_leafAt (hf : f.Valid) (h : f.leafAt ns = some l) : ∀ e ∈ ns, IsName e := by
  induction f generalizing ns with
  | nil => cases h
  | leaf name l' siblings ih =>
    rw [leafAt] at h
    split_ifs at h with hns
    · subst hns
      exact List.forall_mem_singleton.2 hf.1
    · exact ih hf.2.2 h
  | dir name listable children siblings ihc ihs =>
    rw [leafAt] at h
    split_ifs at h with hns
    · obtain ⟨rest, rfl⟩ := List.head?_eq_some_iff.1 hns
      exact List.forall_mem_cons.2 ⟨hf.1, ihc hf.2.2.1 h⟩
    · exact ihs hf.2.2.2 h

/-- **No file stands below another.** -/
theorem Forest.eq_of_prefix (hf : f.Valid) {ns' : List Path} {l' : Leaf}
    (h : f.leafAt ns = some l) (h' : f.leafAt ns' = some l') (hpre : ns <+: ns') : ns = ns' := by
  induction f generalizing ns ns' with
  | nil => cases h
  | leaf name l₀ siblings ih =>
    obtain ⟨x, rest, rfl⟩ := List.exists_cons_of_ne_nil (ne_nil_of_leafAt h)
    obtain ⟨rest', rfl, -⟩ := List.cons_prefix_iff.1 hpre
    rw [leafAt] at h h'
    split_ifs at h with hns
    · split_ifs at h' with hns'
      · rw [hns, hns']
      · exact absurd (congrArg some (List.cons.inj hns).1) (head_ne_of_leafAt hf.2.1 h')
    · split_ifs at h' with hns'
      · exact absurd (congrArg some (List.cons.inj hns').1) (head_ne_of_leafAt hf.2.1 h)
      · exact ih hf.2.2 h h' hpre
  | dir name listable children siblings ihc ihs =>
    obtain ⟨x, rest, rfl⟩ := List.exists_cons_of_ne_nil (ne_nil_of_leafAt h)
    obtain ⟨rest', rfl, hrest⟩ := List.cons_prefix_iff.1 hpre
    rw [leafAt] at h h'
    by_cases hx : (x :: rest).head? = some name
    · rw [if_pos hx] at h
      rw [if_pos (show (x :: rest').head? = some name from hx)] at h'
      exact congrArg (x :: ·) (ihc hf.2.2.1 h h' hrest)
    · rw [if_neg hx] at h
      rw [if_neg (show (x :: rest').head? ≠ some name from hx)] at h'
      exact ihs hf.2.2.2 h h' hpre

/-- The walk gets to the file at the end of a list of names. -/
def Forest.Reaches (f : Forest) (ns : List Path) (l : Leaf) : Prop :=
  f.Listed ns ∧ f.leafAt ns = some l

theorem Forest.reaches_leaf_iff {name : Path} {l₀ : Leaf} {siblings : Forest}
    (hname : name ∉ siblings.names) :
    (leaf name l₀ siblings).Reaches ns l ↔ (ns = [name] ∧ l = l₀) ∨ siblings.Reaches ns l := by
  unfold Reaches
  rw [Listed, leafAt]
  by_cases hns : ns = [name]
  · rw [if_pos hns]
    constructor
    · exact fun h => .inl ⟨hns, (Option.some.inj h.2).symm⟩
    · rintro (⟨-, rfl⟩ | ⟨-, hleaf⟩)
      · exact ⟨.inl hns, rfl⟩
      · exact absurd (by rw [hns]; rfl) (head_ne_of_leafAt hname hleaf)
  · rw [if_neg hns, or_iff_right hns, or_iff_right fun h => hns h.1]

theorem Forest.reaches_dir_iff {name : Path} {listable : Bool} {children siblings : Forest}
    (hname : name ∉ siblings.names) :
    (dir name listable children siblings).Reaches ns l ↔
      (∃ rest, ns = name :: rest ∧ listable = true ∧ children.Reaches rest l) ∨
        siblings.Reaches ns l := by
  unfold Reaches
  rw [Listed, leafAt]
  by_cases hhead : ns.head? = some name
  · obtain ⟨rest, rfl⟩ := List.head?_eq_some_iff.1 hhead
    rw [if_pos hhead, if_pos hhead]
    constructor
    · exact fun ⟨⟨hlist, hlisted⟩, hleaf⟩ => .inl ⟨rest, rfl, hlist, hlisted, hleaf⟩
    · rintro (⟨rest', heq, hlist, hlisted, hleaf⟩ | ⟨-, hleaf⟩)
      · obtain rfl := (List.cons.inj heq).2
        exact ⟨⟨hlist, hlisted⟩, hleaf⟩
      · exact absurd hhead (head_ne_of_leafAt hname hleaf)
  · rw [if_neg hhead, if_neg hhead, or_iff_right]
    rintro ⟨rest, rfl, -⟩
    exact hhead List.head?_cons

/-- **What is visited**: the files that the walk gets to, each with the path that joins its
names. -/
theorem Forest.mem_visits_iff (hf : f.Valid) {path : Path} {above : List Path} {v : Visit} :
    v ∈ f.visits path above ↔
      ∃ ns l, f.Reaches ns l ∧ v = ⟨above ++ ns, ns.foldl join path, l⟩ := by
  induction f generalizing path above with
  | nil => exact ⟨nofun, fun ⟨_, _, h, _⟩ => nomatch h.2⟩
  | leaf name l₀ siblings ih =>
    rw [visits, List.mem_cons, ih hf.2.2]
    simp only [reaches_leaf_iff hf.2.1]
    constructor
    · rintro (rfl | ⟨ns, l, hreach, rfl⟩)
      · exact ⟨[name], l₀, .inl ⟨rfl, rfl⟩, rfl⟩
      · exact ⟨ns, l, .inr hreach, rfl⟩
    · rintro ⟨ns, l, ⟨rfl, rfl⟩ | hreach, rfl⟩
      · exact .inl rfl
      · exact .inr ⟨ns, l, hreach, rfl⟩
  | dir name listable children siblings ihc ihs =>
    have hchildren : v ∈ (if listable then children.visits (join path name) (above ++ [name])
        else []) ↔ ∃ ns l, listable = true ∧ children.Reaches ns l ∧
          v = ⟨above ++ name :: ns, (name :: ns).foldl join path, l⟩ := by
      cases listable with
      | false => exact ⟨nofun, fun ⟨_, _, h, _⟩ => nomatch h⟩
      | true =>
        rw [if_pos rfl, ihc hf.2.2.1]
        simp only [true_and, List.append_assoc, List.singleton_append, List.foldl_cons]
    rw [visits, List.mem_append, hchildren, ihs hf.2.2.2]
    simp only [reaches_dir_iff hf.2.1]
    constructor
    · rintro (⟨ns, l, hlist, hreach, rfl⟩ | ⟨ns, l, hreach, rfl⟩)
      · exact ⟨name :: ns, l, .inl ⟨ns, rfl, hlist, hreach⟩, rfl⟩
      · exact ⟨ns, l, .inr hreach, rfl⟩
    · rintro ⟨ns, l, ⟨rest, rfl, hlist, hreach⟩ | hreach, rfl⟩
      · exact .inl ⟨rest, l, hlist, hreach, rfl⟩
      · exact .inr ⟨ns, l, hreach, rfl⟩

/-- No file is visited twice. -/
theorem Forest.nodup_visits (hf : f.Valid) (path : Path) (above : List Path) :
    ((f.visits path above).map Visit.names).Nodup := by
  induction f generalizing path above with
  | nil => exact List.nodup_nil
  | leaf name l₀ siblings ih =>
    rw [visits, List.map_cons, List.nodup_cons]
    refine ⟨?_, ih hf.2.2 path above⟩
    intro hmem
    obtain ⟨v, hv, hnames⟩ := List.mem_map.1 hmem
    obtain ⟨ns, l, ⟨-, hleaf⟩, rfl⟩ := (mem_visits_iff hf.2.2).1 hv
    have hns : ns = [name] := List.append_cancel_left hnames
    exact head_ne_of_leafAt hf.2.1 hleaf (by rw [hns]; rfl)
  | dir name listable children siblings ihc ihs =>
    rw [visits, List.map_append, List.nodup_append]
    refine ⟨?_, ihs hf.2.2.2 path above, ?_⟩
    · cases listable with
      | false => exact List.nodup_nil
      | true => exact ihc hf.2.2.1 (join path name) (above ++ [name])
    · -- what is visited below the directory has its name first, what is beside it has not
      intro x hx y hy hxy
      obtain ⟨w, hw, rfl⟩ := List.mem_map.1 hy
      obtain ⟨ns', l', ⟨-, hleaf'⟩, rfl⟩ := (mem_visits_iff hf.2.2.2).1 hw
      obtain ⟨v, hv, rfl⟩ := List.mem_map.1 hx
      cases listable with
      | false => cases hv
      | true =>
        obtain ⟨ns, l, -, rfl⟩ := (mem_visits_iff hf.2.2.1).1 hv
        have hns' : name :: ns = ns' := by
          rw [List.append_assoc] at hxy
          exact List.append_cancel_left hxy
        exact head_ne_of_leafAt hf.2.1 hleaf' (by rw [← hns']; rfl)

end Forest

/-! ## `Backup` -/

/-- The errors of `NewManager` and `Backup`. -/
inductive BackupError where
  | dir
  | create
  | walk
  deriving DecidableEq, Repr

/-- The text of an error, up to the error it passes on. -/
def BackupError.text : BackupError → String
  | dir => "failed to create backup dir: "
  | create => "failed to create backup file: "
  | walk => "backup failed: "

/-- `Config`, without what only the automatic backup reads. -/
structure Config where
  configDir : Path
  backupDir : Path
  maxBackups : ℤ

/-- `Manager`. -/
structure Manager where
  configDir : Path
  backupDir : Path
  maxBackups : ℤ
  configDir_ne_nil : configDir ≠ []

/-- The configuration directory of a `Manager`. -/
def Config.dir (cfg : Config) : Path :=
  if cfg.configDir = [] then "/etc/ipshadowt".toList else cfg.configDir

theorem Config.dir_ne_nil (cfg : Config) : cfg.dir ≠ [] := by
  unfold dir
  split_ifs with h
  · decide
  · exact h

/-- `NewManager`. -/
def newManager (cfg : Config) (mkdirFails : Bool) : Except BackupError Manager :=
  if mkdirFails then .error .dir
  else .ok {
    configDir := cfg.dir
    backupDir := if cfg.backupDir = [] then join cfg.dir "backups".toList else cfg.backupDir
    maxBackups := if cfg.maxBackups = 0 then 10 else cfg.maxBackups
    configDir_ne_nil := cfg.dir_ne_nil }

/-- `filepath.Match` for a name without separators and a pattern whose only special character is
the star. -/
def matchName : Path → Path → Bool
  | [], name => name = []
  | c :: pattern, name =>
    if c = '*' then name.tails.any (matchName pattern)
    else decide (name.head? = some c) && matchName pattern name.tail

/-- The patterns of `Backup`. -/
def filesToBackup : List Path := ["config.toml".toList, "users.json".toList, "*.toml".toList]

/-- The test of `Backup` on the name of a file. -/
def shouldBackup (name : Path) : Bool :=
  filesToBackup.any (matchName · name) || decide (".json".toList <:+ name)

/-- The last of the names. -/
def fileName (ns : List Path) : Path := ns.getLastD []

/-- What the walk does not skip; `strings.HasPrefix` does not ask for a separator. -/
def Manager.selects (m : Manager) (v : Visit) : Bool :=
  decide (¬ m.backupDir <+: v.path) && shouldBackup (fileName v.names)

/-- A file in the archive; `complete` if all the bytes that its header announces are there. -/
structure TarEntry where
  name : Path
  content : Bytes
  complete : Bool
  deriving DecidableEq, Repr

/-- The name in the header. -/
def relPath (configDir path : Path) : Path := (rel configDir path).getD (base path)

/-- `addFileToTar`; the writer refuses bytes beyond the size in the header. -/
def addFileToTar (configDir : Path) (v : Visit) : Option TarEntry :=
  v.leaf.read.bind fun content =>
    if v.leaf.size < content.length then none
    else some ⟨relPath configDir v.path, content, decide (content.length = v.leaf.size)⟩

/-- The entries of the archive.  The writer refuses a header while bytes of the file before it are
missing; the error of the last `Close` is dropped. -/
def pack (configDir : Path) : List Visit → Option (List TarEntry)
  | [] => some []
  | v :: vs =>
    (addFileToTar configDir v).bind fun e =>
      if e.complete = false ∧ vs ≠ [] then none else (pack configDir vs).map (e :: ·)

/-- What the system answers to `Backup`: the time stamp, whether the file can be created, and the
paths that `ListBackups` returns afterwards. -/
structure Answers where
  timestamp : Path
  createFails : Bool
  backups : Option (List Path)

/-- The path of the archive. -/
def Manager.backupPath (m : Manager) (timestamp : Path) : Path :=
  join m.backupDir ("ipshadowt-backup-".toList ++ timestamp ++ ".tar.gz".toList)

/-- `cleanupOldBackups`: the paths that it removes.  Indices begin at `maxBackups`. -/
def Manager.cleanupOldBackups (m : Manager) (backups : Option (List Path)) :
    Go BackupError (List Path) :=
  match backups with
  | none => .ok []
  | some backups =>
    if (backups.length : ℤ) ≤ m.maxBackups then .ok []
    else if m.maxBackups < 0 then .error .panic
    else .ok (backups.drop m.maxBackups.toNat)

/-- `Backup`: the path it returns, and the archive that is found there, if it has not been
removed. -/
def Manager.backup (m : Manager) (t : Tree) (a : Answers) :
    Go BackupError (Path × Option (List TarEntry)) :=
  if a.createFails then .error (.error .create)
  else
    match pack m.configDir ((t.visits m.configDir).filter m.selects) with
    | none => .error (.error .walk)
    | some entries =>
      (m.cleanupOldBackups a.backups).map fun removed =>
        let path := m.backupPath a.timestamp
        (path, if path ∈ removed then none else some entries)

theorem matchName_iff (pattern : Path) (h : '*' ∉ pattern) (name : Path) :
    matchName pattern name = true ↔ name = pattern := by
  induction pattern generalizing name with
  | nil => simp [matchName]
  | cons c pattern ih =>
    obtain ⟨hc, hpattern⟩ := List.ne_and_not_mem_of_not_mem_cons h
    rw [matchName, if_neg (Ne.symm hc)]
    cases name with
    | nil => simp
    | cons d name => simp [ih hpattern]

theorem matchName_star_iff (pattern : Path) (h : '*' ∉ pattern) (name : Path) :
    matchName ('*' :: pattern) name = true ↔ pattern <:+ name := by
  rw [matchName, if_pos rfl, List.any_eq_true]
  constructor
  · rintro ⟨rest, hrest, hmatch⟩
    rw [matchName_iff pattern h] at hmatch
    exact hmatch ▸ (List.mem_tails _ _).1 hrest
  · intro hsuffix
    exact ⟨pattern, (List.mem_tails _ _).2 hsuffix, (matchName_iff pattern h _).2 rfl⟩

/-- **The names that are saved** are those that end in `.toml` or `.json`. -/
theorem shouldBackup_iff (name : Path) :
    shouldBackup name = true ↔ ".toml".toList <:+ name ∨ ".json".toList <:+ name := by
  have hconfig := matchName_iff "config.toml".toList (by decide) name
  have husers := matchName_iff "users.json".toList (by decide) name
  have hstar : matchName "*.toml".toList name = true ↔ ".toml".toList <:+ name :=
    matchName_star_iff ".toml".toList (by decide) name
  simp only [shouldBackup, filesToBackup, List.any_cons, List.any_nil, Bool.or_false,
    Bool.or_eq_true, decide_eq_true_iff, hconfig, husers, hstar]
  constructor
  · rintro ((rfl | rfl | htoml) | hjson)
    · exact .inl ⟨"config".toList, by decide⟩
    · exact .inr ⟨"users".toList, by decide⟩
    · exact .inl htoml
    · exact .inr hjson
  · rintro (htoml | hjson)
    · exact .inl (.inr (.inr htoml))
    · exact .inr hjson

/-- The entry of a file in the archive. -/
def tarEntry (configDir : Path) (v : Visit) : TarEntry :=
  ⟨relPath configDir v.path, v.leaf.read.getD [],
    decide ((v.leaf.read.getD []).length = v.leaf.size)⟩

/-- All can be read, none gives more bytes than its size, and only the last gives fewer. -/
structure Packable (vs : List Visit) : Prop where
  read : ∀ v ∈ vs, ∃ content, v.leaf.read = some content ∧ content.length ≤ v.leaf.size
  full : ∀ v ∈ vs.dropLast, ∀ content, v.leaf.read = some content → content.length = v.leaf.size

theorem addFileToTar_eq_some_iff {configDir : Path} {v : Visit} {e : TarEntry} :
    addFileToTar configDir v = some e ↔
      (∃ content, v.leaf.read = some content ∧ content.length ≤ v.leaf.size) ∧
        e = tarEntry configDir v := by
  unfold addFileToTar tarEntry
  cases v.leaf.read with
  | none => simp
  | some content =>
    by_cases hlen : v.leaf.size < content.length
    · simp [hlen, Nat.not_le.2 hlen]
    · simp [hlen, Nat.not_lt.1 hlen, eq_comm]

/-- All but the last. -/
theorem forall_mem_dropLast_cons {α : Type} {P : α → Prop} {x : α} {xs : List α} :
    (∀ y ∈ (x :: xs).dropLast, P y) ↔ (xs ≠ [] → P x) ∧ ∀ y ∈ xs.dropLast, P y := by
  cases xs with
  | nil => simp
  | cons y ys =>
    rw [List.dropLast_cons_of_ne_nil (List.cons_ne_nil y ys), List.forall_mem_cons]
    exact and_congr_left' ⟨fun h _ => h, fun h => h (List.cons_ne_nil y ys)⟩

theorem packable_cons_iff {v : Visit} {vs : List Visit} :
    Packable (v :: vs) ↔
      (∃ content, v.leaf.read = some content ∧ content.length ≤ v.leaf.size) ∧
        (vs ≠ [] → ∀ content, v.leaf.read = some content → content.length = v.leaf.size) ∧
        Packable vs := by
  constructor
  · rintro ⟨hread, hfull⟩
    obtain ⟨hv, hvs⟩ := List.forall_mem_cons.1 hread
    obtain ⟨hfullv, hfullvs⟩ := forall_mem_dropLast_cons.1 hfull
    exact ⟨hv, hfullv, hvs, hfullvs⟩
  · rintro ⟨hv, hfullv, hvs⟩
    exact ⟨List.forall_mem_cons.2 ⟨hv, hvs.read⟩, forall_mem_dropLast_cons.2 ⟨hfullv, hvs.full⟩⟩

theorem complete_tarEntry_iff (configDir : Path) {v : Visit} {content : Bytes}
    (hread : v.leaf.read = some content) :
    (tarEntry configDir v).complete = true ↔ content.length = v.leaf.size := by
  rw [tarEntry, hread]
  exact decide_eq_true_iff

/-- **When the archive can be written**, and what is then in it. -/
theorem pack_eq_some_iff {configDir : Path} {vs : List Visit} {es : List TarEntry} :
    pack configDir vs = some es ↔ Packable vs ∧ es = vs.map (tarEntry configDir) := by
  induction vs generalizing es with
  | nil =>
    rw [pack]
    exact ⟨fun h => ⟨⟨nofun, nofun⟩, (Option.some.inj h).symm⟩, fun h => congrArg some h.2.symm⟩
  | cons v vs ih =>
    rw [pack, Option.bind_eq_some_iff, packable_cons_iff]
    constructor
    · rintro ⟨e, hadd, hrest⟩
      obtain ⟨hread, rfl⟩ := addFileToTar_eq_some_iff.1 hadd
      split_ifs at hrest with hshort
      obtain ⟨es', hes', rfl⟩ := Option.map_eq_some_iff.1 hrest
      obtain ⟨hpack, rfl⟩ := ih.1 hes'
      refine ⟨⟨hread, fun hne content hcontent => ?_, hpack⟩, rfl⟩
      rw [← complete_tarEntry_iff configDir hcontent]
      exact Bool.eq_true_of_not_eq_false fun h => hshort ⟨h, hne⟩
    · rintro ⟨⟨hread, hfull, hpack⟩, rfl⟩
      refine ⟨tarEntry configDir v, addFileToTar_eq_some_iff.2 ⟨hread, rfl⟩, ?_⟩
      have hgo : ¬ ((tarEntry configDir v).complete = false ∧ vs ≠ []) := by
        rintro ⟨hfalse, hne⟩
        obtain ⟨content, hcontent, -⟩ := hread
        have hcomplete := (complete_tarEntry_iff configDir hcontent).2
          (hfull hne content hcontent)
        exact Bool.eq_false_iff.1 hfalse hcomplete
      rw [if_neg hgo, ih.2 ⟨hpack, rfl⟩]
      rfl

end Backup
