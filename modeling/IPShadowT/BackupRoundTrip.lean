/-
# Backup and restore

`Restore` with the contents of the files that it writes, and what becomes of a configuration
directory that is saved by `Backup` and restored after it has been emptied.

`roundTrip_iff` says which trees come back.  The tests on the texts of paths leave files out: one
whose path begins with the text of the backup directory is not in the archive
(`backups_toml_lost`).  `files_restore` is what `Restore` leaves behind, entry by entry.
-/
import IPShadowT.Backup
import IPShadowT.BackupWalk

open LexicalPath Runs

namespace Backup

/-! ## `Restore`, with the contents of the files -/

/-- A restore on its way, and the regular files by the elements of their absolute paths. -/
structure Disk where
  st : State
  files : List Path → Option Bytes

/-- What the file system answers when an entry is restored: a directory cannot be made at or below
a file, a file cannot be opened for writing where there is a directory, and nothing else fails. -/
def Disk.answer (configDir : Path) (d : Disk) (e : TarEntry) : Entry :=
  let target := targetPath configDir e.name
  let parent := resolve d.st.fs.cwd (dir target)
  { name := e.name
    mkdirFails :=
      if (List.range (parent.length + 1)).any fun n => (d.files (parent.take n)).isSome then some 0
      else none
    openFails := d.st.fs.isDir (resolve d.st.fs.cwd target)
    copyFails := !e.complete }

/-- A round of the loop of `Restore`.  The bytes of an entry that is not complete are written
before the copy fails. -/
def unpack (configDir : Path) (d : Disk) (e : TarEntry) : Disk :=
  let answer := d.answer configDir e
  let target := targetPath configDir e.name
  { st := step configDir d.st (.entry answer)
    files := fun x =>
      if (d.st.failed = none ∧ configDir <+: target ∧ answer.mkdirFails = none ∧
          answer.openFails = false) ∧ x = resolve d.st.fs.cwd target then some e.content
      else d.files x }

/-- `Backup`, and `Restore` of what it has written. -/
def Manager.roundTrip (m : Manager) (t : Tree) (a : Answers) (d : Disk) : Disk :=
  match m.backup t a with
  | .ok (_, some entries) => run (unpack m.configDir) d entries
  -- there is no archive to open
  | _ => d

/-- Two lists of names of which neither leads to the other. -/
def Apart (ns ns' : List Path) : Prop := ¬ ns <+: ns' ∧ ¬ ns' <+: ns

theorem Apart.symm {ns ns' : List Path} (h : Apart ns ns') : Apart ns' ns := ⟨h.2, h.1⟩

/-- Below the directory `c` there are only the files with the names `done`, and the directories on
the way to them. -/
structure Filled (c : List Path) (d : Disk) (done : List (List Path)) : Prop where
  files : ∀ x, d.files x ≠ none → Apart c x ∨ ∃ ns ∈ done, x = c ++ ns
  dirs : ∀ x ∈ d.st.fs.dirs, c <+: x → x = c ∨ ∃ ns ∈ done, x <+: c ++ ns

variable {v : Visit} {content : Bytes}

section Restore

variable {configDir : Path} {d : Disk} {done : List (List Path)} {ns : List Path} {e : TarEntry}

theorem targetPath_render (hdir : configDir ≠ []) (hne : ns ≠ []) (hns : ∀ x ∈ ns, IsName x) :
    targetPath configDir (render false ns) = ns.foldl join configDir := by
  have helem : ∀ x ∈ ns, IsElem x := fun x hx => (hns x hx).1
  have hnames : cleanElems false ns = ns :=
    cleanElems_append_names (dotDot_notMem_of_names hns) []
  have hclean : clean (render false ns) = render false ns := by
    rw [clean, rooted_render helem, elems_render helem, hnames]
  rw [targetPath, hclean, join_names hdir hns, foldl_join hdir hne hns]

theorem step_of_skip {s : State} {entry : Entry}
    (htest : ¬ configDir <+: targetPath configDir entry.name) :
    step configDir s (.entry entry) = s := by
  unfold step
  split_ifs
  · rfl
  · dsimp only
    rw [if_pos htest]

theorem step_of_write {s : State} {entry : Entry} (hs : s.failed = none)
    (htest : configDir <+: targetPath configDir entry.name) (hmkdir : entry.mkdirFails = none)
    (hopen : entry.openFails = false) :
    (step configDir s (.entry entry)).fs = s.fs.mkdir
        (s.fs.mkdirAll (resolve s.fs.cwd (dir (targetPath configDir entry.name))) none) ∧
      (entry.copyFails = false → (step configDir s (.entry entry)).failed = none) := by
  have hgo : ¬ s.failed.isSome = true := by rw [hs]; exact Bool.false_ne_true
  unfold step
  rw [if_neg hgo]
  dsimp only
  rw [if_neg (not_not.2 htest), hmkdir, hopen]
  cases entry.copyFails with
  | false => exact ⟨rfl, fun _ => hs⟩
  | true => exact ⟨rfl, nofun⟩

theorem unpack_of_skip (htest : ¬ configDir <+: targetPath configDir e.name) :
    unpack configDir d e = d := by
  have hst : step configDir d.st (.entry (d.answer configDir e)) = d.st := step_of_skip htest
  have hfiles : (unpack configDir d e).files = d.files := by
    funext x
    exact if_neg fun h => htest h.1.2.1
  exact congrArg₂ Disk.mk hst hfiles

/-- Nothing is in the way of a file whose names are apart from all that are there. -/
theorem Filled.answer (hfilled : Filled (resolve d.st.fs.cwd configDir) d done)
    (hdir : configDir ≠ []) (hne : ns ≠ []) (hns : ∀ x ∈ ns, IsName x)
    (hname : e.name = render false ns) (hapart : ∀ ns' ∈ done, Apart ns ns') :
    (d.answer configDir e).mkdirFails = none ∧ (d.answer configDir e).openFails = false := by
  have htarget := targetPath_render hdir hne hns
  unfold Disk.answer
  dsimp only
  rw [hname, htarget, resolve_foldl_join hdir hne hns, resolve_dir_foldl_join hdir hne hns]
  constructor
  · apply if_neg
    intro hany
    obtain ⟨n, -, hsome⟩ := List.any_eq_true.1 hany
    -- a file on the way would be comparable with the directory, so it is one of those written
    have hpre := List.take_prefix n (resolve d.st.fs.cwd configDir ++ ns.dropLast)
    rcases hfilled.files _ (Option.isSome_iff_ne_none.1 hsome) with hfar | ⟨ns', hmem, heq⟩
    · rcases List.prefix_or_prefix_of_prefix (List.prefix_append _ ns.dropLast) hpre with h | h
      · exact hfar.1 h
      · exact hfar.2 h
    · rw [heq, List.prefix_append_right_inj] at hpre
      exact (hapart ns' hmem).2 (hpre.trans (List.dropLast_prefix ns))
  · apply decide_eq_false
    intro hmem
    rcases hfilled.dirs _ hmem (List.prefix_append _ ns) with heq | ⟨ns', hmem', hpre⟩
    · exact hne (List.append_right_eq_self.1 heq)
    · exact (hapart ns' hmem').1 ((List.prefix_append_right_inj _).1 hpre)

/-- **An entry that passes the test is written.** -/
theorem unpack_of_write (hfailed : d.st.failed = none)
    (htest : configDir <+: targetPath configDir e.name)
    (hmkdir : (d.answer configDir e).mkdirFails = none)
    (hopen : (d.answer configDir e).openFails = false) :
    (∀ x, (unpack configDir d e).files x =
        if x = resolve d.st.fs.cwd (targetPath configDir e.name) then some e.content
        else d.files x) ∧
      (unpack configDir d e).st.fs = d.st.fs.mkdir
        (d.st.fs.mkdirAll (resolve d.st.fs.cwd (dir (targetPath configDir e.name))) none) ∧
      (e.complete = true → (unpack configDir d e).st.failed = none) := by
  obtain ⟨hfs, hcopy⟩ : (step configDir d.st (.entry (d.answer configDir e))).fs = d.st.fs.mkdir
        (d.st.fs.mkdirAll (resolve d.st.fs.cwd (dir (targetPath configDir e.name))) none) ∧
      ((!e.complete) = false →
        (step configDir d.st (.entry (d.answer configDir e))).failed = none) :=
    step_of_write hfailed htest hmkdir hopen
  refine ⟨fun x => ?_, hfs, fun hcomplete => hcopy ?_⟩
  · exact if_congr (and_iff_right ⟨hfailed, htest, hmkdir, hopen⟩) rfl rfl
  · rw [hcomplete]
    rfl

theorem Filled.mono {c : List Path} {done' : List (List Path)} (hfilled : Filled c d done)
    (hsub : done ⊆ done') : Filled c d done' := by
  constructor
  · intro x hx
    rcases hfilled.files x hx with hfar | ⟨ns, hmem, heq⟩
    · exact .inl hfar
    · exact .inr ⟨ns, hsub hmem, heq⟩
  · intro x hx hpre
    rcases hfilled.dirs x hx hpre with heq | ⟨ns, hmem, hns⟩
    · exact .inl heq
    · exact .inr ⟨ns, hsub hmem, hns⟩

/-- One more file, and the directories on the way to it. -/
theorem Filled.add {c : List Path} {d' : Disk} (hfilled : Filled c d done)
    (hfiles : ∀ x, d'.files x = if x = c ++ ns then some content else d.files x)
    (hfs : d'.st.fs = d.st.fs.mkdir (d.st.fs.mkdirAll (c ++ ns.dropLast) none)) :
    Filled c d' (ns :: done) := by
  have hold := hfilled.mono (List.subset_cons_self ns done)
  constructor
  · intro x hx
    rw [hfiles] at hx
    split_ifs at hx with heq
    · exact .inr ⟨ns, List.mem_cons_self, heq⟩
    · exact hold.files x hx
  · intro x hx hpre
    rw [hfs] at hx
    rcases List.mem_append.1 hx with hx | hmade
    · exact hold.dirs x hx hpre
    · have hfront : c ++ ns.dropLast <+: c ++ ns :=
        (List.prefix_append_right_inj c).2 (List.dropLast_prefix ns)
      exact .inr ⟨ns, List.mem_cons_self, (mem_mkdirAll hmade).1.trans hfront⟩

/-- What the walk over the configuration directory gives: the path joins the names. -/
structure Visit.Sound (configDir : Path) (v : Visit) : Prop where
  ne_nil : v.names ≠ []
  isName : ∀ x ∈ v.names, IsName x
  path_eq : v.path = v.names.foldl join configDir

theorem Visit.Sound.name_eq (hv : v.Sound configDir) (hdir : configDir ≠ []) :
    (tarEntry configDir v).name = render false v.names := by
  show relPath configDir v.path = _
  rw [relPath, hv.path_eq, rel_foldl_join hdir hv.ne_nil hv.isName]
  rfl

/-- **A round of `Restore`** for a file that is apart from all that are there: it is written if it
passes the test, and the directory stays in order. -/
theorem Filled.unpack_visit (hdir : configDir ≠ []) (hv : v.Sound configDir)
    (hfilled : Filled (resolve d.st.fs.cwd configDir) d done) (hfailed : d.st.failed = none)
    (hapart : ∀ ns ∈ done, Apart v.names ns) :
    Filled (resolve d.st.fs.cwd configDir) (unpack configDir d (tarEntry configDir v))
        (v.names :: done) ∧
      (∀ x, (unpack configDir d (tarEntry configDir v)).files x =
        if configDir <+: v.path ∧ x = resolve d.st.fs.cwd configDir ++ v.names
        then some (tarEntry configDir v).content else d.files x) ∧
      ((tarEntry configDir v).complete = true →
        (unpack configDir d (tarEntry configDir v)).st.failed = none) := by
  have hname := hv.name_eq hdir
  have htarget : targetPath configDir (tarEntry configDir v).name = v.path := by
    rw [hname, targetPath_render hdir hv.ne_nil hv.isName, hv.path_eq]
  by_cases htest : configDir <+: v.path
  · obtain ⟨hmkdir, hopen⟩ := hfilled.answer hdir hv.ne_nil hv.isName hname hapart
    obtain ⟨hfiles, hfs, hcopy⟩ :=
      unpack_of_write hfailed (htarget.symm ▸ htest) hmkdir hopen
    rw [htarget, hv.path_eq, resolve_dir_foldl_join hdir hv.ne_nil hv.isName] at hfs
    simp only [htarget, hv.path_eq, resolve_foldl_join hdir hv.ne_nil hv.isName] at hfiles
    simp only [htest, true_and]
    exact ⟨hfilled.add hfiles hfs, hfiles, hcopy⟩
  · have hskip : unpack configDir d (tarEntry configDir v) = d :=
      unpack_of_skip (htarget.symm ▸ htest)
    simp only [hskip, htest, false_and, if_false]
    exact ⟨hfilled.mono (List.subset_cons_self v.names done), fun _ => trivial, fun _ => hfailed⟩

/-- **What `Restore` leaves behind.**  Every entry that passes the test is written, and nothing
else in the directory changes. -/
theorem files_restore (hdir : configDir ≠ []) {vs : List Visit}
    (hsound : ∀ v ∈ vs, v.Sound configDir)
    (hapart : vs.Pairwise fun v w => Apart v.names w.names)
    (hfull : ∀ v ∈ vs.dropLast, (tarEntry configDir v).complete = true)
    (hfilled : Filled (resolve d.st.fs.cwd configDir) d done)
    (hdone : ∀ v ∈ vs, ∀ ns ∈ done, Apart v.names ns) (hgo : d.st.failed = none ∨ vs = []) :
    (∀ ns, (∀ v ∈ vs, configDir <+: v.path → v.names ≠ ns) →
      (run (unpack configDir) d (vs.map (tarEntry configDir))).files
        (resolve d.st.fs.cwd configDir ++ ns) = d.files (resolve d.st.fs.cwd configDir ++ ns)) ∧
    ∀ v ∈ vs, configDir <+: v.path →
      (run (unpack configDir) d (vs.map (tarEntry configDir))).files
        (resolve d.st.fs.cwd configDir ++ v.names) = some (tarEntry configDir v).content := by
  induction vs generalizing d done with
  | nil => exact ⟨fun ns _ => rfl, nofun⟩
  | cons v vs ih =>
    obtain ⟨hv, hsound'⟩ := List.forall_mem_cons.1 hsound
    obtain ⟨hhead, htail⟩ := List.pairwise_cons.1 hapart
    obtain ⟨hfullv, hfull'⟩ := forall_mem_dropLast_cons.1 hfull
    obtain ⟨hdonev, hdone'⟩ := List.forall_mem_cons.1 hdone
    obtain ⟨hfilled', hfiles, hcomplete⟩ :=
      hfilled.unpack_visit hdir hv (hgo.resolve_right (List.cons_ne_nil v vs)) hdonev
    have hcwd : (unpack configDir d (tarEntry configDir v)).st.fs.cwd = d.st.fs.cwd := step_cwd _
    -- only the last entry may be cut short, so the loop goes on while there are more
    have hgo' : (unpack configDir d (tarEntry configDir v)).st.failed = none ∨ vs = [] := by
      by_cases hnil : vs = []
      · exact .inr hnil
      · exact .inl (hcomplete (hfullv hnil))
    rw [← hcwd] at hfilled'
    obtain ⟨hkeep, hwrite⟩ := ih hsound' htail hfull' hfilled'
      (fun w hw => List.forall_mem_cons.2 ⟨(hhead w hw).symm, hdone' w hw⟩) hgo'
    rw [hcwd] at hkeep hwrite
    constructor
    · intro ns hns
      obtain ⟨hnsv, hns'⟩ := List.forall_mem_cons.1 hns
      refine (hkeep ns hns').trans ((hfiles _).trans (if_neg ?_))
      exact fun ⟨htest, heq⟩ => hnsv htest (List.append_cancel_left heq).symm
    · refine List.forall_mem_cons.2 ⟨fun htest => ?_, hwrite⟩
      have hothers : ∀ w ∈ vs, configDir <+: w.path → w.names ≠ v.names :=
        fun w hw _ heq => (hhead w hw).1 (heq ▸ List.prefix_rfl)
      exact (hkeep v.names hothers).trans ((hfiles _).trans (if_pos ⟨htest, rfl⟩))

end Restore

/-! ## The round trip -/

/-- The files that a backup is for: the name ends in `.toml` or `.json`, and the file does not lie
inside the backup directory. -/
def Manager.Wanted (m : Manager) (cwd ns : List Path) : Prop :=
  (".toml".toList <:+ fileName ns ∨ ".json".toList <:+ fileName ns) ∧
    ¬ resolve cwd m.backupDir <+: resolve cwd m.configDir ++ ns

/-- Nothing is in the configuration directory, and neither it nor what it lies in is a file. -/
structure Emptied (configDir : Path) (fs : FileSystem) (files : List Path → Option Bytes) :
    Prop where
  files : ∀ x, files x ≠ none → Apart (resolve fs.cwd configDir) x
  dirs : ∀ x ∈ fs.dirs, resolve fs.cwd configDir <+: x → x = resolve fs.cwd configDir

/-- **The purpose of a backup**: all readable regular files that it is for are there again, with
their content, after it has been restored. -/
def Manager.Recreates (m : Manager) (t : Tree) (a : Answers) (fs : FileSystem)
    (files : List Path → Option Bytes) : Prop :=
  ∀ ns content, t.file? ns = some content → m.Wanted fs.cwd ns →
    (m.roundTrip t a ⟨start fs, files⟩).files (resolve fs.cwd m.configDir ++ ns) = some content

/-- The new archive is among the first `maxBackups` that are listed, if there are more. -/
def Manager.Keeps (m : Manager) (path : Path) (backups : Option (List Path)) : Prop :=
  ∀ listed, backups = some listed →
    (listed.length : ℤ) ≤ m.maxBackups ∨ 0 ≤ m.maxBackups ∧ path ∉ listed.drop m.maxBackups.toNat

/-- What the walk adds to the archive. -/
def Manager.selection (m : Manager) (t : Tree) : List Visit :=
  (t.visits m.configDir).filter m.selects

/-- The archive can be created, nothing that is added to it is in the way, and it is kept. -/
structure Manager.Archives (m : Manager) (t : Tree) (a : Answers) : Prop where
  created : a.createFails = false
  packable : Packable (m.selection t)
  kept : m.Keeps (m.backupPath a.timestamp) a.backups

/-- A file is saved and comes back: the walk gets to it, and the text of its path begins with that
of the configuration directory and not with that of the backup directory. -/
structure Manager.Returns (m : Manager) (t : Tree) (a : Answers) (ns : List Path) : Prop where
  archives : m.Archives t a
  listed : t.Listed ns
  saved : ¬ m.backupDir <+: ns.foldl join m.configDir
  restored : m.configDir <+: ns.foldl join m.configDir

section RoundTrip

variable {m : Manager} {t : Tree} {a : Answers}

theorem Manager.keeps_iff {path : Path} {backups : Option (List Path)} :
    m.Keeps path backups ↔
      ∃ removed, m.cleanupOldBackups backups = .ok removed ∧ path ∉ removed := by
  cases backups with
  | none => exact ⟨fun _ => ⟨[], rfl, List.not_mem_nil⟩, fun _ => nofun⟩
  | some listed =>
    unfold Keeps cleanupOldBackups
    dsimp only
    by_cases hfew : (listed.length : ℤ) ≤ m.maxBackups
    · rw [if_pos hfew]
      exact ⟨fun _ => ⟨[], rfl, List.not_mem_nil⟩, fun _ l hl => .inl (Option.some.inj hl ▸ hfew)⟩
    · rw [if_neg hfew]
      by_cases hneg : m.maxBackups < 0
      · rw [if_pos hneg]
        constructor
        · intro h
          rcases h listed rfl with h | h
          · exact absurd h hfew
          · exact absurd hneg (not_lt.2 h.1)
        · exact fun ⟨_, h, _⟩ => nomatch h
      · rw [if_neg hneg]
        constructor
        · exact fun h => ⟨_, rfl, ((h listed rfl).resolve_left hfew).2⟩
        · rintro ⟨removed, hok, hmem⟩ l hl
          obtain rfl := Option.some.inj hl
          obtain rfl := Except.ok.inj hok
          exact .inr ⟨not_lt.1 hneg, hmem⟩

/-- **When an archive is found at the path that `Backup` returns**, and what is in it. -/
theorem Manager.backup_eq_ok_iff {es : List TarEntry} :
    (∃ path, m.backup t a = .ok (path, some es)) ↔
      m.Archives t a ∧ es = (m.selection t).map (tarEntry m.configDir) := by
  unfold backup
  constructor
  · rintro ⟨path, hok⟩
    split_ifs at hok with hcreate
    cases hpack : pack m.configDir ((t.visits m.configDir).filter m.selects) with
    | none =>
      rw [hpack] at hok
      cases hok
    | some entries =>
      rw [hpack] at hok
      cases hclean : m.cleanupOldBackups a.backups with
      | error e =>
        rw [hclean] at hok
        cases hok
      | ok removed =>
        rw [hclean] at hok
        have hpair := (Prod.ext_iff.1 (Except.ok.inj hok)).2
        dsimp only at hpair
        split_ifs at hpair with hmem
        obtain rfl := Option.some.inj hpair
        obtain ⟨hpackable, hes⟩ := pack_eq_some_iff.1 hpack
        have hkept := keeps_iff.2 ⟨removed, hclean, hmem⟩
        exact ⟨⟨Bool.eq_false_iff.2 hcreate, hpackable, hkept⟩, hes⟩
  · rintro ⟨harchives, rfl⟩
    obtain ⟨removed, hclean, hmem⟩ := keeps_iff.1 harchives.kept
    have hpack : pack m.configDir ((t.visits m.configDir).filter m.selects) = some _ :=
      pack_eq_some_iff.2 ⟨harchives.packable, rfl⟩
    refine ⟨m.backupPath a.timestamp, ?_⟩
    rw [if_neg (Bool.eq_false_iff.1 harchives.created), hpack, hclean]
    exact congrArg (fun archive => Except.ok (m.backupPath a.timestamp, archive)) (if_neg hmem)

theorem Manager.roundTrip_of_archives (h : m.Archives t a) (d : Disk) :
    m.roundTrip t a d =
      run (unpack m.configDir) d ((m.selection t).map (tarEntry m.configDir)) := by
  obtain ⟨path, hok⟩ := backup_eq_ok_iff.2 ⟨h, rfl⟩
  rw [roundTrip, hok]

theorem Manager.roundTrip_of_not_archives (h : ¬ m.Archives t a) (d : Disk) :
    m.roundTrip t a d = d := by
  unfold roundTrip
  split
  · rename_i path entries hok
    exact absurd (backup_eq_ok_iff.1 ⟨path, hok⟩).1 h
  · rfl

/-- **What the archive is made from**: the files the walk gets to, without those whose path begins
with the text of the backup directory. -/
theorem Manager.mem_selection_iff :
    v ∈ m.selection t ↔ ∃ ns l, t.Listed ns ∧ t.entries.leafAt ns = some l ∧
      v = ⟨ns, ns.foldl join m.configDir, l⟩ ∧ ¬ m.backupDir <+: v.path ∧
      shouldBackup (fileName ns) = true := by
  have hvisits : v ∈ t.visits m.configDir ↔ ∃ ns l, t.Listed ns ∧ t.entries.leafAt ns = some l ∧
      v = ⟨ns, ns.foldl join m.configDir, l⟩ := by
    unfold Tree.visits Tree.Listed
    cases t.listable with
    | false => exact ⟨nofun, fun ⟨_, _, h, _⟩ => nomatch h.1⟩
    | true =>
      rw [if_pos rfl, Forest.mem_visits_iff t.valid]
      simp only [Forest.Reaches, true_and, List.nil_append, and_assoc]
  rw [selection, List.mem_filter, hvisits, selects, Bool.and_eq_true, decide_eq_true_iff]
  constructor
  · rintro ⟨⟨ns, l, hlisted, hleaf, rfl⟩, hskip, hname⟩
    exact ⟨ns, l, hlisted, hleaf, rfl, hskip, hname⟩
  · rintro ⟨ns, l, hlisted, hleaf, rfl, hskip, hname⟩
    exact ⟨⟨ns, l, hlisted, hleaf, rfl⟩, hskip, hname⟩

theorem Manager.sound_of_mem_selection (hv : v ∈ m.selection t) : v.Sound m.configDir := by
  obtain ⟨ns, l, -, hleaf, rfl, -⟩ := mem_selection_iff.1 hv
  exact ⟨Forest.ne_nil_of_leafAt hleaf, Forest.isName_of_leafAt t.valid hleaf, rfl⟩

theorem Manager.pairwise_selection (m : Manager) (t : Tree) :
    (m.selection t).Pairwise fun v w => Apart v.names w.names := by
  have hnodup : ((t.visits m.configDir).map Visit.names).Nodup := by
    unfold Tree.visits
    split_ifs
    · exact Forest.nodup_visits t.valid m.configDir []
    · exact List.nodup_nil
  have hne : (m.selection t).Pairwise fun v w => v.names ≠ w.names :=
    (List.pairwise_map.1 hnodup).filter _
  refine hne.imp_of_mem fun {v w} hv hw hvw => ?_
  obtain ⟨ns, l, -, hleaf, rfl, -⟩ := mem_selection_iff.1 hv
  obtain ⟨ns', l', -, hleaf', rfl, -⟩ := mem_selection_iff.1 hw
  exact ⟨fun hpre => hvw (Forest.eq_of_prefix t.valid hleaf hleaf' hpre),
    fun hpre => hvw (Forest.eq_of_prefix t.valid hleaf' hleaf hpre).symm⟩

theorem Packable.complete {vs : List Visit} (h : Packable vs) (configDir : Path) :
    ∀ v ∈ vs.dropLast, (tarEntry configDir v).complete = true := by
  intro v hv
  obtain ⟨content, hread, -⟩ := h.read v (List.mem_of_mem_dropLast hv)
  exact (complete_tarEntry_iff configDir hread).2 (h.full v hv content hread)

/-- **A wanted file comes back** exactly if it is saved and restored. -/
theorem Manager.file_roundTrip_iff {fs : FileSystem} {files : List Path → Option Bytes}
    (hempty : Emptied m.configDir fs files) {ns : List Path} (hfile : t.file? ns = some content)
    (hwanted : m.Wanted fs.cwd ns) :
    (m.roundTrip t a ⟨start fs, files⟩).files (resolve fs.cwd m.configDir ++ ns) = some content ↔
      m.Returns t a ns := by
  obtain ⟨l, hleaf, hcontent⟩ := Option.bind_eq_some_iff.1 hfile
  have hnone : files (resolve fs.cwd m.configDir ++ ns) = none := by
    by_contra hsome
    exact (hempty.files _ hsome).1 (List.prefix_append _ ns)
  by_cases harchives : m.Archives t a
  · have hfilled : Filled (resolve (Disk.mk (start fs) files).st.fs.cwd m.configDir)
        (Disk.mk (start fs) files) [] :=
      ⟨fun x hx => .inl (hempty.files x hx), fun x hx hpre => .inl (hempty.dirs x hx hpre)⟩
    have hgo : (Disk.mk (start fs) files).st.failed = none ∨ m.selection t = [] := .inl rfl
    obtain ⟨hkeep, hwrite⟩ := files_restore m.configDir_ne_nil
      (fun v hv => sound_of_mem_selection hv) (m.pairwise_selection t)
      (harchives.packable.complete m.configDir) hfilled
      (fun _ _ _ h => absurd h List.not_mem_nil) hgo
    rw [roundTrip_of_archives harchives]
    constructor
    · intro hback
      -- an untouched path would still be without a file
      by_contra hnot
      have hother : ∀ v ∈ m.selection t, m.configDir <+: v.path → v.names ≠ ns := by
        rintro v hv htest rfl
        obtain ⟨ns', l', hlisted, hleaf', rfl, hskip, -⟩ := mem_selection_iff.1 hv
        exact hnot ⟨harchives, hlisted, hskip, htest⟩
      exact Option.some_ne_none content (hback.symm.trans ((hkeep ns hother).trans hnone))
    · intro hreturns
      have hname : shouldBackup (fileName ns) = true := (shouldBackup_iff _).2 hwanted.1
      have hmem : (⟨ns, ns.foldl join m.configDir, l⟩ : Visit) ∈ m.selection t :=
        mem_selection_iff.2 ⟨ns, l, hreturns.listed, hleaf, rfl, hreturns.saved, hname⟩
      refine (hwrite _ hmem hreturns.restored).trans ?_
      rw [tarEntry, (Leaf.read_of_content? hcontent).1]
      rfl
  · rw [roundTrip_of_not_archives harchives]
    refine iff_of_false ?_ fun hreturns => harchives hreturns.archives
    exact fun hback => Option.some_ne_none content (hback.symm.trans hnone)

end RoundTrip

/-- **Backup and restore are inverse** on the wanted files of a tree exactly if each of them is
saved and restored. -/
theorem roundTrip_iff (m : Manager) (t : Tree) (a : Answers) {fs : FileSystem}
    {files : List Path → Option Bytes} (hempty : Emptied m.configDir fs files) :
    m.Recreates t a fs files ↔
      ∀ ns content, t.file? ns = some content → m.Wanted fs.cwd ns → m.Returns t a ns :=
  forall₂_congr fun _ _ => forall₂_congr fun hfile hwanted =>
    Manager.file_roundTrip_iff hempty hfile hwanted

/-- What `NewManager` makes of an empty configuration. -/
def etcManager : Manager where
  configDir := "/etc/ipshadowt".toList
  backupDir := "/etc/ipshadowt/backups".toList
  maxBackups := 10
  configDir_ne_nil := by decide

/-- The first archive is created and listed. -/
def firstBackup : Answers :=
  ⟨"20060102-150405".toList, false, some [etcManager.backupPath "20060102-150405".toList]⟩

theorem emptied_etcMachine : Emptied etcManager.configDir etcMachine fun _ => none where
  files := fun _ h => absurd rfl h
  dirs := by decide +kernel

/-- A configuration with a file in a subdirectory and one beside it. -/
def configTree : Tree where
  listable := true
  entries :=
    .dir "clients".toList true (.leaf "users.json".toList (.regular [3] true) .nil)
      (.leaf "config.toml".toList (.regular [1, 2] true) .nil)
  valid :=
    ⟨by decide, by decide, ⟨by decide, List.not_mem_nil, trivial⟩, by decide, List.not_mem_nil,
      trivial⟩

theorem file?_configTree {ns : List Path} (h : configTree.file? ns = some content) :
    ns = ["clients".toList, "users.json".toList] ∨ ns = ["config.toml".toList] := by
  obtain ⟨l, hleaf, -⟩ := Option.bind_eq_some_iff.1 h
  simp only [configTree, Forest.leafAt] at hleaf
  split_ifs at hleaf with hhead htail hns
  · obtain ⟨rest, rfl⟩ := List.head?_eq_some_iff.1 hhead
    exact .inl (congrArg _ htail)
  · exact .inr hns

/-- A configuration with a file whose name begins as that of the backup directory. -/
def backupsTree : Tree where
  listable := true
  entries := .leaf "backups.toml".toList (.regular [1, 2] true) .nil
  valid := ⟨by decide, List.not_mem_nil, trivial⟩

/-- Both files of the configuration come back, the one in the subdirectory first. -/
theorem roundTrip_configToml :
    etcManager.Recreates configTree firstBackup etcMachine fun _ => none := by
  refine (roundTrip_iff etcManager configTree firstBackup emptied_etcMachine).2 ?_
  intro ns content hfile _
  have hselection : etcManager.selection configTree =
      [⟨["clients".toList, "users.json".toList], "/etc/ipshadowt/clients/users.json".toList,
          .regular [3] true⟩,
        ⟨["config.toml".toList], "/etc/ipshadowt/config.toml".toList, .regular [1, 2] true⟩] := by
    decide +kernel
  have harchives : etcManager.Archives configTree firstBackup := by
    refine ⟨rfl, ?_, ?_⟩
    · rw [hselection]
      refine ⟨List.forall_mem_cons.2 ⟨⟨[3], rfl, le_rfl⟩,
        List.forall_mem_singleton.2 ⟨[1, 2], rfl, le_rfl⟩⟩, ?_⟩
      refine List.forall_mem_singleton.2 fun content hread => ?_
      rw [← Option.some.inj hread]
      rfl
    · intro listed hlisted
      obtain rfl := Option.some.inj hlisted
      exact .inl (by decide)
  rcases file?_configTree hfile with rfl | rfl
  · exact ⟨harchives, ⟨rfl, rfl, .inl rfl⟩, by decide +kernel, by decide +kernel⟩
  · exact ⟨harchives, ⟨rfl, .inl rfl⟩, by decide +kernel, by decide +kernel⟩

/-- The backup directory is a clean path in the configuration directory, and `backups.toml` beside
it does not come back: the text of its path begins with that of the backup directory. -/
theorem backups_toml_lost :
    clean etcManager.backupDir = etcManager.backupDir ∧
      resolve etcMachine.cwd etcManager.configDir <+: resolve etcMachine.cwd etcManager.backupDir ∧
      Emptied etcManager.configDir etcMachine (fun _ => none) ∧
      ¬ etcManager.Recreates backupsTree firstBackup etcMachine fun _ => none := by
  refine ⟨by decide +kernel, by decide +kernel, emptied_etcMachine, ?_⟩
  intro h
  have hwanted : etcManager.Wanted etcMachine.cwd ["backups.toml".toList] :=
    ⟨.inl ⟨"backups".toList, by decide⟩, by decide +kernel⟩
  have hback := h ["backups.toml".toList] [1, 2] (by decide +kernel) hwanted
  exact absurd hback (by decide +kernel)

end Backup
