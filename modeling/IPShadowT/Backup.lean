/-
# Restoring a backup

Model of `Manager.Restore` in `internal/backup/backup.go`: for every entry of the archive, the
name is cleaned and joined to the configuration directory, the result is compared with the text of
the directory, and then the missing directories are created and the file is written.  Whether the
archive can be read and the file system lets a call succeed are inputs.

A run keeps the absolute paths that were created or written.  `always_confined_iff` says when all
of them lie in the configuration directory; a name that does not lead upwards is always right.  The
test accepts a sibling whose name begins with that of the directory (`sibling_written`).
-/
import IPShadowT.LexicalPath
import IPShadowT.Runs

open LexicalPath Runs

namespace Backup

/-! ## The file system -/

/-- The directories that exist, as the elements of their absolute paths; the working directory of
the process and its ancestors are among them. -/
structure FileSystem where
  cwd : List Path
  isElem : ∀ e ∈ cwd, IsElem e
  dirs : List (List Path)
  cwd_exists : ∀ d, d <+: cwd → d ∈ dirs

/-- The file system with more directories. -/
def FileSystem.mkdir (fs : FileSystem) (made : List (List Path)) : FileSystem :=
  { fs with
    dirs := fs.dirs ++ made
    cwd_exists := fun d hd => List.mem_append_left made (fs.cwd_exists d hd) }

/-- The lengths of the ancestors of `d`, itself included, that do not exist. -/
def FileSystem.missing (fs : FileSystem) (d : List Path) : List ℕ :=
  (List.range (d.length + 1)).filter fun n => d.take n ∉ fs.dirs

/-- Whether it is a directory. -/
def FileSystem.isDir (fs : FileSystem) (d : List Path) : Bool := decide (d ∈ fs.dirs)

/-- The directories that `os.MkdirAll` creates, from the root on; `fails` is the number after
which it fails, if it does. -/
def FileSystem.mkdirAll (fs : FileSystem) (d : List Path) (fails : Option ℕ) : List (List Path) :=
  let missing := fs.missing d
  let made := match fails with
    | none => missing
    | some k => missing.take k
  made.map fun n => d.take n

/-! ## `Restore` -/

/-- An entry of the archive, and what happens when it is restored. -/
structure Entry where
  name : Path
  mkdirFails : Option ℕ
  openFails : Bool
  copyFails : Bool
  deriving DecidableEq, Repr

/-- What `tarReader.Next` gives: an entry, or an error. -/
inductive Item where
  | entry (e : Entry)
  | unreadable
  deriving DecidableEq, Repr

/-- The errors of `Restore` after it has opened the archive. -/
inductive RestoreError where
  | tar
  | mkdir (dir : Path)
  | create (path : Path)
  | write (path : Path)
  deriving DecidableEq, Repr

/-- The text of an error, up to the error it passes on. -/
def RestoreError.text : RestoreError → String
  | tar => "tar read error: "
  | mkdir dir => "failed to create dir " ++ String.ofList dir ++ ": "
  | create path => "failed to create " ++ String.ofList path ++ ": "
  | write path => "failed to write " ++ String.ofList path ++ ": "

/-- `Restore` on its way: the file system, the absolute paths that were created or written, the
number of files, and the error it has returned with. -/
structure State where
  fs : FileSystem
  touched : List Path
  restored : ℕ
  failed : Option RestoreError

/-- Before the first entry. -/
def start (fs : FileSystem) : State := ⟨fs, [], 0, none⟩

variable (configDir : Path)

/-- The path that an entry is written to. -/
def targetPath (name : Path) : Path := join configDir (clean name)

/-- A round of the loop of `Restore`. -/
def step (s : State) (item : Item) : State :=
  if s.failed.isSome then s
  else
    match item with
    | .unreadable => { s with failed := some .tar }
    | .entry e =>
      let target := targetPath configDir e.name
      -- `strings.HasPrefix`, which does not ask for a separator after the directory
      if ¬ configDir <+: target then s
      else
        let made := s.fs.mkdirAll (resolve s.fs.cwd (dir target)) e.mkdirFails
        let s := { s with fs := s.fs.mkdir made, touched := s.touched ++ made.map absolute }
        if e.mkdirFails.isSome then { s with failed := some (.mkdir (dir target)) }
        else if e.openFails then { s with failed := some (.create target) }
        else
          let s := { s with touched := s.touched ++ [absolute (resolve s.fs.cwd target)] }
          if e.copyFails then { s with failed := some (.write target) }
          else { s with restored := s.restored + 1 }

/-! ## Confinement -/

/-- All that was created or written lies in the configuration directory. -/
def State.Confined (s : State) : Prop :=
  ∀ p ∈ s.touched, Within (absolute (resolve s.fs.cwd configDir)) p

/-- What is created and written for an entry that passes the test. -/
def touches (fs : FileSystem) (e : Entry) : List (List Path) :=
  let target := targetPath configDir e.name
  fs.mkdirAll (resolve fs.cwd (dir target)) e.mkdirFails ++
    if e.mkdirFails.isNone ∧ ¬ e.openFails then [resolve fs.cwd target] else []

/-- How many elements of the directory a name leaves: as many as it has parents, or all if it is
absolute and the directory is the empty text, which `Join` ignores. -/
def leaves (cwd : List Path) (name : Path) : ℕ :=
  if configDir = [] ∧ rooted name = true then (resolve cwd configDir).length else ups name

/-- The name goes on with the elements of the directory that it has left. -/
def ComesBack (cwd : List Path) (name : Path) : Prop :=
  let directory := resolve cwd configDir
  directory.drop (directory.length - leaves configDir cwd name) <+: names name

/-- The file system lets something be created or written for the entry: the file, or a directory
above it that is missing. -/
def FileSystem.Lets (fs : FileSystem) (e : Entry) : Prop :=
  (e.mkdirFails = none ∧ e.openFails = false) ∨
    (e.mkdirFails ≠ some 0 ∧ fs.missing (resolve fs.cwd (dir (targetPath configDir e.name))) ≠ [])

/-- If the entry passes the test and the file system lets something happen, then the name comes
back to the configuration directory, and all ancestors of that directory exist. -/
def State.Harmless (s : State) : Item → Prop
  | .unreadable => True
  | .entry e =>
    s.failed = none → configDir <+: targetPath configDir e.name → s.fs.Lets configDir e →
      ComesBack configDir s.fs.cwd e.name ∧
        ∀ d, d <+: resolve s.fs.cwd configDir → d ≠ resolve s.fs.cwd configDir → d ∈ s.fs.dirs

variable {x : List Path} {e : Entry}

section Touches

variable {configDir} {fs : FileSystem}

theorem clean_ne_nil (p : Path) : clean p ≠ [] := by
  intro h
  have hrooted := rooted_clean p
  have helems := elems_clean p
  rw [h] at hrooted helems
  -- an empty text would be that of a path without elements, which is `/` or `.`
  have hnil : cleanElems (rooted p) (elems p) = [] := helems.symm
  rw [clean, hnil, ← hrooted] at h
  exact absurd h (by decide)

/-- The target is a clean path. -/
theorem exists_targetPath_eq_clean (configDir name : Path) :
    ∃ q, targetPath configDir name = clean q := by
  unfold targetPath join
  rw [if_neg (clean_ne_nil name), if_neg (clean_ne_nil name)]
  split_ifs
  · exact ⟨clean name, rfl⟩
  · exact ⟨configDir ++ sep :: clean name, rfl⟩

theorem mem_mkdirAll {d x : List Path} {fails : Option ℕ} (h : x ∈ fs.mkdirAll d fails) :
    x <+: d ∧ x ∉ fs.dirs := by
  obtain ⟨n, hn, rfl⟩ := List.mem_map.1 h
  have hmissing : n ∈ fs.missing d := by
    cases fails with
    | none => exact hn
    | some k => exact List.mem_of_mem_take hn
  exact ⟨List.take_prefix n d, by simpa using (List.mem_filter.1 hmissing).2⟩

/-- `MkdirAll` begins with the outermost of the missing directories. -/
theorem exists_mem_mkdirAll {d x : List Path} {fails : Option ℕ} (hx : x <+: d)
    (hmissing : x ∉ fs.dirs) (hmade : fails = none ∨ fs.mkdirAll d fails ≠ []) :
    ∃ y ∈ fs.mkdirAll d fails, y.length ≤ x.length := by
  have hxlen : x.length ∈ fs.missing d := by
    refine List.mem_filter.2 ⟨List.mem_range.2 (Nat.lt_succ_of_le hx.length_le), ?_⟩
    rw [← List.prefix_iff_eq_take.1 hx]
    simpa using hmissing
  cases hlist : fs.missing d with
  | nil =>
    rw [hlist] at hxlen
    cases hxlen
  | cons n rest =>
    have hsorted : (n :: rest).Pairwise (· < ·) := by
      rw [← hlist]
      exact List.pairwise_lt_range.filter _
    have hle : n ≤ x.length := by
      rw [hlist] at hxlen
      rcases List.mem_cons.1 hxlen with heq | hmem
      · exact heq.ge
      · exact (List.rel_of_pairwise_cons hsorted hmem).le
    refine ⟨d.take n, List.mem_map.2 ⟨n, ?_, rfl⟩, (List.length_take_le n d).trans hle⟩
    cases fails with
    | none => exact hlist ▸ List.mem_cons_self
    | some k =>
      cases k with
      | zero => exact absurd rfl (hmade.resolve_left nofun)
      | succ k => exact hlist ▸ List.mem_cons_self

/-- Something is touched exactly if the file system lets it. -/
theorem touches_ne_nil_iff (e : Entry) : touches configDir fs e ≠ [] ↔ fs.Lets configDir e := by
  simp only [touches, FileSystem.Lets, FileSystem.mkdirAll]
  cases hfails : e.mkdirFails with
  | none =>
    cases hopen : e.openFails with
    | true => simp
    | false => simp
  | some k =>
    cases k with
    | zero => simp
    | succ k => simp

/-- **Where an entry is written to**: what the name leaves of the directory, then its names. -/
theorem resolve_targetPath (cwd : List Path) (name : Path) :
    resolve cwd (targetPath configDir name) =
      (resolve cwd configDir).take ((resolve cwd configDir).length - leaves configDir cwd name) ++
        names name := by
  unfold targetPath leaves
  by_cases hdir : configDir = []
  · subst hdir
    rw [join, if_pos rfl, if_neg (clean_ne_nil name), resolve_clean, resolve, walk_clean,
      rooted_clean]
    cases hroot : rooted name with
    | true => simp [(elems_clean_eq name).2.2 hroot]
    | false => rfl
  · rw [if_neg fun h => hdir h.1, resolve_join hdir, walk_clean]

/-- The target lies in the directory exactly if the name comes back to it. -/
theorem prefix_target_iff (cwd : List Path) (name : Path) :
    resolve cwd configDir <+: resolve cwd (targetPath configDir name) ↔
      ComesBack configDir cwd name := by
  unfold ComesBack
  rw [resolve_targetPath]
  -- both begin with the elements that the name does not leave
  have hsplit := List.take_append_drop
    ((resolve cwd configDir).length - leaves configDir cwd name) (resolve cwd configDir)
  nth_rewrite 1 [← hsplit]
  exact List.prefix_append_right_inj _

/-- What a directory on the way to the target has to do with the target. -/
theorem prefix_target_of_missing {name : Path}
    (hx : x <+: resolve fs.cwd (dir (targetPath configDir name))) (hmissing : x ∉ fs.dirs) :
    x <+: resolve fs.cwd (targetPath configDir name) := by
  obtain ⟨q, hq⟩ := exists_targetPath_eq_clean configDir name
  rw [hq] at hx ⊢
  rcases resolve_dir fs.cwd q with heq | ⟨e, heq⟩ | ⟨-, hcwd⟩
  · rw [heq]
    exact hx
  · rw [heq]
    exact hx.trans (List.prefix_append _ _)
  · exact absurd (fs.cwd_exists x (hx.trans hcwd)) hmissing

/-- A proper ancestor of something on the way to the target is on the way to its directory. -/
theorem prefix_dir_of_prefix_target {name : Path} {x c : List Path} (hxc : x <+: c) (hne : x ≠ c)
    (hc : c <+: resolve fs.cwd (targetPath configDir name)) :
    x <+: resolve fs.cwd (dir (targetPath configDir name)) := by
  obtain ⟨q, hq⟩ := exists_targetPath_eq_clean configDir name
  rw [hq] at hc ⊢
  have hlt : x.length < c.length :=
    Nat.lt_of_le_of_ne hxc.length_le fun heq => hne (hxc.eq_of_length heq)
  rcases resolve_dir fs.cwd q with heq | ⟨e, heq⟩ | ⟨heq, -⟩
  · rw [← heq]
    exact hxc.trans hc
  · rw [heq] at hc
    have hclen := hc.length_le
    rw [List.length_append, List.length_singleton] at hclen
    exact List.prefix_of_prefix_length_le (hxc.trans hc) (List.prefix_append _ [e]) (by omega)
  · rw [heq] at hc
    exact (hxc.trans hc).trans (List.dropLast_prefix _)

/-- What is touched lies on the way to the target, and it is the target if it was there before. -/
theorem prefix_target_of_mem_touches (hx : x ∈ touches configDir fs e) :
    x <+: resolve fs.cwd (targetPath configDir e.name) ∧
      (x ∈ fs.dirs → x = resolve fs.cwd (targetPath configDir e.name)) := by
  rcases List.mem_append.1 hx with hmade | hwritten
  · obtain ⟨hpre, hmissing⟩ := mem_mkdirAll hmade
    exact ⟨prefix_target_of_missing hpre hmissing, fun hmem => absurd hmem hmissing⟩
  · split_ifs at hwritten
    · rw [List.mem_singleton.1 hwritten]
      exact ⟨List.prefix_rfl, fun _ => rfl⟩
    · cases hwritten

/-- If anything is touched, the missing directories on the way to the target are created from the
outermost on. -/
theorem exists_mem_touches (hne : touches configDir fs e ≠ [])
    (hx : x <+: resolve fs.cwd (dir (targetPath configDir e.name))) (hmissing : x ∉ fs.dirs) :
    ∃ y ∈ touches configDir fs e, y.length ≤ x.length := by
  have hmade : e.mkdirFails = none ∨
      fs.mkdirAll (resolve fs.cwd (dir (targetPath configDir e.name))) e.mkdirFails ≠ [] := by
    cases hfails : e.mkdirFails with
    | none => exact .inl rfl
    | some k =>
      right
      simpa [touches, hfails] using hne
  obtain ⟨y, hy, hlen⟩ := exists_mem_mkdirAll hx hmissing hmade
  exact ⟨y, List.mem_append_left _ hy, hlen⟩

/-- What is touched is named by elements. -/
theorem isElem_touches (hx : x ∈ touches configDir fs e) :
    ∀ a ∈ x, IsElem a := fun a ha =>
  isElem_resolve fs.isElem _ a ((prefix_target_of_mem_touches hx).1.subset ha)

/-- **What is touched for an entry lies in the directory** exactly if its target does and no
ancestor of the directory has to be created first. -/
theorem touches_within_iff (e : Entry) (c : List Path) :
    (∀ x ∈ touches configDir fs e, c <+: x) ↔
      (touches configDir fs e ≠ [] →
        c <+: resolve fs.cwd (targetPath configDir e.name) ∧
          ∀ d, d <+: c → d ≠ c → d ∈ fs.dirs) := by
  constructor
  · intro hall hne
    have htarget : c <+: resolve fs.cwd (targetPath configDir e.name) := by
      obtain ⟨x, hx⟩ := List.exists_mem_of_ne_nil _ hne
      exact (hall x hx).trans (prefix_target_of_mem_touches hx).1
    refine ⟨htarget, fun d hdc hdne => ?_⟩
    -- a missing ancestor would be created before all that lies in the directory
    by_contra hmissing
    have hd := prefix_dir_of_prefix_target hdc hdne htarget
    obtain ⟨y, hy, hylen⟩ := exists_mem_touches hne hd hmissing
    have hlt : d.length < c.length :=
      Nat.lt_of_le_of_ne hdc.length_le fun heq => hdne (hdc.eq_of_length heq)
    exact absurd ((hall y hy).length_le.trans hylen) (Nat.not_le.2 hlt)
  · intro hok x hx
    obtain ⟨htarget, hancestors⟩ := hok (List.ne_nil_of_mem hx)
    obtain ⟨hxt, hold⟩ := prefix_target_of_mem_touches hx
    rcases List.prefix_or_prefix_of_prefix htarget hxt with hcx | hxc
    · exact hcx
    · by_cases heq : x = c
      · rw [heq]
      · rw [hold (hancestors x hxc heq)]
        exact htarget

end Touches

section Steps

variable {configDir} {s : State}

@[simp] theorem step_cwd (item : Item) : (step configDir s item).fs.cwd = s.fs.cwd := by
  unfold step
  split_ifs
  · rfl
  · cases item with
    | unreadable => rfl
    | entry e =>
      dsimp only
      split_ifs <;> rfl

theorem step_entry_touched (hs : s.failed = none)
    (htest : configDir <+: targetPath configDir e.name) :
    (step configDir s (.entry e)).touched =
      s.touched ++ (touches configDir s.fs e).map absolute := by
  have hgo : ¬ s.failed.isSome = true := by rw [hs]; exact Bool.false_ne_true
  unfold step touches
  rw [if_neg hgo]
  dsimp only
  rw [if_neg (not_not.2 htest)]
  cases e.mkdirFails with
  | some k => simp
  | none =>
    cases e.openFails with
    | true => simp
    | false =>
      cases e.copyFails <;> simp [FileSystem.mkdir]

/-- A round that touches nothing: `Restore` has returned, the archive cannot be read, or the entry
is skipped. -/
theorem step_touched_of_skip {item : Item}
    (hskip : ∀ e, item = .entry e → s.failed = none → ¬ configDir <+: targetPath configDir e.name) :
    (step configDir s item).touched = s.touched := by
  unfold step
  split_ifs with hfailed
  · rfl
  · cases item with
    | unreadable => rfl
    | entry e =>
      have hnone : s.failed = none := by simpa using hfailed
      dsimp only
      rw [if_pos (hskip e rfl hnone)]

theorem confined_step_iff (item : Item) (hs : s.Confined configDir) :
    (step configDir s item).Confined configDir ↔ s.Harmless configDir item := by
  unfold State.Confined
  rw [step_cwd]
  cases item with
  | unreadable =>
    have htouched : (step configDir s .unreadable).touched = s.touched :=
      step_touched_of_skip fun e heq => nomatch heq
    rw [htouched]
    exact iff_of_true hs trivial
  | entry e =>
    dsimp only [State.Harmless]
    by_cases hgo : s.failed = none ∧ configDir <+: targetPath configDir e.name
    · rw [step_entry_touched hgo.1 hgo.2]
      have helems := isElem_resolve s.fs.isElem
      have hwithin : (∀ p ∈ (touches configDir s.fs e).map absolute,
          Within (absolute (resolve s.fs.cwd configDir)) p) ↔
          ∀ x ∈ touches configDir s.fs e, resolve s.fs.cwd configDir <+: x := by
        rw [List.forall_mem_map]
        refine forall₂_congr fun x hx => within_iff (helems _) ?_
        exact isElem_touches hx
      rw [List.forall_mem_append, hwithin, touches_within_iff, touches_ne_nil_iff,
        prefix_target_iff]
      exact ⟨fun h _ _ => h.2, fun h => ⟨hs, h hgo.1 hgo.2⟩⟩
    · rw [step_touched_of_skip fun e' heq hnone htest => hgo ⟨hnone, by cases heq; exact htest⟩]
      exact iff_of_true hs fun hnone htest => absurd ⟨hnone, htest⟩ hgo

/-- **`Restore` stays in the configuration directory** exactly if every entry that passes the test
and that the file system lets happen has a name that comes back to the directory after it has led
upwards, and finds the ancestors of the directory in place. -/
theorem always_confined_iff (configDir : Path) (fs : FileSystem) (items : List Item) :
    Always (step configDir) (State.Confined configDir) (start fs) items ↔
      EachStep (step configDir) (State.Harmless configDir) (start fs) items := by
  refine always_iff_eachStep (fun s item => confined_step_iff item) ?_ items
  intro p hp
  cases hp

end Steps

/-- A machine on which `/etc/ipshadowt` exists; the process runs in the root. -/
def etcMachine : FileSystem where
  cwd := []
  isElem := nofun
  dirs := [[], ["etc".toList], ["etc".toList, "ipshadowt".toList]]
  cwd_exists := by
    intro d hd
    rw [List.prefix_nil.1 hd]
    exact List.mem_cons_self

/-- An entry for a sibling of the directory, restored without an error. -/
def siblingEntry : Entry := ⟨"../ipshadowt-evil/x".toList, none, false, false⟩

/-- The text of the sibling begins with that of the directory: it is created and written to. -/
theorem sibling_written :
    ¬ Always (step "/etc/ipshadowt".toList) (State.Confined "/etc/ipshadowt".toList)
      (start etcMachine) [.entry siblingEntry] := by
  intro h
  have hpath : "/etc/ipshadowt-evil/x".toList ∈
      (run (step "/etc/ipshadowt".toList) (start etcMachine) [.entry siblingEntry]).touched := by
    decide +kernel
  exact absurd (h.last _ hpath) (by decide +kernel)

end Backup
