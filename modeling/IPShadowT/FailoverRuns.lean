/-
# Runs of the failover manager

The methods of `Failover` in any order and interleaving.  `ReportFailure` gives up
the lock before it calls `doFailover`, and `doFailover` gives it up before it calls
the switch callback and tries the next path when that fails; what is left to do at
these points is a `Task`.  The callbacks of `checkPaths` and `ForceSwitch` need no
task: their outcome does not come back to the manager.

`held` records the paths that `DisablePath` has disabled and `EnablePath` has not
named since.  `disabled_until_enabled_iff` says in which runs these paths stay
disabled and are left alone by automatic switches.
-/
import IPShadowT.Failover
import IPShadowT.Runs

open Runs

namespace Failover

/-! ## The system -/

/-- What a goroutine inside the manager has yet to do. -/
inductive Task where
  /-- call `doFailover` with this index -/
  | failover (idx : ℕ)
  /-- return from the callback of the switch to this index -/
  | switching (idx : ℕ)
  deriving DecidableEq, Repr

/-- The manager between two lock sections. -/
structure System where
  mgr : Failover
  /-- whether `OnSwitch` has registered a callback -/
  onSwitch : Bool
  tasks : List Task
  /-- the paths disabled by name and not enabled by name since -/
  held : List ℕ
  deriving DecidableEq, Repr

/-- A lock section, or the return of a callback. -/
inductive Event where
  | reportFailure (err : String)
  | reportSuccess
  | doFailover (idx : ℕ) (now : Int)
  | switched (idx : ℕ) (ok : Bool)
  | checkPaths (now : Int)
  | forceSwitch (pathName : String)
  | disablePath (pathName : String)
  | enablePath (pathName : String) (now : Int)
  deriving DecidableEq, Repr

/-- The manager as `NewFailover` returns it. -/
def System.start (paths : List PathConfig) (cfg : FailoverConfig) (clock : ℕ → Int)
    (onSwitch : Bool) : System :=
  ⟨newFailover paths cfg clock, onSwitch, [], []⟩

/-- An event that no goroutine is ready for does nothing. -/
def System.step (s : System) : Event → System
  | .reportFailure err =>
    let (idx, mgr) := s.mgr.reportFailure err
    { s with mgr := mgr, tasks := s.tasks ++ (idx.map Task.failover).toList }
  | .reportSuccess => { s with mgr := s.mgr.reportSuccess }
  | .doFailover idx now =>
    if .failover idx ∈ s.tasks then
      let (next, mgr) := s.mgr.doFailover idx now
      let callback := if s.onSwitch then (next.map Task.switching).toList else []
      { s with mgr := mgr, tasks := s.tasks.erase (.failover idx) ++ callback }
    else s
  | .switched idx ok =>
    if .switching idx ∈ s.tasks then
      let retry := if ok then [] else [Task.failover idx]
      { s with tasks := s.tasks.erase (.switching idx) ++ retry }
    else s
  | .checkPaths now => { s with mgr := (s.mgr.checkPaths now).2 }
  | .forceSwitch pathName => { s with mgr := (s.mgr.forceSwitch pathName).2 }
  | .disablePath pathName =>
    { s with
      mgr := s.mgr.disablePath pathName
      held := (s.mgr.findPath pathName).toList ++ s.held }
  | .enablePath pathName now =>
    { s with
      mgr := s.mgr.enablePath pathName now
      held := s.held.filter fun i => s.mgr.findPath pathName ≠ some i }

/-- The index that a step makes active by an automatic switch. -/
def System.autoSwitch (s : System) : Event → Option ℕ
  | .doFailover idx now =>
    if .failover idx ∈ s.tasks then (s.mgr.doFailover idx now).1 else none
  | .checkPaths now => (s.mgr.checkPaths now).1
  | _ => none

/-! ## The property and its condition -/

/-- Every path that is held is disabled. -/
def System.Kept (s : System) : Prop := ∀ i ∈ s.held, s.mgr.Disabled i

/-- A step makes no held path active by an automatic switch. -/
def System.SparesHeld (s : System) (e : Event) : Prop :=
  ∀ j, s.autoSwitch e = some j → j ∉ s.held

/-- The path that a step is about has not been disabled: the active path for
`ReportSuccess`, the failed path for `doFailover`. -/
def System.LeavesHeld (s : System) : Event → Prop
  | .reportSuccess => s.mgr.activePath ∉ s.held
  | .doFailover idx _ => .failover idx ∈ s.tasks → idx ∉ s.held
  | _ => True

/-! ## One step -/

/-- A section that sends each held path to a disabled one keeps `Kept`. -/
theorem System.Kept.of_disabled {s t : System} (hs : s.Kept) (hheld : t.held = s.held)
    (h : ∀ i, s.mgr.Disabled i → t.mgr.Disabled i) : t.Kept := by
  intro i hi
  rw [hheld] at hi
  exact h i (hs i hi)

/-- A section that undoes one disabled path keeps `Kept` exactly if that path is not held. -/
theorem System.Kept.iff_not_mem {s t : System} {k : ℕ} (hs : s.Kept)
    (hheld : t.held = s.held)
    (h : ∀ i, s.mgr.Disabled i → (t.mgr.Disabled i ↔ i ≠ k)) : t.Kept ↔ k ∉ s.held := by
  constructor
  · intro ht hk
    have hdis : t.mgr.Disabled k := ht k (by rw [hheld]; exact hk)
    exact (h k (hs k hk)).1 hdis rfl
  · intro hk i hi
    rw [hheld] at hi
    refine (h i (hs i hi)).2 ?_
    rintro rfl
    exact hk hi

theorem System.Kept.disablePath {s : System} (hs : s.Kept) (pathName : String) :
    (s.step (.disablePath pathName)).Kept := by
  intro i hi
  rcases List.mem_append.1 hi with hnew | hold
  · exact disabled_disablePath (Option.mem_toList.1 hnew)
  · exact (hs i hold).disablePath pathName

theorem System.Kept.enablePath {s : System} (hs : s.Kept) (pathName : String) (now : Int) :
    (s.step (.enablePath pathName now)).Kept := by
  intro i hi
  obtain ⟨hold, hne⟩ := List.mem_filter.1 hi
  exact (hs i hold).enablePath now (of_decide_eq_true hne)

/-- What one step does to the held paths. -/
theorem System.kept_step_iff {s : System} (hs : s.Kept) (e : Event) :
    (s.step e).Kept ↔ s.LeavesHeld e := by
  cases e with
  | reportFailure err =>
    exact iff_of_true (hs.of_disabled rfl fun _ hi => hi.reportFailure err) trivial
  | reportSuccess => exact hs.iff_not_mem rfl fun _ hi => disabled_reportSuccess hi
  | doFailover idx now =>
    by_cases hidx : .failover idx ∈ s.tasks
    · have hkept : (s.step (.doFailover idx now)).Kept ↔ idx ∉ s.held := by
        apply hs.iff_not_mem
        · simp only [System.step, if_pos hidx]
        · intro i hi
          simp only [System.step, if_pos hidx]
          exact disabled_doFailover now hi
      rw [hkept]
      exact ⟨fun h _ => h, fun h => h hidx⟩
    · have hstay : s.step (.doFailover idx now) = s := if_neg hidx
      rw [hstay]
      exact iff_of_true hs fun h => absurd h hidx
  | switched idx ok =>
    refine iff_of_true ?_ trivial
    unfold System.step
    dsimp only
    split
    · exact hs
    · exact hs
  | checkPaths now =>
    exact iff_of_true (hs.of_disabled rfl fun _ hi => hi.checkPaths now) trivial
  | forceSwitch pathName =>
    exact iff_of_true (hs.of_disabled rfl fun _ hi => hi.forceSwitch pathName) trivial
  | disablePath pathName => exact iff_of_true (hs.disablePath pathName) trivial
  | enablePath pathName now => exact iff_of_true (hs.enablePath pathName now) trivial

/-- As long as held paths are disabled, a step that leaves them alone does not switch to
one. -/
theorem System.Kept.sparesHeld {s : System} (hs : s.Kept) {e : Event} (he : s.LeavesHeld e) :
    s.SparesHeld e := by
  intro j hj hheld
  have hdis : s.mgr.Disabled j := hs j hheld
  cases e with
  | doFailover idx now =>
    simp only [System.autoSwitch] at hj
    split at hj
    · rename_i hidx
      -- only the failed path itself can lose its state before the selection
      obtain rfl : j = idx := doFailover_target hj hdis
      exact he hidx hheld
    · cases hj
  | checkPaths now => exact checkPaths_target hj hdis
  | _ => cases hj

/-! ## Whole runs -/

/-- **Which runs respect `DisablePath`.**  From a new manager, the held paths stay disabled
and no automatic switch takes one, in a whole run, exactly if no `ReportSuccess` comes
while the active path is held and no `doFailover` while the failed one is. -/
theorem disabled_until_enabled_iff (paths : List PathConfig) (cfg : FailoverConfig)
    (clock : ℕ → Int) (onSwitch : Bool) (es : List Event) :
    (Always System.step System.Kept (.start paths cfg clock onSwitch) es ∧
        EachStep System.step System.SparesHeld (.start paths cfg clock onSwitch) es)
      ↔ EachStep System.step System.LeavesHeld (.start paths cfg clock onSwitch) es := by
  have hstart : (System.start paths cfg clock onSwitch).Kept := by
    intro i hi
    cases hi
  have hkept : Always System.step System.Kept (.start paths cfg clock onSwitch) es ↔
      EachStep System.step System.LeavesHeld (.start paths cfg clock onSwitch) es :=
    always_iff_eachStep (I := System.Kept) (fun _ e hs => System.kept_step_iff hs e) hstart es
  constructor
  · rintro ⟨halways, -⟩
    exact hkept.1 halways
  · intro hleaves
    have halways := hkept.2 hleaves
    exact ⟨halways, .of_always (fun _ _ hs he => hs.sparesHeld he) halways hleaves⟩

/-- The active path is disabled, and a success on it is reported: the path is healthy
again, although nobody enabled it. -/
theorem reportSuccess_enables_disabled_path :
    ¬ (Always System.step System.Kept
          (.start twoPaths defaultFailoverConfig (fun _ => 0) true)
          [.disablePath "primary", .reportSuccess] ∧
        EachStep System.step System.SparesHeld
          (.start twoPaths defaultFailoverConfig (fun _ => 0) true)
          [.disablePath "primary", .reportSuccess]) := by
  rintro ⟨⟨-, -, hkept⟩, -⟩
  obtain ⟨p, hp, hs⟩ := hkept 0 (by decide)
  revert hs
  obtain rfl := Option.some.inj hp
  decide

end Failover
