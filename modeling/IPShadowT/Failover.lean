/-
# The failover manager

Model of `Failover` in `core/failover.go`.  Every method that takes `f.mu` is here
as the function its critical section computes; what happens between two sections
(the switch callback, other goroutines) is left to the systems built on top.

An index of `-1` in the source is `none`.  `activePath` is an `atomic.Int32` that
only ever holds an index into `paths`; it is a natural number here.

`selectNextPath_eligible` says that, whatever the strategy, a path that is selected
is neither unhealthy nor disabled.  The last section says of each critical section
which disabled paths it leaves disabled.
-/
import Mathlib.Data.List.Basic

namespace Failover

/-! ## Data -/

/-- `config.PathConfig`. -/
structure PathConfig where
  name : String
  remoteAddr : String
  transport : String
  priority : Int
  weight : Int
  deriving DecidableEq, Repr

/-- `PathState`. -/
inductive PathState where
  | healthy
  | degraded
  | unhealthy
  | disabled
  deriving DecidableEq, Repr

/-- `PathInfo`; times and durations are in nanoseconds. -/
structure PathInfo where
  config : PathConfig
  state : PathState
  latency : Int
  lastCheck : Int
  lastError : Option String
  failCount : ℕ
  successCount : ℕ
  deriving DecidableEq, Repr

/-- `FailoverStrategy`; a string that names no strategy is `other`. -/
inductive Strategy where
  | priority
  | roundRobin
  | latency
  | other (name : String)
  deriving DecidableEq, Repr

/-- The part of `FailoverConfig` that the manager reads. -/
structure FailoverConfig where
  strategy : Strategy
  failThreshold : Int
  recoverAfter : Int
  deriving DecidableEq, Repr

/-- `DefaultFailoverConfig`. -/
def defaultFailoverConfig : FailoverConfig := ⟨.priority, 3, 30 * 1000000000⟩

end Failover

open Failover in
/-- The fields of `Failover` that its mutex protects, and its configuration. -/
structure Failover where
  cfg : FailoverConfig
  paths : List PathInfo
  activePath : ℕ
  deriving DecidableEq, Repr

namespace Failover

/-- Whether the selection loops consider a path. -/
def PathInfo.Eligible (p : PathInfo) : Prop :=
  ¬ (p.state = .unhealthy ∨ p.state = .disabled)

instance (p : PathInfo) : Decidable p.Eligible := inferInstanceAs (Decidable (¬ _))

/-! ## Construction -/

/-- `paths[i], paths[j] = paths[j], paths[i]`. -/
def swap (paths : List PathInfo) (i j : ℕ) : List PathInfo :=
  match paths[i]?, paths[j]? with
  | some p, some q => (paths.set i q).set j p
  | _, _ => paths

/-- The body of the inner loop of `sortPathsByPriority`. -/
def sortStep (i : ℕ) (paths : List PathInfo) (j : ℕ) : List PathInfo :=
  match paths[j]?, paths[i]? with
  | some q, some p => if q.config.priority < p.config.priority then swap paths i j else paths
  | _, _ => paths

/-- `sortPathsByPriority`: an exchange sort. -/
def sortPathsByPriority (paths : List PathInfo) : List PathInfo :=
  (List.range (paths.length - 1)).foldl
    (fun ps i => (List.range' (i + 1) (paths.length - (i + 1))).foldl (sortStep i) ps) paths

/-- `NewFailover`; `clock i` is the time read for the `i`-th path. -/
def newFailover (paths : List PathConfig) (cfg : FailoverConfig) (clock : ℕ → Int) :
    Failover where
  cfg := cfg
  paths := sortPathsByPriority
    (paths.mapIdx fun i p => ⟨p, .healthy, 0, clock i, none, 0, 0⟩)
  activePath := 0

/-- A configuration with two paths, for concrete runs. -/
def twoPaths : List PathConfig :=
  [⟨"primary", "10.0.0.1:443", "tls", 1, 1⟩, ⟨"backup", "10.0.0.2:443", "tls", 2, 1⟩]

/-! ## Selection -/

/-- `int(^uint(0) >> 1)`. -/
def maxInt : Int := 9223372036854775807

/-- The loop of `selectByPriority` and `selectByLatency`: `better` decides whether a path
replaces the best one so far, of which the loop keeps the index and `key`. -/
def selectBest (better : Option ℕ × Int → PathInfo → Bool) (key : PathInfo → Int)
    (init : Int) (paths : List PathInfo) (excludeIdx : ℕ) : Option ℕ :=
  (paths.zipIdx.foldl
    (fun (best : Option ℕ × Int) (pi : PathInfo × ℕ) =>
      if pi.2 = excludeIdx then best
      else if ¬ pi.1.Eligible then best
      else if better best pi.1 then (some pi.2, key pi.1)
      else best)
    (none, init)).1

/-- `selectByPriority`. -/
def selectByPriority : List PathInfo → ℕ → Option ℕ :=
  selectBest (fun best p => p.config.priority < best.2) (fun p => p.config.priority) maxInt

/-- `selectByLatency`. -/
def selectByLatency : List PathInfo → ℕ → Option ℕ :=
  selectBest (fun best p => best.1 = none ∨ p.latency < best.2) (fun p => p.latency) 0

/-- `selectRoundRobin`: the first eligible path after the excluded one. -/
def selectRoundRobin (paths : List PathInfo) (excludeIdx : ℕ) : Option ℕ :=
  ((List.range' 1 (paths.length - 1)).map fun i => (excludeIdx + i) % paths.length).find?
    fun idx => paths[idx]?.any fun p => p.Eligible

/-- `selectNextPath`. -/
def selectNextPath (f : Failover) (excludeIdx : ℕ) : Option ℕ :=
  match f.cfg.strategy with
  | .priority => selectByPriority f.paths excludeIdx
  | .roundRobin => selectRoundRobin f.paths excludeIdx
  | .latency => selectByLatency f.paths excludeIdx
  | .other _ => selectByPriority f.paths excludeIdx

/-! ## Lock sections -/

/-- Change the path at an index. -/
def modifyPath (f : Failover) (i : ℕ) (g : PathInfo → PathInfo) : Failover :=
  { f with paths := f.paths.modify i g }

/-- The section of `ReportFailure`: the index to fail over from, if it is time. -/
def reportFailure (f : Failover) (err : String) : Option ℕ × Failover :=
  match f.paths[f.activePath]? with
  | none => (none, f)
  | some p =>
    let f₁ := f.modifyPath f.activePath fun p =>
      { p with failCount := p.failCount + 1, lastError := some err, successCount := 0 }
    (if (p.failCount + 1 : Int) ≥ f.cfg.failThreshold then some f.activePath else none, f₁)

/-- `ReportSuccess`. -/
def reportSuccess (f : Failover) : Failover :=
  f.modifyPath f.activePath fun p =>
    { p with successCount := p.successCount + 1, failCount := 0, state := .healthy }

/-- The section of `doFailover`: the index switched to, if there is one. -/
def doFailover (f : Failover) (failedIdx : ℕ) (now : Int) : Option ℕ × Failover :=
  let f₁ := f.modifyPath failedIdx fun p => { p with state := .unhealthy, lastCheck := now }
  match f₁.selectNextPath failedIdx with
  | none => (none, f₁)
  | some nextIdx => (some nextIdx, { f₁ with activePath := nextIdx })

/-- An unhealthy path whose time has come. -/
def Recovers (cfg : FailoverConfig) (now : Int) (p : PathInfo) : Prop :=
  p.state = .unhealthy ∧ now - p.lastCheck ≥ cfg.recoverAfter

instance (cfg : FailoverConfig) (now : Int) (p : PathInfo) : Decidable (Recovers cfg now p) :=
  inferInstanceAs (Decidable (_ ∧ _))

/-- What the loop of `checkPaths` does to one path. -/
def recover (cfg : FailoverConfig) (now : Int) (p : PathInfo) : PathInfo :=
  if Recovers cfg now p then { p with state := .degraded, failCount := 0, lastCheck := now }
  else p

/-- `bestRecoveredIdx` after the loop of `checkPaths`: each recovered path of higher
priority than the active one overwrites it. -/
def bestRecovered (f : Failover) (now : Int) : Option ℕ :=
  f.paths.zipIdx.foldl
    (fun best pi =>
      if Recovers f.cfg now pi.1
          ∧ f.paths[f.activePath]?.any (fun a => pi.1.config.priority < a.config.priority)
      then some pi.2 else best)
    none

/-- `checkPaths`: the index switched back to, if there is one. -/
def checkPaths (f : Failover) (now : Int) : Option ℕ × Failover :=
  let f₁ := { f with paths := f.paths.map (recover f.cfg now) }
  match f.bestRecovered now with
  | none => (none, f₁)
  | some i =>
    if f.cfg.strategy = .priority then (some i, { f₁ with activePath := i }) else (none, f₁)

/-- The first path with a name, as the `for` loops of `ForceSwitch`, `DisablePath` and
`EnablePath` find it. -/
def findPath (f : Failover) (pathName : String) : Option ℕ :=
  f.paths.findIdx? fun p => p.config.name = pathName

/-- The section of `ForceSwitch`: the index switched to, if it is a switch. -/
def forceSwitch (f : Failover) (pathName : String) : Option ℕ × Failover :=
  match f.findPath pathName with
  | none => (none, f)
  | some targetIdx =>
    if targetIdx = f.activePath then (none, f)
    else (some targetIdx, { f with activePath := targetIdx })

/-- `DisablePath`. -/
def disablePath (f : Failover) (pathName : String) : Failover :=
  match f.findPath pathName with
  | none => f
  | some i => f.modifyPath i fun p => { p with state := .disabled }

/-- `EnablePath`. -/
def enablePath (f : Failover) (pathName : String) (now : Int) : Failover :=
  match f.findPath pathName with
  | none => f
  | some i => f.modifyPath i fun p =>
    { p with state := .degraded, failCount := 0, lastCheck := now }

/-! ## What is selected -/

variable {f : Failover} {i : ℕ} {k j : ℕ} {g : PathInfo → PathInfo} {paths : List PathInfo}
variable {now : Int} {pathName : String}

/-- A loop over the paths that, in each round, keeps its choice or takes the path at hand
if that satisfies `P`, ends with the index of a path that satisfies `P`. -/
theorem foldl_zipIdx_choice {β : Type*} {P : PathInfo → Prop} (choice : β → Option ℕ)
    (round : β → PathInfo × ℕ → β) {init : β} {j : ℕ} (hinit : choice init = none)
    (hround : ∀ b p i, choice (round b (p, i)) = choice b ∨
      (choice (round b (p, i)) = some i ∧ P p))
    (h : choice (paths.zipIdx.foldl round init) = some j) :
    ∃ p, paths[j]? = some p ∧ P p := by
  refine List.foldlRecOn
    (motive := fun b => ∀ j, choice b = some j → ∃ p, paths[j]? = some p ∧ P p)
    paths.zipIdx round ?_ ?_ j h
  · intro j hj
    rw [hinit] at hj
    cases hj
  · rintro b ih ⟨p, i⟩ hpi j hj
    rcases hround b p i with hkeeps | ⟨htakes, hp⟩
    · exact ih j (hkeeps.symm.trans hj)
    · obtain rfl : i = j := Option.some.inj (htakes.symm.trans hj)
      exact ⟨p, List.mem_zipIdx_iff_getElem?.1 hpi, hp⟩

/-- Whatever the loop compares, it only ever takes the index of an eligible path. -/
theorem selectBest_eligible {better : Option ℕ × Int → PathInfo → Bool} {key : PathInfo → Int}
    {init : Int} (h : selectBest better key init paths k = some j) :
    ∃ p, paths[j]? = some p ∧ p.Eligible := by
  refine foldl_zipIdx_choice Prod.fst _ rfl ?_ h
  intro best p i
  dsimp only
  split_ifs with hk he hb
  · exact .inl rfl
  · exact .inr ⟨rfl, he⟩
  · exact .inl rfl
  · exact .inl rfl

theorem selectRoundRobin_eligible (h : selectRoundRobin paths k = some j) :
    ∃ p, paths[j]? = some p ∧ p.Eligible := by
  have hany := List.find?_some h
  cases hp : paths[j]? with
  | none => simp [hp] at hany
  | some p => exact ⟨p, rfl, by simpa [hp] using hany⟩

/-- **No strategy selects an unhealthy or disabled path.** -/
theorem selectNextPath_eligible (h : f.selectNextPath k = some j) :
    ∃ p, f.paths[j]? = some p ∧ p.Eligible := by
  unfold selectNextPath at h
  split at h
  · exact selectBest_eligible h
  · exact selectRoundRobin_eligible h
  · exact selectBest_eligible h
  · exact selectBest_eligible h

/-- A path that `checkPaths` switches back to was unhealthy. -/
theorem bestRecovered_recovers {j : ℕ} (h : f.bestRecovered now = some j) :
    ∃ p, f.paths[j]? = some p ∧ Recovers f.cfg now p := by
  refine foldl_zipIdx_choice id _ rfl ?_ h
  intro best p i
  dsimp only
  split_ifs with hr
  · exact .inr ⟨rfl, hr.1⟩
  · exact .inl rfl

/-! ## What stays disabled -/

/-- The path at index `i` exists and is disabled. -/
def Disabled (f : Failover) (i : ℕ) : Prop := ∃ p, f.paths[i]? = some p ∧ p.state = .disabled

theorem Disabled.modifyPath_of_ne {i k : ℕ} (hik : i ≠ k) (h : f.Disabled i) :
    (f.modifyPath k g).Disabled i := by
  obtain ⟨p, hp, hs⟩ := h
  refine ⟨p, ?_, hs⟩
  show (f.paths.modify k g)[i]? = some p
  rw [List.getElem?_modify_ne g f.paths (Ne.symm hik), hp]

theorem disabled_modifyPath_self {k : ℕ} :
    (f.modifyPath k g).Disabled k ↔ ∃ p, f.paths[k]? = some p ∧ (g p).state = .disabled := by
  have hk : (f.modifyPath k g).paths[k]? = f.paths[k]?.map g := List.getElem?_modify_eq g k f.paths
  simp only [Disabled, hk, Option.map_eq_some_iff]
  constructor
  · rintro ⟨_, ⟨p, hp, rfl⟩, hs⟩
    exact ⟨p, hp, hs⟩
  · rintro ⟨p, hp, hs⟩
    exact ⟨g p, ⟨p, hp, rfl⟩, hs⟩

/-- An update that keeps the state of a disabled path keeps every path disabled. -/
theorem Disabled.modifyPath {i k : ℕ} (hg : ∀ p, p.state = .disabled → (g p).state = .disabled)
    (h : f.Disabled i) :
    (f.modifyPath k g).Disabled i := by
  by_cases hik : i = k
  · subst hik
    obtain ⟨p, hp, hs⟩ := h
    exact disabled_modifyPath_self.2 ⟨p, hp, hg p hs⟩
  · exact h.modifyPath_of_ne hik

/-- An update that overwrites the state undoes the path it is about, and no other. -/
theorem Disabled.modifyPath_iff_ne {i k : ℕ} (hg : ∀ p, (g p).state ≠ .disabled) (h : f.Disabled i)
    :
    (f.modifyPath k g).Disabled i ↔ i ≠ k := by
  constructor
  · rintro hi rfl
    obtain ⟨p, -, hs⟩ := disabled_modifyPath_self.1 hi
    exact hg p hs
  · intro hne
    exact h.modifyPath_of_ne hne

theorem Disabled.reportFailure (err : String) (h : f.Disabled i) :
    (f.reportFailure err).2.Disabled i := by
  unfold Failover.reportFailure
  split
  · exact h
  · exact h.modifyPath fun _ hs => hs

/-- `ReportSuccess` overwrites the state of the active path, and of no other. -/
theorem disabled_reportSuccess (h : f.Disabled i) : f.reportSuccess.Disabled i ↔ i ≠ f.activePath :=
  h.modifyPath_iff_ne fun _ => nofun

theorem doFailover_disabled_eq (f : Failover) (k : ℕ) (now : Int) (i : ℕ) :
    (f.doFailover k now).2.Disabled i ↔
      (f.modifyPath k fun p => { p with state := .unhealthy, lastCheck := now }).Disabled i := by
  unfold doFailover
  dsimp only
  split <;> rfl

/-- `doFailover` overwrites the state of the failed path, and of no other. -/
theorem disabled_doFailover {i k : ℕ} (now : Int) (h : f.Disabled i) :
    (f.doFailover k now).2.Disabled i ↔ i ≠ k := by
  rw [doFailover_disabled_eq]
  exact h.modifyPath_iff_ne fun _ => nofun

theorem Disabled.checkPaths (now : Int) (h : f.Disabled i) : (f.checkPaths now).2.Disabled i := by
  obtain ⟨p, hp, hs⟩ := h
  have hpaths : (f.checkPaths now).2.paths = f.paths.map (recover f.cfg now) := by
    unfold Failover.checkPaths
    dsimp only
    split
    · rfl
    · split <;> rfl
  -- only unhealthy paths recover
  have hrec : recover f.cfg now p = p := by
    rw [recover, if_neg]
    rintro ⟨hu, -⟩
    rw [hs] at hu
    cases hu
  exact ⟨p, by rw [hpaths, List.getElem?_map, hp, Option.map_some, hrec], hs⟩

theorem Disabled.forceSwitch (pathName : String) (h : f.Disabled i) :
    (f.forceSwitch pathName).2.Disabled i := by
  unfold Failover.forceSwitch
  split
  · exact h
  · split <;> exact h

theorem findPath_lt (h : f.findPath pathName = some i) : ∃ p, f.paths[i]? = some p := by
  obtain ⟨hi, -⟩ := List.findIdx?_eq_some_iff_getElem.1 h
  exact ⟨f.paths[i], List.getElem?_eq_getElem hi⟩

theorem Disabled.disablePath (pathName : String) (h : f.Disabled i) :
    (f.disablePath pathName).Disabled i := by
  unfold Failover.disablePath
  split
  · exact h
  · exact h.modifyPath fun _ _ => rfl

theorem disabled_disablePath (h : f.findPath pathName = some i) :
    (f.disablePath pathName).Disabled i := by
  obtain ⟨p, hp⟩ := findPath_lt h
  unfold Failover.disablePath
  rw [h]
  exact disabled_modifyPath_self.2 ⟨p, hp, rfl⟩

theorem Disabled.enablePath (now : Int) (hi : f.findPath pathName ≠ some i) (h : f.Disabled i) :
    (f.enablePath pathName now).Disabled i := by
  unfold Failover.enablePath
  split
  · exact h
  · rename_i k hk
    apply h.modifyPath_of_ne
    rintro rfl
    exact hi hk

/-! ## Automatic switches -/

/-- `doFailover` never switches to a path that was disabled. -/
theorem doFailover_target (h : (f.doFailover k now).1 = some j) (hjk : f.Disabled j) : j = k := by
  by_contra hne
  -- the selection runs after the failed path has been marked
  obtain ⟨p, hp, hs⟩ := hjk.modifyPath_of_ne (g := fun p =>
    { p with state := .unhealthy, lastCheck := now }) hne
  unfold doFailover at h
  dsimp only at h
  split at h
  · cases h
  · rename_i n hn
    obtain rfl : n = j := Option.some.inj h
    obtain ⟨q, hq, he⟩ := selectNextPath_eligible hn
    obtain rfl : p = q := Option.some.inj (hp.symm.trans hq)
    exact he (.inr hs)

/-- `checkPaths` never switches to a path that was disabled. -/
theorem checkPaths_target {j : ℕ} (h : (f.checkPaths now).1 = some j) : ¬ f.Disabled j := by
  rintro ⟨p, hp, hs⟩
  unfold checkPaths at h
  dsimp only at h
  split at h
  · cases h
  · rename_i n hn
    split at h
    · obtain rfl : n = j := Option.some.inj h
      obtain ⟨q, hq, hu, -⟩ := bestRecovered_recovers hn
      obtain rfl : p = q := Option.some.inj (hp.symm.trans hq)
      rw [hs] at hu
      cases hu
    · cases h

end Failover
