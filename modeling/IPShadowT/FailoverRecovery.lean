/-
# Recovery of a better path, and switches that fail

`checkPaths` and `ForceSwitch` of `core/failover.go` (lines 341 to 432) switch without having
been told of a failure.

* `checkPaths` overwrites `bestRecoveredIdx` with every recovered path that is better than the
  active one, and does not compare the recovered paths with each other.  The last of them in
  the list is taken; `recoversBest_iff` says when that is the best one.
* Both store the new index before they call `onSwitch`, and neither stores the old one again when
  `onSwitch` fails: `failedSwitch_undone_iff`.
-/
import IPShadowT.FailoverOrder
import Mathlib.Data.List.Induction

open Runs

namespace Failover

/-! ## The path that recovery switches to -/

/-- The path recovers at `now` and its priority number is below the active path's. -/
def HigherRecovers (f : Failover) (now : Int) (p : PathInfo) : Prop :=
  Recovers f.cfg now p
    ∧ f.paths[f.activePath]?.any (fun a => p.config.priority < a.config.priority)

instance (f : Failover) (now : Int) : DecidablePred (f.HigherRecovers now) :=
  fun _ => inferInstanceAs (Decidable (_ ∧ _))

/-- The recovered paths that are better than the active one, in the order of the list. -/
def higherRecovered (f : Failover) (now : Int) : List PathInfo :=
  f.paths.filter (f.HigherRecovers now)

variable {f : Failover} {now : Int} {i : ℕ} {onSwitch : Option OnSwitch}

/-- A loop that notes every index with a property ends with the last of them. -/
theorem foldl_zipIdx_last {α : Type*} (P : α → Prop) [DecidablePred P] (l : List α)
    (h : l.zipIdx.foldl (fun best pi => if P pi.1 then some pi.2 else best) none = some i) :
    ∃ l₁ a l₂, l = l₁ ++ a :: l₂ ∧ l₁.length = i ∧ P a ∧ ∀ b ∈ l₂, ¬ P b := by
  induction l using List.reverseRecOn with
  | nil => cases h
  | append_singleton l b ih =>
    rw [List.zipIdx_append, List.foldl_append, Nat.zero_add] at h
    by_cases hb : P b
    · obtain rfl : l.length = i := by simpa [hb] using h
      exact ⟨l, b, [], rfl, rfl, hb, nofun⟩
    · obtain ⟨l₁, a, l₂, rfl, hi, ha, hlater⟩ := ih (by simpa [hb] using h)
      refine ⟨l₁, a, l₂ ++ [b], by simp, hi, ha, ?_⟩
      intro c hc
      obtain hc | hc := List.mem_append.1 hc
      · exact hlater c hc
      · rwa [List.mem_singleton.1 hc]

theorem foldl_zipIdx_eq_none_iff {α : Type*} (P : α → Prop) [DecidablePred P] (l : List α) :
    l.zipIdx.foldl (fun best pi => if P pi.1 then some pi.2 else best) none = none
      ↔ ∀ a ∈ l, ¬ decide (P a) := by
  induction l using List.reverseRecOn with
  | nil => simp
  | append_singleton l b ih =>
    rw [List.zipIdx_append, List.foldl_append, Nat.zero_add]
    by_cases hb : P b
    · simp [hb]
    · simpa [hb, or_imp, forall_and] using ih

/-- Where recovery switches, it is to the last of the better paths. -/
theorem bestRecovered_eq_some (h : f.bestRecovered now = some i) :
    ∃ p, f.paths[i]? = some p ∧ (f.higherRecovered now).getLast? = some p := by
  obtain ⟨l₁, p, l₂, hpaths, rfl, hp, hlater⟩ := foldl_zipIdx_last (f.HigherRecovers now) f.paths h
  refine ⟨p, by simp [hpaths], ?_⟩
  have hnone : l₂.filter (f.HigherRecovers now) = [] :=
    List.filter_eq_nil_iff.2 fun b hb => by simpa using hlater b hb
  rw [higherRecovered, hpaths, List.filter_append, List.filter_cons_of_pos (by simpa using hp),
    hnone, List.getLast?_concat]

theorem bestRecovered_eq_none_iff : f.bestRecovered now = none ↔ f.higherRecovered now = [] := by
  rw [higherRecovered, List.filter_eq_nil_iff]
  exact foldl_zipIdx_eq_none_iff (f.HigherRecovers now) f.paths

theorem mem_higherRecovered {p : PathInfo} :
    p ∈ f.higherRecovered now ↔
      p ∈ f.paths ∧ Recovers f.cfg now p
        ∧ ∃ a, f.paths[f.activePath]? = some a ∧ p.config.priority < a.config.priority := by
  rw [higherRecovered, List.mem_filter, decide_eq_true_iff, HigherRecovers, Option.any_eq_true]
  simp only [decide_eq_true_iff]

theorem checkPaths_of_priority (h : f.cfg.strategy = .priority) (now : Int) :
    (f.checkPaths now).1 = f.bestRecovered now := by
  unfold checkPaths
  dsimp only
  split
  · rename_i hnone
    exact hnone.symm
  · rename_i i hi
    rw [if_pos h, hi]

/-- **What recovery is for**: if `checkPaths` switches, it is to a path that recovers in this tick,
with the smallest priority number of those that do, and this number is below the active path's. -/
def RecoversBest (f : Failover) (now : Int) : Prop :=
  ∀ i, (f.checkPaths now).1 = some i →
    ∃ p, f.paths[i]? = some p ∧ Recovers f.cfg now p
      ∧ (∀ q ∈ f.paths, Recovers f.cfg now q → p.config.priority ≤ q.config.priority)
      ∧ ∃ a, f.paths[f.activePath]? = some a ∧ p.config.priority < a.config.priority

/-- Then the last of the better paths is the best of them. -/
theorem RecoversBest.last_le (hbest : f.RecoversBest now) (hstrategy : f.cfg.strategy = .priority)
    {p q : PathInfo} (hp : (f.higherRecovered now).getLast? = some p)
    (hq : q ∈ f.higherRecovered now) :
    p.config.priority ≤ q.config.priority := by
  cases hi : f.bestRecovered now with
  | none =>
    rw [bestRecovered_eq_none_iff.1 hi] at hp
    cases hp
  | some i =>
    obtain ⟨p', hp', hlast⟩ := bestRecovered_eq_some hi
    obtain rfl : p' = p := Option.some.inj (hlast.symm.trans hp)
    obtain ⟨p'', hp'', -, hle, -⟩ := hbest i ((checkPaths_of_priority hstrategy now).trans hi)
    obtain rfl : p' = p'' := Option.some.inj (hp'.symm.trans hp'')
    obtain ⟨hmem, hrec, -⟩ := mem_higherRecovered.1 hq
    exact hle q hmem hrec

theorem recoversBest_of_last_le (hstrategy : f.cfg.strategy = .priority)
    (hlast : ∀ p, (f.higherRecovered now).getLast? = some p →
      ∀ q ∈ f.higherRecovered now, p.config.priority ≤ q.config.priority) :
    f.RecoversBest now := by
  intro i hi
  rw [checkPaths_of_priority hstrategy] at hi
  obtain ⟨p, hp, hget⟩ := bestRecovered_eq_some hi
  obtain ⟨-, hrec, a, ha, hlt⟩ := mem_higherRecovered.1 (List.mem_of_getLast? hget)
  refine ⟨p, hp, hrec, ?_, a, ha, hlt⟩
  intro q hq hqrec
  by_cases hqa : q.config.priority < a.config.priority
  · exact hlast p hget q (mem_higherRecovered.2 ⟨hq, hqrec, a, ha, hqa⟩)
  · omega

/-- **When recovery picks the best path**: when the last, in the order of the list, of the recovered
paths that are better than the active one is the best of them. -/
theorem recoversBest_iff {f : Failover} (hstrategy : f.cfg.strategy = .priority) (now : Int) :
    f.RecoversBest now ↔
      ∀ p, (f.higherRecovered now).getLast? = some p →
        ∀ q ∈ f.higherRecovered now, p.config.priority ≤ q.config.priority :=
  ⟨fun hbest _ hp _ hq => hbest.last_le hstrategy hp hq, recoversBest_of_last_le hstrategy⟩

/-- Three paths, the first with the smallest number. -/
def threePaths : List PathConfig :=
  [⟨"primary", "10.0.0.1:443", "tls", 1, 1⟩, ⟨"second", "10.0.0.2:443", "tls", 2, 1⟩,
    ⟨"third", "10.0.0.3:443", "tls", 3, 1⟩]

/-- The manager of three paths after the first and then the second have failed at time 0: the third
is active. -/
def twoFailed : Failover :=
  (((newFailover threePaths defaultFailoverConfig fun _ => 0).doFailover 0 0).2.doFailover 1 0).2

/-- The two paths that have failed recover in the same tick, and the worse one is taken. -/
theorem twoFailed_recovers_second :
    twoFailed.activePath = 2 ∧ (twoFailed.checkPaths 60000000000).1 = some 1
      ∧ ¬ twoFailed.RecoversBest 60000000000 := by
  have hswitch : (twoFailed.checkPaths 60000000000).1 = some 1 := by decide
  have hsecond : twoFailed.paths[1]?.map (·.config.priority) = some 2 := by decide
  have hfirst : ∃ q ∈ twoFailed.paths, Recovers twoFailed.cfg 60000000000 q
      ∧ q.config.priority = 1 := by decide
  refine ⟨by decide, hswitch, ?_⟩
  intro h
  obtain ⟨p, hp, -, hle, -⟩ := h 1 hswitch
  obtain ⟨q, hq, hrec, hq1⟩ := hfirst
  have hp2 : p.config.priority = 2 := by
    rw [hp] at hsecond
    exact Option.some.inj hsecond
  have := hle q hq hrec
  omega

/-- With the first path down and the second active, recovery is to the first. -/
theorem oneFailed_recovers_first :
    let f := ((newFailover twoPaths defaultFailoverConfig fun _ => 0).doFailover 0 0).2
    f.cfg.strategy = .priority ∧ (f.checkPaths 60000000000).1 = some 0
      ∧ f.RecoversBest 60000000000 := by
  intro f
  have hlength : (f.higherRecovered 60000000000).length = 1 := by decide
  refine ⟨rfl, by decide, (recoversBest_iff rfl _).2 ?_⟩
  intro p hp q hq
  obtain ⟨x, hx⟩ := List.length_eq_one_iff.1 hlength
  rw [hx] at hp hq
  obtain rfl : x = p := Option.some.inj hp
  exact Int.le_of_eq (by rw [List.mem_singleton.1 hq])

/-! ## Switches that fail -/

/-- `onSwitch`, with the two paths it is called with. -/
abbrev OnSwitch := PathConfig → PathConfig → Except String Unit

/-- The call of `onSwitch` when the active path of `f` has been replaced by the one at `toIdx`:
what it returns, if there is a switch and a callback to call. -/
def callOnSwitch (onSwitch : Option OnSwitch) (f : Failover) (toIdx : Option ℕ) :
    Option (Except String Unit) := do
  let callback ← onSwitch
  let i ← toIdx
  let fromPath ← f.paths[f.activePath]?
  let toPath ← f.paths[i]?
  return callback fromPath.config toPath.config

/-- The errors of `ForceSwitch`: `path %q not found`, or what `onSwitch` returns. -/
inductive ForceSwitchError where
  | notFound (pathName : String)
  | onSwitch (err : String)
  deriving DecidableEq, Repr

/-- `ForceSwitch` as a whole: what it returns, and the manager afterwards. -/
def forceSwitchWith (onSwitch : Option OnSwitch) (f : Failover) (pathName : String) :
    Except ForceSwitchError Unit × Failover :=
  match f.findPath pathName with
  | none => (.error (.notFound pathName), f)
  | some _ =>
    (match callOnSwitch onSwitch f (f.forceSwitch pathName).1 with
      | some (.error err) => .error (.onSwitch err)
      | some (.ok ()) => .ok ()
      | none => .ok (),
    (f.forceSwitch pathName).2)

/-- `checkPaths` with the goroutine it may start: what `onSwitch` returns there, which is only
logged, and the manager afterwards. -/
def checkPathsWith (onSwitch : Option OnSwitch) (f : Failover) (now : Int) :
    Option (Except String Unit) × Failover :=
  (callOnSwitch onSwitch f (f.checkPaths now).1, (f.checkPaths now).2)

/-- `ForceSwitch` switches to another path than the active one. -/
theorem forceSwitch_eq_some {pathName : String} (h : (f.forceSwitch pathName).1 = some i) :
    (f.forceSwitch pathName).2.activePath = i ∧ i ≠ f.activePath := by
  unfold forceSwitch at h ⊢
  split at h
  · cases h
  · split_ifs at h ⊢ with heq
    obtain rfl := Option.some.inj h
    exact ⟨rfl, heq⟩

/-- So does recovery, which compares the priorities strictly. -/
theorem checkPaths_eq_some (h : (f.checkPaths now).1 = some i) :
    (f.checkPaths now).2.activePath = i ∧ i ≠ f.activePath := by
  unfold checkPaths at h ⊢
  dsimp only at h ⊢
  split at h
  · cases h
  · rename_i j hj
    split_ifs at h ⊢
    obtain rfl := Option.some.inj h
    refine ⟨rfl, ?_⟩
    rintro rfl
    obtain ⟨p, hp, hlast⟩ := bestRecovered_eq_some hj
    obtain ⟨-, -, a, ha, hlt⟩ := mem_higherRecovered.1 (List.mem_of_getLast? hlast)
    obtain rfl : p = a := Option.some.inj (hp.symm.trans ha)
    exact Int.lt_irrefl _ hlt

theorem callOnSwitch_eq_some {toIdx : Option ℕ} {r : Except String Unit}
    (h : callOnSwitch onSwitch f toIdx = some r) :
    ∃ i, toIdx = some i := by
  cases toIdx with
  | none => cases onSwitch <;> cases h
  | some i => exact ⟨i, rfl⟩

/-- Where `onSwitch` fails under `ForceSwitch`, the active path is another one than before. -/
theorem forceSwitchWith_of_error {pathName err : String}
    (h : (f.forceSwitchWith onSwitch pathName).1 = .error (.onSwitch err)) :
    (f.forceSwitchWith onSwitch pathName).2.activePath ≠ f.activePath := by
  unfold forceSwitchWith at h ⊢
  split at h
  · cases h
  · dsimp only at h ⊢
    split at h
    · rename_i hcall
      obtain ⟨i, hi⟩ := callOnSwitch_eq_some hcall
      obtain ⟨hactive, hne⟩ := forceSwitch_eq_some hi
      rwa [hactive]
    · cases h
    · cases h

/-- The same for the switch of `checkPaths`. -/
theorem checkPathsWith_of_error {err : String}
    (h : (f.checkPathsWith onSwitch now).1 = some (.error err)) :
    (f.checkPathsWith onSwitch now).2.activePath ≠ f.activePath := by
  obtain ⟨i, hi⟩ := callOnSwitch_eq_some h
  obtain ⟨hactive, hne⟩ := checkPaths_eq_some hi
  show (f.checkPaths now).2.activePath ≠ _
  rwa [hactive]

/-- **A switch whose callback fails is never undone**: the active path is what it was before only
where no callback fails. -/
theorem failedSwitch_undone_iff (onSwitch : Option OnSwitch) (f : Failover) (pathName : String)
    (now : Int) :
    ((∀ err, (f.forceSwitchWith onSwitch pathName).1 = .error (.onSwitch err) →
        (f.forceSwitchWith onSwitch pathName).2.activePath = f.activePath)
      ↔ ∀ err, (f.forceSwitchWith onSwitch pathName).1 ≠ .error (.onSwitch err))
    ∧ ((∀ err, (f.checkPathsWith onSwitch now).1 = some (.error err) →
        (f.checkPathsWith onSwitch now).2.activePath = f.activePath)
      ↔ ∀ err, (f.checkPathsWith onSwitch now).1 ≠ some (.error err)) := by
  refine ⟨⟨?_, ?_⟩, ⟨?_, ?_⟩⟩
  · intro hundone err herr
    exact forceSwitchWith_of_error herr (hundone err herr)
  · intro hnone err herr
    exact absurd herr (hnone err)
  · intro hundone err herr
    exact checkPathsWith_of_error herr (hundone err herr)
  · intro hnone err herr
    exact absurd herr (hnone err)

/-- A forced switch to a backup that cannot be reached: the error is returned and the backup is the
active path. -/
theorem forceSwitch_to_unreachable :
    let f := newFailover twoPaths defaultFailoverConfig fun _ => 0
    let r := f.forceSwitchWith (some fun _ _ => .error "dial: connection refused") "backup"
    r.1 = .error (.onSwitch "dial: connection refused")
      ∧ f.activePath = 0 ∧ r.2.activePath = 1 := by
  decide

end Failover
