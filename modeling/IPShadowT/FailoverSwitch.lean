/-
# Switching to the next path

`doFailover` of `core/failover.go` as a whole: it marks the failed path, selects another
one, calls the switch callback, and goes on from there if the callback fails.  The lock
section of one round is `Failover.doFailover`; here are the rounds.

The callback is `none` if there is none, and otherwise the outcome of its first, second, …
call.  A round uses up a path that could be selected, so that as many rounds as there are
paths are enough, and the whole call is described by `Switched`: `doFailover_switched`.
-/
import Mathlib.Data.List.Count
import IPShadowT.Failover
import IPShadowT.Runs

namespace Failover

/-! ## The rounds -/

/-- What `doFailover` returns and leaves behind, and the paths it has called the callback
for, in order. -/
structure Outcome where
  ok : Bool
  failover : Failover
  calls : List ℕ
  deriving DecidableEq, Repr

/-- `doFailover`, for at most so many rounds.  `clock` has the times that are read. -/
def doFailoverLoop : ℕ → Option (ℕ → Bool) → (ℕ → Int) → Failover → ℕ → Option Outcome
  | 0, _, _, _, _ => none
  | fuel + 1, onSwitch, clock, f, failedIdx =>
    match f.doFailover failedIdx (clock 0) with
    | (none, f₁) => some ⟨false, f₁, []⟩
    | (some nextIdx, f₁) =>
      match onSwitch with
      | none => some ⟨true, f₁, []⟩
      | some outcome =>
        if outcome 0 then some ⟨true, f₁, [nextIdx]⟩
        else
          (doFailoverLoop fuel (some fun n => outcome (n + 1)) (fun n => clock (n + 1))
            f₁ nextIdx).map fun o => { o with calls := nextIdx :: o.calls }

/-! ## Nothing eligible is overlooked -/

/-- A round of the loop of the two comparing strategies. -/
def selectRound (better : Option ℕ × Int → PathInfo → Bool) (key : PathInfo → Int) (k : ℕ)
    (best : Option ℕ × Int) (pi : PathInfo × ℕ) : Option ℕ × Int :=
  if pi.2 = k then best
  else if ¬ pi.1.Eligible then best
  else if better best pi.1 then (some pi.2, key pi.1)
  else best

variable {j : ℕ} {p : PathInfo}

section SelectBest

variable {better : Option ℕ × Int → PathInfo → Bool} {key : PathInfo → Int} {k : ℕ}

/-- A choice is never given up. -/
theorem foldl_selectRound_ne_none (l : List (PathInfo × ℕ)) {best : Option ℕ × Int}
    (h : best.1 ≠ none) : (l.foldl (selectRound better key k) best).1 ≠ none := by
  induction l generalizing best with
  | nil => exact h
  | cons x l ih =>
    apply ih
    unfold selectRound
    split_ifs
    · exact h
    · simp
    · exact h
    · exact h

/-- A loop that takes the first path that it may take ends without a choice only if there
was nothing to choose from. -/
theorem foldl_selectRound_eq_none {init : Int} {l : List (PathInfo × ℕ)}
    (hfirst : ∀ x ∈ l, better (none, init) x.1 = true)
    (h : (l.foldl (selectRound better key k) (none, init)).1 = none) :
    ∀ x ∈ l, x.2 ≠ k → ¬ x.1.Eligible := by
  induction l with
  | nil =>
    intro y hy
    cases hy
  | cons x l ih =>
    rw [List.foldl_cons] at h
    obtain ⟨hx, hl⟩ := List.forall_mem_cons.1 hfirst
    by_cases hchosen : x.2 ≠ k ∧ x.1.Eligible
    · have htakes : selectRound better key k (none, init) x = (some x.2, key x.1) := by
        rw [selectRound, if_neg hchosen.1, if_neg (not_not.2 hchosen.2), if_pos hx]
      rw [htakes] at h
      exact absurd h (foldl_selectRound_ne_none l (by simp))
    · have hskips : selectRound better key k (none, init) x = (none, init) := by
        unfold selectRound
        split_ifs with hk hel
        · rfl
        · exact absurd ⟨hk, hel⟩ hchosen
        · rfl
      rw [hskips] at h
      exact List.forall_mem_cons.2 ⟨fun hk hel => hchosen ⟨hk, hel⟩, ih hl h⟩

theorem selectBest_eq_none {init : Int} {paths : List PathInfo}
    (hfirst : ∀ p ∈ paths, better (none, init) p = true)
    (h : selectBest better key init paths k = none) (hj : paths[j]? = some p) (hjk : j ≠ k) :
    ¬ p.Eligible := by
  have hmem : ∀ x ∈ paths.zipIdx, x.1 ∈ paths := fun x hx =>
    List.mem_of_getElem? (List.mem_zipIdx_iff_getElem?.1 hx)
  exact foldl_selectRound_eq_none (fun x hx => hfirst x.1 (hmem x hx)) h (p, j)
    (List.mem_zipIdx_iff_getElem?.2 hj) hjk

end SelectBest

/-- Going round from the excluded path reaches every other one. -/
theorem selectRoundRobin_eq_none {paths : List PathInfo} {k : ℕ} (hk : k < paths.length)
    (h : selectRoundRobin paths k = none) (hj : paths[j]? = some p) (hjk : j ≠ k) :
    ¬ p.Eligible := by
  have hlt : j < paths.length := (List.getElem?_eq_some_iff.1 hj).1
  have hvisited : j ∈ (List.range' 1 (paths.length - 1)).map
      fun i => (k + i) % paths.length := by
    rw [List.mem_map]
    rcases Nat.lt_or_gt_of_ne hjk with hless | hgreater
    · refine ⟨j + paths.length - k, List.mem_range'_1.2 (by omega), ?_⟩
      rw [show k + (j + paths.length - k) = j + paths.length by omega, Nat.add_mod_right,
        Nat.mod_eq_of_lt hlt]
    · refine ⟨j - k, List.mem_range'_1.2 (by omega), ?_⟩
      rw [show k + (j - k) = j by omega, Nat.mod_eq_of_lt hlt]
  have hno := List.find?_eq_none.1 h j hvisited
  intro hel
  apply hno
  simp [hj, hel]

/-- **No strategy overlooks an eligible path**, if the priorities are below the maximum. -/
theorem selectNextPath_eq_none {f : Failover} {k : ℕ} (hk : k < f.paths.length)
    (hprio : ∀ p ∈ f.paths, p.config.priority < maxInt) (h : f.selectNextPath k = none)
    (hj : f.paths[j]? = some p) (hjk : j ≠ k) : ¬ p.Eligible := by
  have hpriority : selectByPriority f.paths k = none → ¬ p.Eligible := fun hnone =>
    selectBest_eq_none (fun q hq => decide_eq_true (hprio q hq)) hnone hj hjk
  have hlatency : selectByLatency f.paths k = none → ¬ p.Eligible := fun hnone =>
    selectBest_eq_none (fun q _ => decide_eq_true (Or.inl rfl)) hnone hj hjk
  unfold selectNextPath at h
  split at h
  · exact hpriority h
  · exact selectRoundRobin_eq_none hk h hj hjk
  · exact hlatency h
  · exact hpriority h

/-! ## One round -/

/-- The failed path is marked. -/
def markFailed (f : Failover) (k : ℕ) (now : Int) : Failover :=
  f.modifyPath k fun p => { p with state := .unhealthy, lastCheck := now }

section Round

variable {f : Failover} {k : ℕ} {now : Int}

theorem markFailed_getElem?_ne (h : j ≠ k) : (f.markFailed k now).paths[j]? = f.paths[j]? :=
  List.getElem?_modify_ne _ f.paths (Ne.symm h)

theorem markFailed_getElem?_self :
    (f.markFailed k now).paths[k]?
      = f.paths[k]?.map fun p => { p with state := .unhealthy, lastCheck := now } :=
  List.getElem?_modify_eq _ k f.paths

/-- The paths that are eligible after the failed one has been marked. -/
theorem markFailed_eligible_iff :
    (∃ p, (f.markFailed k now).paths[j]? = some p ∧ p.Eligible) ↔
      j ≠ k ∧ ∃ p, f.paths[j]? = some p ∧ p.Eligible := by
  by_cases hjk : j = k
  · subst hjk
    refine iff_of_false ?_ fun h => h.1 rfl
    rintro ⟨p, hp, hel⟩
    rw [markFailed_getElem?_self] at hp
    obtain ⟨q, -, rfl⟩ := Option.map_eq_some_iff.1 hp
    exact hel (.inl rfl)
  · rw [markFailed_getElem?_ne hjk]
    exact (and_iff_right hjk).symm

theorem markFailed_priority (h : ∀ p ∈ f.paths, p.config.priority < maxInt) :
    ∀ p ∈ (f.markFailed k now).paths, p.config.priority < maxInt := by
  intro p hp
  obtain ⟨j, hj⟩ := List.mem_iff_getElem?.1 hp
  by_cases hjk : j = k
  · subst hjk
    rw [markFailed_getElem?_self] at hj
    obtain ⟨q, hq, rfl⟩ := Option.map_eq_some_iff.1 hj
    exact h q (List.mem_of_getElem? hq)
  · rw [markFailed_getElem?_ne hjk] at hj
    exact h p (List.mem_of_getElem? hj)

theorem doFailover_of_none (h : (f.markFailed k now).selectNextPath k = none) :
    f.doFailover k now = (none, f.markFailed k now) := by
  rw [markFailed] at h ⊢
  simp only [doFailover, h]

theorem doFailover_of_some (h : (f.markFailed k now).selectNextPath k = some j) :
    f.doFailover k now = (some j, { f.markFailed k now with activePath := j }) := by
  rw [markFailed] at h ⊢
  simp only [doFailover, h]

/-- **What a round does**: it marks the failed path, and then either there is no eligible
path, or it makes one the active path that was eligible before. -/
theorem doFailover_cases (now : Int) (hk : k < f.paths.length)
    (hprio : ∀ p ∈ f.paths, p.config.priority < maxInt) :
    (f.doFailover k now = (none, f.markFailed k now) ∧
        ∀ p ∈ (f.markFailed k now).paths, ¬ p.Eligible) ∨
      ∃ j, f.doFailover k now = (some j, { f.markFailed k now with activePath := j }) ∧
        j ≠ k ∧ ∃ p, f.paths[j]? = some p ∧ p.Eligible := by
  cases hnext : (f.markFailed k now).selectNextPath k with
  | none =>
    refine .inl ⟨doFailover_of_none hnext, fun p hp hel => ?_⟩
    obtain ⟨j, hj⟩ := List.mem_iff_getElem?.1 hp
    have hjk : j ≠ k := (markFailed_eligible_iff.1 ⟨p, hj, hel⟩).1
    have hk' : k < (f.markFailed k now).paths.length := by
      rwa [markFailed, modifyPath, List.length_modify]
    exact selectNextPath_eq_none hk' (markFailed_priority hprio) hnext hj hjk hel
  | some j =>
    exact .inr ⟨j, doFailover_of_some hnext,
      markFailed_eligible_iff.1 (selectNextPath_eligible hnext)⟩

/-- How many paths can be selected. -/
def eligibleCount (f : Failover) : ℕ := f.paths.countP fun p => p.Eligible

/-- Marking an eligible path uses it up. -/
theorem eligibleCount_markFailed (now : Int) (hk : f.paths[k]? = some p) (hel : p.Eligible) :
    (f.markFailed k now).eligibleCount + 1 = f.eligibleCount := by
  obtain ⟨hlt, hget⟩ := List.getElem?_eq_some_iff.1 hk
  have hset : (f.markFailed k now).paths
      = f.paths.set k { p with state := .unhealthy, lastCheck := now } := by
    rw [markFailed, modifyPath, List.modify_eq_set_get _ hlt, List.get_eq_getElem, hget]
  have hcount := Runs.countP_set_add (fun p : PathInfo => decide p.Eligible) hk
    { p with state := .unhealthy, lastCheck := now }
  have hmarked : ¬ PathInfo.Eligible { p with state := .unhealthy, lastCheck := now } :=
    fun h => h (.inl rfl)
  rw [decide_eq_true hel, decide_eq_false hmarked] at hcount
  rw [eligibleCount, eligibleCount, hset]
  simpa using hcount

theorem eligibleCount_markFailed_lt (hk : k < f.paths.length) :
    (f.markFailed k now).eligibleCount < f.paths.length := by
  have hlength : (f.markFailed k now).paths.length = f.paths.length := by
    rw [markFailed, modifyPath, List.length_modify]
  rw [← hlength, eligibleCount]
  have hget : (f.markFailed k now).paths[k]? = some (f.markFailed k now).paths[k] :=
    List.getElem?_eq_getElem (hlength ▸ hk)
  refine List.countP_lt_length_iff.2 ⟨_, List.mem_of_getElem? hget, decide_eq_false fun hel => ?_⟩
  exact (markFailed_eligible_iff.1 ⟨_, hget, hel⟩).1 rfl

end Round

/-! ## The whole call -/

/-- `f'` is `f` but for the active path and, on the paths tried, the state and the time of
the last check. -/
structure SameBut (l : List ℕ) (f f' : Failover) : Prop where
  cfg : f'.cfg = f.cfg
  length : f'.paths.length = f.paths.length
  untouched : ∀ j, j ∉ l → f'.paths[j]? = f.paths[j]?
  touched : ∀ (j : ℕ) (p : PathInfo), f.paths[j]? = some p →
    ∃ state lastCheck, f'.paths[j]? = some { p with state := state, lastCheck := lastCheck }

theorem SameBut.markFailed (f : Failover) (k : ℕ) (now : Int) (active : ℕ) :
    SameBut [k] f { f.markFailed k now with activePath := active } where
  cfg := rfl
  length := List.length_modify _ _ _
  untouched j hj := markFailed_getElem?_ne fun h => hj (List.mem_singleton.2 h)
  touched j p hp := by
    by_cases hjk : j = k
    · subst hjk
      exact ⟨.unhealthy, now, by
        show (f.markFailed j now).paths[j]? = _
        rw [markFailed_getElem?_self, hp, Option.map_some]⟩
    · exact ⟨p.state, p.lastCheck, (markFailed_getElem?_ne hjk).trans hp⟩

theorem SameBut.mono {l l' : List ℕ} {f f' : Failover} (hsub : l ⊆ l') (h : SameBut l f f') :
    SameBut l' f f' :=
  { h with untouched := fun j hj => h.untouched j fun hmem => hj (hsub hmem) }

theorem SameBut.trans {l l' : List ℕ} {f f' f'' : Failover} (h : SameBut l f f')
    (h' : SameBut l' f' f'') : SameBut (l ++ l') f f'' where
  cfg := h'.cfg.trans h.cfg
  length := h'.length.trans h.length
  untouched j hj := by
    rw [List.mem_append, not_or] at hj
    rw [h'.untouched j hj.2, h.untouched j hj.1]
  touched j p hp := by
    obtain ⟨state, lastCheck, hp'⟩ := h.touched j p hp
    obtain ⟨state', lastCheck', hp''⟩ := h'.touched j _ hp'
    exact ⟨state', lastCheck', hp''⟩

/-- Path `j` is one that the call may end with: the callback succeeded for it, or there is
no callback and it is eligible. -/
def Succeeds (f : Failover) (i : ℕ) (calls : List ℕ) (j : ℕ) : Option (ℕ → Bool) → Prop
  | some outcome => ∃ n, calls[n]? = some j ∧ outcome n = true
  | none => j ≠ i ∧ ∃ p, f.paths[j]? = some p ∧ p.Eligible

/-- What `doFailover(i)` is to do. -/
structure Switched (onSwitch : Option (ℕ → Bool)) (f : Failover) (i : ℕ) (o : Outcome) :
    Prop where
  /-- the callback is called for paths other than `i` that were neither unhealthy nor
  disabled -/
  eligible : ∀ j ∈ o.calls, j ≠ i ∧ ∃ p, f.paths[j]? = some p ∧ p.Eligible
  /-- and for none twice -/
  nodup : o.calls.Nodup
  /-- the result says whether there was a success -/
  ok_iff : o.ok = true ↔ ∃ j, Succeeds f i o.calls j onSwitch
  /-- and a path that it was for is active -/
  active : o.ok = true → Succeeds f i o.calls o.failover.activePath onSwitch
  /-- there is no other one that the callback succeeded for -/
  once : ∀ outcome, onSwitch = some outcome → ∀ n j, o.calls[n]? = some j →
    outcome n = true → o.failover.activePath = j
  /-- it gives up only if no path is left -/
  exhausted : o.ok = false → ∀ p ∈ o.failover.paths, p.state = .unhealthy ∨ p.state = .disabled
  /-- nothing else is changed -/
  sameBut : SameBut (i :: o.calls) f o.failover
  /-- the active path exists -/
  valid : f.activePath < f.paths.length → o.failover.activePath < o.failover.paths.length

section WholeCall

variable {onSwitch : Option (ℕ → Bool)} {f : Failover} {i : ℕ} {now : Int}

/-- A call that finds no eligible path. -/
theorem Switched.exhaust (hno : ∀ p ∈ (f.markFailed i now).paths, ¬ p.Eligible) :
    Switched onSwitch f i ⟨false, f.markFailed i now, []⟩ where
  eligible := nofun
  nodup := List.nodup_nil
  ok_iff := by
    refine iff_of_false nofun ?_
    rintro ⟨j, hj⟩
    cases onSwitch with
    | some outcome =>
      obtain ⟨n, hn, -⟩ := hj
      cases hn
    | none =>
      obtain ⟨p, hp, hel⟩ := markFailed_eligible_iff.2 hj
      exact hno p (List.mem_of_getElem? hp) hel
  active := nofun
  once _ _ n j hn := by cases hn
  exhausted _ p hp := not_not.1 (hno p hp)
  sameBut := SameBut.markFailed f i now f.activePath
  valid h := by rwa [markFailed, modifyPath, List.length_modify]

section Selected

variable {j : ℕ} {p : PathInfo} (hji : j ≠ i) (hj : f.paths[j]? = some p) (hel : p.Eligible)
include hji hj hel

/-- A call without a callback that finds an eligible path. -/
theorem Switched.select :
    Switched none f i ⟨true, { f.markFailed i now with activePath := j }, []⟩ where
  eligible := nofun
  nodup := List.nodup_nil
  ok_iff := iff_of_true rfl ⟨j, hji, p, hj, hel⟩
  active _ := ⟨hji, p, hj, hel⟩
  once := nofun
  exhausted := nofun
  sameBut := SameBut.markFailed f i now j
  valid _ := by
    show j < (f.paths.modify i _).length
    rw [List.length_modify]
    exact (List.getElem?_eq_some_iff.1 hj).1

/-- A call whose first callback succeeds. -/
theorem Switched.succeed {outcome : ℕ → Bool} (hok : outcome 0 = true) :
    Switched (some outcome) f i ⟨true, { f.markFailed i now with activePath := j }, [j]⟩ where
  eligible := List.forall_mem_singleton.2 ⟨hji, p, hj, hel⟩
  nodup := by simp
  ok_iff := iff_of_true rfl ⟨j, 0, rfl, hok⟩
  active _ := ⟨0, rfl, hok⟩
  once _ _ n k hn _ := by
    obtain ⟨-, rfl⟩ := List.getElem?_eq_some_iff.1 hn
    exact (List.getElem_singleton _).symm
  exhausted := nofun
  sameBut := (SameBut.markFailed f i now j).mono (by simp)
  valid := (Switched.select hji hj hel).valid

/-- A call whose first callback fails, and that goes on from the path it was for. -/
theorem Switched.retry {outcome : ℕ → Bool} (hfail : outcome 0 = false) {o : Outcome}
    (h : Switched (some fun n => outcome (n + 1))
      { f.markFailed i now with activePath := j } j o) :
    Switched (some outcome) f i { o with calls := j :: o.calls } where
  eligible := by
    refine List.forall_mem_cons.2 ⟨⟨hji, p, hj, hel⟩, fun k hk => ?_⟩
    exact markFailed_eligible_iff.1 (h.eligible k hk).2
  nodup := List.nodup_cons.2 ⟨fun hmem => (h.eligible j hmem).1 rfl, h.nodup⟩
  ok_iff := by
    rw [h.ok_iff]
    constructor
    · rintro ⟨k, n, hn, hok⟩
      exact ⟨k, n + 1, hn, hok⟩
    · rintro ⟨k, n, hn, hok⟩
      cases n with
      | zero => exact absurd (hfail.symm.trans hok) Bool.false_ne_true
      | succ n => exact ⟨k, n, hn, hok⟩
  active hok := by
    obtain ⟨n, hn, hout⟩ := h.active hok
    exact ⟨n + 1, hn, hout⟩
  once := by
    intro outcome' heq n k hn hok
    obtain rfl := Option.some.inj heq
    cases n with
    | zero => exact absurd (hfail.symm.trans hok) Bool.false_ne_true
    | succ n => exact h.once _ rfl n k hn hok
  exhausted := h.exhausted
  sameBut := (SameBut.markFailed f i now j).trans h.sameBut
  valid _ := h.valid ((Switched.select hji hj hel).valid (by omega))

end Selected

/-- One round more than there are eligible paths left is enough, whatever the callback
returns. -/
theorem doFailoverLoop_switched (onSwitch : Option (ℕ → Bool)) {n : ℕ} (clock : ℕ → Int)
    (hi : i < f.paths.length) (hprio : ∀ p ∈ f.paths, p.config.priority < maxInt)
    (hn : (f.markFailed i (clock 0)).eligibleCount < n) :
    ∃ o, Switched onSwitch f i o ∧
      ∀ spare, doFailoverLoop (n + spare) onSwitch clock f i = some o := by
  induction n generalizing onSwitch clock f i with
  | zero => exact absurd hn (Nat.not_lt_zero _)
  | succ n ih =>
    simp only [Nat.succ_add, doFailoverLoop]
    rcases doFailover_cases (clock 0) hi hprio with
      ⟨hround, hno⟩ | ⟨j, hround, hji, p, hj, hel⟩
    · simp only [hround]
      exact ⟨_, .exhaust hno, fun _ => rfl⟩
    · simp only [hround]
      cases onSwitch with
      | none => exact ⟨_, .select hji hj hel, fun _ => rfl⟩
      | some outcome =>
        dsimp only
        cases hout : outcome 0 with
        | true => exact ⟨_, .succeed hji hj hel hout, fun _ => if_pos rfl⟩
        | false =>
          set f₁ : Failover := { f.markFailed i (clock 0) with activePath := j } with hf₁
          have hj₁ : f₁.paths[j]? = some p := (markFailed_getElem?_ne hji).trans hj
          have hless : (f₁.markFailed j (clock 1)).eligibleCount < n := by
            have hcount := eligibleCount_markFailed (clock 1) hj₁ hel
            have hsame : f₁.eligibleCount = (f.markFailed i (clock 0)).eligibleCount := rfl
            omega
          obtain ⟨o, ho, hloop⟩ := ih (some fun n => outcome (n + 1))
            (fun n => clock (n + 1)) (List.getElem?_eq_some_iff.1 hj₁).1
            (markFailed_priority hprio) hless
          refine ⟨{ o with calls := j :: o.calls }, ho.retry hji hj hel hout, fun spare => ?_⟩
          rw [if_neg Bool.false_ne_true, hloop spare, Option.map_some]

/-- **`doFailover` switches to a path that works, if there is one.**  It returns, whatever
the callback does, and what it returns and leaves behind is as `Switched` says. -/
theorem doFailover_switched (onSwitch : Option (ℕ → Bool)) (clock : ℕ → Int) (f : Failover)
    (i : ℕ) (hi : i < f.paths.length) (hprio : ∀ p ∈ f.paths, p.config.priority < maxInt) :
    ∃ o, Switched onSwitch f i o ∧
      ∀ fuel, f.paths.length ≤ fuel → doFailoverLoop fuel onSwitch clock f i = some o := by
  obtain ⟨o, ho, hloop⟩ := doFailoverLoop_switched onSwitch clock hi hprio
    (eligibleCount_markFailed_lt hi)
  refine ⟨o, ho, fun fuel hfuel => ?_⟩
  obtain ⟨spare, rfl⟩ := Nat.exists_eq_add_of_le hfuel
  exact hloop spare

/-- Two paths, and a callback that fails for the other one. -/
theorem doFailover_twoPaths :
    ∃ o, Switched (some fun _ => false)
        (newFailover twoPaths defaultFailoverConfig fun _ => 0) 0 o ∧
      ∀ fuel, 2 ≤ fuel → doFailoverLoop fuel (some fun _ => false) (fun _ => 1)
        (newFailover twoPaths defaultFailoverConfig fun _ => 0) 0 = some o :=
  doFailover_switched (some fun _ => false) (fun _ => 1)
    (newFailover twoPaths defaultFailoverConfig fun _ => 0) 0 (by decide) (by decide)

end WholeCall

end Failover
