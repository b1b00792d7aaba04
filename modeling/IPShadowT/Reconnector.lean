/-
# The reconnector

Model of `Trigger`, `reconnectLoop`, `Reset` and `Stop` in `internal/stability/reconnect.go`.
`Trigger` starts a goroutine if it can move `state` from idle to reconnecting, and the goroutine
moves it back when it ends.  The counter `attempts` outlives the goroutines; a round of the loop
adds one to it, compares what it has got with `MaxAttempts`, and calls `switchFunc` if that is
exceeded.

A step is one access to what is shared, or the return of a call.  How long a wait takes and what
the two functions return is part of the event, and so is whether the counter has been idle for
`ResetAfter`.  `attempts` is an `atomic.Int32`, here a natural number: a value that has wrapped
around is below every limit for which there is something to show.

No two loops run at a time, in any run.  That `switchFunc` is called only after `MaxAttempts`
failures fails in one way: a `Reset` may come after a round has added its one and before it calls
`switchFunc` (`always_disciplined_iff`).
-/
import IPShadowT.Runs

open Runs

/-! ## The system -/

/-- Where a goroutine in `reconnectLoop` is. -/
inductive Reconnector.Phase where
  /-- before the comparison with `ResetAfter` -/
  | entered
  /-- at the head of the `for` loop -/
  | head
  /-- with the value of `attempts` that its round has got -/
  | counted (attempt : ℕ)
  /-- in `switchFunc` -/
  | switching
  /-- in the `select` with `time.After` -/
  | waiting
  /-- in `connectFunc` -/
  | connecting
  /-- before the `attempts.Store(0)` after a success -/
  | storing
  /-- before the deferred `state.Store` -/
  | leaving
  | finished
  deriving DecidableEq, Repr

open Reconnector in
/-- `Reconnector`, with the goroutines it has started.  The last three fields are not in the source:
they record what the goroutines have done. -/
structure Reconnector where
  maxAttempts : Int
  /-- whether `SetConnectFunc` and `SetSwitchFunc` have been called -/
  connectFunc : Bool
  switchFunc : Bool
  attempts : ℕ
  /-- `state` is reconnecting -/
  reconnecting : Bool
  /-- `done` is closed -/
  done : Bool
  loops : List Phase
  /-- calls of `connectFunc` that have failed since the last one that did not, the last call of
  `switchFunc` that did not and the last reset of the counter -/
  failures : ℕ
  /-- `Reset` has been called since a round has last added to the counter -/
  resetSinceAdd : Bool
  /-- `failures` at each call of `switchFunc`, the last one first -/
  switches : List ℕ
  deriving DecidableEq, Repr

namespace Reconnector

/-- `NewReconnector` and the two setters. -/
def newReconnector (maxAttempts : Int) (connectFunc switchFunc : Bool) : Reconnector :=
  ⟨maxAttempts, connectFunc, switchFunc, 0, false, false, [], 0, false, []⟩

/-- What can happen next; `ok` is the outcome on which the step of a goroutine depends. -/
inductive Event where
  | trigger
  | reset
  | stop
  | resume (k : ℕ) (ok : Bool)
  deriving DecidableEq, Repr

/-- `attempts.Store(0)`. -/
def clear (r : Reconnector) : Reconnector := { r with attempts := 0, failures := 0 }

/-- Goroutine `k` goes on with `p`. -/
def goOn (r : Reconnector) (k : ℕ) (p : Phase) : Reconnector := { r with loops := r.loops.set k p }

/-- The attempt is one that is to switch transports. -/
def Exceeds (r : Reconnector) (attempt : ℕ) : Prop :=
  (attempt : Int) > r.maxAttempts ∧ r.switchFunc = true

instance (r : Reconnector) (attempt : ℕ) : Decidable (r.Exceeds attempt) :=
  inferInstanceAs (Decidable (_ ∧ _))

/-- The step of goroutine `k`. -/
def resume (r : Reconnector) (k : ℕ) (ok : Bool) : Phase → Reconnector
  | .entered => (if ok then r.clear else r).goOn k .head
  | .head =>
    if r.done then r.goOn k .leaving
    else { r with attempts := r.attempts + 1, resetSinceAdd := false }.goOn k
      (.counted (r.attempts + 1))
  | .counted attempt =>
    if r.Exceeds attempt then { r with switches := r.failures :: r.switches }.goOn k .switching
    else r.goOn k .waiting
  | .switching => if ok then { r with failures := 0 }.goOn k .storing else r.goOn k .waiting
  | .waiting =>
    -- with `done` closed either case of the `select` may be taken
    if r.done ∧ ¬ ok then r.goOn k .leaving else r.goOn k .connecting
  | .connecting =>
    if ¬ r.connectFunc then r.goOn k .storing
    else if ok then { r with failures := 0 }.goOn k .storing
    else { r with failures := r.failures + 1 }.goOn k .head
  | .storing => r.clear.goOn k .leaving
  | .leaving => { r with reconnecting := false }.goOn k .finished
  | .finished => r

def step (r : Reconnector) : Event → Reconnector
  | .trigger =>
    if r.reconnecting then r
    else { r with reconnecting := true, loops := r.loops ++ [.entered] }
  | .reset => { r.clear with resetSinceAdd := true }
  | .stop => { r with done := true }
  | .resume k ok =>
    match r.loops[k]? with
    | some p => r.resume k ok p
    | none => r

/-! ## The property and its condition -/

/-- Any two loops that run are one. -/
def OneLoop (r : Reconnector) : Prop :=
  ∀ (i j : ℕ) (p q : Phase), r.loops[i]? = some p → r.loops[j]? = some q →
    p ≠ .finished → q ≠ .finished → i = j

/-- **What the reconnector is for**: at most one loop runs, and `switchFunc` has been called only
when `connectFunc` had failed `MaxAttempts` times. -/
structure Disciplined (r : Reconnector) : Prop where
  oneLoop : r.OneLoop
  enough : ∀ f ∈ r.switches, r.maxAttempts ≤ f

/-- The step calls `switchFunc`. -/
def CallsSwitch (r : Reconnector) : Event → Prop
  | .resume k _ => ∃ attempt, r.loops[k]? = some (.counted attempt) ∧ r.Exceeds attempt
  | _ => False

/-- If the step calls `switchFunc`, there has been no `Reset` since the round has added its one. -/
def SwitchesInTime (r : Reconnector) (e : Event) : Prop :=
  r.CallsSwitch e → r.resetSinceAdd = false ∨ r.maxAttempts ≤ 0

/-! ## The invariant -/

/-- What a goroutine relies on.  The counter is never ahead of the failures, but for the one that a
round has added before it has called `connectFunc`, and for a round that was stopped between the
two. -/
def PhaseInv (r : Reconnector) : Phase → Prop
  | .entered | .head | .leaving => r.attempts ≤ r.failures ∨ r.done
  | .counted attempt => r.attempts ≤ r.failures + 1
      ∧ if r.resetSinceAdd then r.failures = 0 else attempt ≤ r.failures + 1
  | .switching | .waiting | .connecting => r.attempts ≤ r.failures + 1
  | .storing | .finished => True

/-- The loops are one at most, and it is running only if `state` says so. -/
structure Inv (r : Reconnector) : Prop where
  oneLoop : r.OneLoop
  busy : ∀ p ∈ r.loops, p ≠ .finished → r.reconnecting = true
  phases : ∀ p ∈ r.loops, r.PhaseInv p
  idle : r.reconnecting = false → r.attempts ≤ r.failures ∨ r.done

theorem inv_newReconnector (maxAttempts : Int) (connectFunc switchFunc : Bool) :
    Inv (newReconnector maxAttempts connectFunc switchFunc) :=
  ⟨nofun, nofun, nofun, fun _ => Or.inl (Nat.le_refl 0)⟩

theorem phaseInv_goOn (r : Reconnector) (k : ℕ) (q p : Phase) :
    (r.goOn k q).PhaseInv p ↔ r.PhaseInv p := by
  cases p <;> rfl

variable {r : Reconnector} {k : ℕ} {p : Phase}

/-- While one loop runs, the others have finished. -/
theorem OneLoop.only (h : r.OneLoop) (hk : r.loops[k]? = some p) (hp : p ≠ .finished) {q q' : Phase}
    (hq : q ∈ r.loops.set k q') : q = q' ∨ q = .finished := by
  obtain ⟨i, hi⟩ := List.mem_iff_getElem?.1 hq
  obtain ⟨-, rfl⟩ | hold := getElem?_set_cases hi
  · exact Or.inl rfl
  · by_cases hfin : q = .finished
    · exact Or.inr hfin
    · obtain rfl := h i k q p hold hk hfin hp
      rw [List.getElem?_set_self (List.getElem?_eq_some_iff.1 hk).1] at hi
      exact Or.inl (Option.some.inj hi).symm

theorem OneLoop.goOn {r r' : Reconnector} (h : r.OneLoop) (hk : r.loops[k]? = some p)
    (hp : p ≠ .finished) (hloops : r'.loops = r.loops) (q : Phase) :
    (r'.goOn k q).OneLoop := by
  have honly : ∀ i x, (r.loops.set k q)[i]? = some x → x ≠ .finished → i = k := by
    intro i x hi hx
    obtain ⟨rfl, -⟩ | hold := getElem?_set_cases hi
    · rfl
    · exact h i k x p hold hk hx hp
  intro i j x y hi hj hx hy
  have hset : (r'.goOn k q).loops = r.loops.set k q := by rw [Reconnector.goOn, hloops]
  rw [hset] at hi hj
  rw [honly i x hi hx, honly j y hj hy]

/-- The loop that runs goes on, and changes nothing but the counter and the records. -/
theorem Inv.goOn (h : Inv r) (hk : r.loops[k]? = some p) (hp : p ≠ .finished) (r' : Reconnector)
    (hloops : r'.loops = r.loops) (hstate : r'.reconnecting = r.reconnecting) {q : Phase}
    (hq : r'.PhaseInv q) :
    Inv (r'.goOn k q) := by
  have hbusy : r'.reconnecting = true := hstate.trans (h.busy p (List.mem_of_getElem? hk) hp)
  refine ⟨h.oneLoop.goOn hk hp hloops q, fun _ _ _ => hbusy, ?_, ?_⟩
  · intro x hx
    have hx' : x ∈ r.loops.set k q := by rwa [← hloops]
    obtain rfl | rfl := h.oneLoop.only hk hp hx'
    · exact (phaseInv_goOn r' k x x).2 hq
    · trivial
  · intro hidle
    exact absurd (hbusy.symm.trans hidle) (by decide)

/-! ## One step -/

theorem Inv.trigger (h : Inv r) : Inv (r.step .trigger) := by
  unfold step
  dsimp only
  split_ifs with hstate
  · exact h
  · have hidle : r.reconnecting = false := by simpa using hstate
    have hfinished : ∀ p ∈ r.loops, p = .finished := by
      intro p hp
      by_contra hne
      exact hstate (h.busy p hp hne)
    refine ⟨?_, fun _ _ _ => rfl, ?_, nofun⟩
    · intro i j p q hi hj hp hq
      obtain hold | ⟨rfl, -⟩ := getElem?_append_singleton_iff.1 hi
      · exact absurd (hfinished p (List.mem_of_getElem? hold)) hp
      · obtain hold | ⟨rfl, -⟩ := getElem?_append_singleton_iff.1 hj
        · exact absurd (hfinished q (List.mem_of_getElem? hold)) hq
        · rfl
    · intro p hp
      obtain hold | hnew := List.mem_append.1 hp
      · rw [hfinished p hold]
        trivial
      · rw [List.mem_singleton.1 hnew]
        exact h.idle hidle

theorem Inv.reset (h : Inv r) : Inv (r.step .reset) := by
  refine ⟨h.oneLoop, h.busy, ?_, fun _ => Or.inl (Nat.le_refl 0)⟩
  intro p _
  cases p with
  | entered | head | leaving => exact Or.inl (Nat.le_refl 0)
  | counted attempt => exact ⟨Nat.zero_le _, rfl⟩
  | switching | waiting | connecting => exact Nat.zero_le _
  | storing | finished => trivial

theorem Inv.stop (h : Inv r) : Inv (r.step .stop) := by
  refine ⟨h.oneLoop, h.busy, ?_, fun _ => Or.inr rfl⟩
  intro p hp
  have hinv := h.phases p hp
  cases p with
  | entered | head | leaving => exact Or.inr rfl
  | _ => exact hinv

/-- The deferred store, after which no loop is running. -/
theorem Inv.leave (h : Inv r) (hk : r.loops[k]? = some .leaving) (ok : Bool) :
    Inv (r.resume k ok .leaving) := by
  have hfinished : ∀ p ∈ r.loops.set k .finished, p = .finished := by
    intro p hp
    obtain rfl | rfl := h.oneLoop.only hk nofun hp
    · rfl
    · rfl
  refine ⟨h.oneLoop.goOn hk nofun rfl .finished, ?_, ?_, ?_⟩
  · intro p hp hne
    exact absurd (hfinished p hp) hne
  · intro p hp
    rw [hfinished p hp]
    trivial
  · intro _
    exact h.phases .leaving (List.mem_of_getElem? hk)

theorem Inv.resume (h : Inv r) (hk : r.loops[k]? = some p) (ok : Bool) : Inv (r.resume k ok p) := by
  have hinv := h.phases p (List.mem_of_getElem? hk)
  cases p with
  | entered =>
    cases ok with
    | true => exact h.goOn hk nofun r.clear rfl rfl (Or.inl (Nat.le_refl 0))
    | false => exact h.goOn hk nofun r rfl rfl hinv
  | head =>
    by_cases hdone : r.done = true
    · rw [Reconnector.resume, if_pos hdone]
      exact h.goOn hk nofun r rfl rfl hinv
    · have hle : r.attempts ≤ r.failures := hinv.resolve_right hdone
      rw [Reconnector.resume, if_neg hdone]
      exact h.goOn hk nofun { r with attempts := r.attempts + 1, resetSinceAdd := false } rfl rfl
        ⟨Nat.succ_le_succ hle, Nat.succ_le_succ hle⟩
  | counted attempt =>
    by_cases hexceeds : r.Exceeds attempt
    · rw [Reconnector.resume, if_pos hexceeds]
      exact h.goOn hk nofun { r with switches := r.failures :: r.switches } rfl rfl hinv.1
    · rw [Reconnector.resume, if_neg hexceeds]
      exact h.goOn hk nofun r rfl rfl hinv.1
  | switching =>
    cases ok with
    | true => exact h.goOn hk nofun { r with failures := 0 } rfl rfl trivial
    | false => exact h.goOn hk nofun r rfl rfl hinv
  | waiting =>
    by_cases hdone : r.done = true ∧ ¬ ok = true
    · rw [Reconnector.resume, if_pos hdone]
      exact h.goOn hk nofun r rfl rfl (Or.inr hdone.1)
    · rw [Reconnector.resume, if_neg hdone]
      exact h.goOn hk nofun r rfl rfl hinv
  | connecting =>
    unfold Reconnector.resume
    dsimp only
    split_ifs
    · exact h.goOn hk nofun { r with failures := 0 } rfl rfl trivial
    · exact h.goOn hk nofun { r with failures := r.failures + 1 } rfl rfl (Or.inl hinv)
    · exact h.goOn hk nofun r rfl rfl trivial
  | storing => exact h.goOn hk nofun r.clear rfl rfl (Or.inl (Nat.le_refl 0))
  | leaving => exact h.leave hk ok
  | finished => exact h

/-- **One step keeps the loops to one and the counter honest.** -/
theorem inv_step (r : Reconnector) (e : Event) (h : Inv r) : Inv (r.step e) := by
  cases e with
  | trigger => exact h.trigger
  | reset => exact h.reset
  | stop => exact h.stop
  | resume k ok =>
    unfold step
    dsimp only
    split
    · rename_i p hk
      exact h.resume hk ok
    · exact h

/-! ## Calls of `switchFunc` -/

/-- Only the step of a round that has counted too many attempts calls `switchFunc`. -/
theorem switches_resume (r : Reconnector) (k : ℕ) (ok : Bool)
    (hp : ∀ attempt, p = .counted attempt → ¬ r.Exceeds attempt) :
    (r.resume k ok p).switches = r.switches := by
  cases p with
  | entered => cases ok <;> rfl
  | counted attempt => rw [resume, if_neg (hp attempt rfl)]; rfl
  | switching => cases ok <;> rfl
  | head | waiting => unfold resume; dsimp only; split_ifs <;> rfl
  | connecting => unfold resume; dsimp only; split_ifs <;> rfl
  | storing | leaving | finished => rfl

theorem switches_step (r : Reconnector) (e : Event) :
    (¬ r.CallsSwitch e ∧ (r.step e).switches = r.switches)
      ∨ (r.CallsSwitch e ∧ (r.step e).switches = r.failures :: r.switches) := by
  cases e with
  | trigger =>
    refine Or.inl ⟨id, ?_⟩
    unfold step
    dsimp only
    split_ifs <;> rfl
  | reset => exact Or.inl ⟨id, rfl⟩
  | stop => exact Or.inl ⟨id, rfl⟩
  | resume k ok =>
    by_cases hcall : r.CallsSwitch (.resume k ok)
    · obtain ⟨attempt, hk, hexceeds⟩ := hcall
      refine Or.inr ⟨⟨attempt, hk, hexceeds⟩, ?_⟩
      simp only [step, hk, resume, if_pos hexceeds, goOn]
    · refine Or.inl ⟨hcall, ?_⟩
      cases hk : r.loops[k]? with
      | none => simp only [step, hk]
      | some p =>
        simp only [step, hk]
        apply switches_resume
        rintro attempt rfl hexceeds
        exact hcall ⟨attempt, hk, hexceeds⟩

theorem maxAttempts_resume (r : Reconnector) (k : ℕ) (ok : Bool) (p : Phase) :
    (r.resume k ok p).maxAttempts = r.maxAttempts := by
  cases p with
  | entered | switching => cases ok <;> rfl
  | storing | leaving | finished => rfl
  | _ => unfold resume; dsimp only; split_ifs <;> rfl

theorem maxAttempts_step (r : Reconnector) (e : Event) :
    (r.step e).maxAttempts = r.maxAttempts := by
  cases e with
  | trigger =>
    unfold step
    dsimp only
    split_ifs <;> rfl
  | reset | stop => rfl
  | resume k ok =>
    unfold step
    dsimp only
    split
    · exact maxAttempts_resume r k ok _
    · rfl

/-- A round that calls `switchFunc` has seen enough failures, unless the counter was reset under
it. -/
theorem Inv.enough_iff (h : Inv r) {e : Event} (hcall : r.CallsSwitch e) :
    r.maxAttempts ≤ r.failures ↔ r.resetSinceAdd = false ∨ r.maxAttempts ≤ 0 := by
  cases e with
  | trigger | reset | stop => exact hcall.elim
  | resume k ok =>
    obtain ⟨attempt, hk, hexceeds, -⟩ := hcall
    have hcounted := (h.phases _ (List.mem_of_getElem? hk)).2
    cases hreset : r.resetSinceAdd with
    | true =>
      rw [hreset, if_pos rfl] at hcounted
      rw [hcounted]
      simp
    | false =>
      rw [hreset, if_neg Bool.false_ne_true] at hcounted
      exact iff_of_true (by omega) (Or.inl rfl)

/-- **One step** keeps the discipline exactly if it does not call `switchFunc` behind a `Reset`. -/
theorem disciplined_step_iff (r : Reconnector) (e : Event) (hinv : Inv r) (h : r.Disciplined) :
    (r.step e).Disciplined ↔ r.SwitchesInTime e := by
  have hone := (inv_step r e hinv).oneLoop
  obtain ⟨hnot, hsame⟩ | ⟨hcall, hnew⟩ := switches_step r e
  · refine iff_of_true ⟨hone, ?_⟩ fun hcall => absurd hcall hnot
    rw [hsame, maxAttempts_step]
    exact h.enough
  · have henough := hinv.enough_iff hcall
    constructor
    · intro h' _
      have hnow := h'.enough r.failures (by rw [hnew]; exact List.mem_cons_self)
      rw [maxAttempts_step] at hnow
      exact henough.1 hnow
    · intro hintime
      refine ⟨hone, ?_⟩
      rw [hnew, maxAttempts_step]
      intro f hf
      obtain rfl | hf := List.mem_cons.1 hf
      · exact henough.2 (hintime hcall)
      · exact h.enough f hf

/-- **The discipline of the reconnector**, in any interleaving of triggers, resets, a stop and the
loops, whatever the two functions return: it is kept exactly if no `Reset` comes between the
moment a round has counted its attempt and its call of `switchFunc`. -/
theorem always_disciplined_iff (maxAttempts : Int) (connectFunc switchFunc : Bool)
    (es : List Event) :
    Always step Disciplined (newReconnector maxAttempts connectFunc switchFunc) es
      ↔ EachStep step SwitchesInTime (newReconnector maxAttempts connectFunc switchFunc) es :=
  always_iff_eachStep_of_invariant inv_step disciplined_step_iff
    (inv_newReconnector maxAttempts connectFunc switchFunc) ⟨nofun, nofun⟩ es

/-- One failed attempt and the count of the next, with a limit of one. -/
def secondRound : List Event :=
  [.trigger, .resume 0 false, .resume 0 true, .resume 0 true, .resume 0 true, .resume 0 false,
    .resume 0 true]

/-- Without a `Reset` the transport is switched after one failure. -/
example :
    (run step (newReconnector 1 true true) (secondRound ++ [.resume 0 true])).switches = [1] :=
  rfl

/-- A `Reset` before the switch: the transport is switched after no failure. -/
theorem reset_before_switch :
    let r := run step (newReconnector 1 true true) (secondRound ++ [.reset, .resume 0 true])
    r.switches = [0] ∧ ¬ r.Disciplined :=
  ⟨rfl, fun h => absurd (h.enough 0 List.mem_cons_self) (by decide)⟩

/-! ## Overlap -/

/-- No run has two calls of `connectFunc` or `switchFunc` at a time. -/
theorem calls_do_not_overlap (maxAttempts : Int) (connectFunc switchFunc : Bool)
    (es : List Event) (i j : ℕ) {p q : Phase}
    (hp : p = .connecting ∨ p = .switching) (hq : q = .connecting ∨ q = .switching) :
    let r := run step (newReconnector maxAttempts connectFunc switchFunc) es
    r.loops[i]? = some p → r.loops[j]? = some q → i = j := by
  intro r hi hj
  have hinv : Inv r :=
    run_invariant inv_step (inv_newReconnector maxAttempts connectFunc switchFunc) es
  refine hinv.oneLoop i j p q hi hj ?_ ?_
  · obtain rfl | rfl := hp <;> nofun
  · obtain rfl | rfl := hq <;> nofun

end Reconnector
