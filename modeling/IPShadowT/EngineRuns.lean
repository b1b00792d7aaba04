/-
# Runs of the engine

When does an engine call `Client.Stop` twice on one client?  The callback stops the
old client first and installs a new one last, and where it fails in between, or is
overtaken in between, the stopped client stays in `e.client`.

A run is good as long as the client has been stopped only if a callback is about to
replace it, or if the engine has been stopped for good; once it leaves these states it
is doomed to a second call at the latest in `Stop`.  `stops_nodup_iff` says which runs
stay good.
-/
import IPShadowT.Engine
import IPShadowT.Runs

open Failover (PathConfig twoPaths)
open Runs

namespace Engine

/-! ## The condition -/

/-- A callback that has stopped the old client and not installed the new one. -/
def Task.midSwitch : Task → Bool
  | .create _ => true
  | .startNew _ _ => true
  | _ => false

/-- How many callbacks are between stopping the old client and installing the new one. -/
def mid (e : Engine) : ℕ := e.tasks.countP Task.midSwitch

/-- What a goroutine must find when it goes on: a callback stops the old client only when
no other one is about to replace it and `Stop` has not come first, and its calls of
`client.New` and `cli.Start` succeed. -/
def OkTask (e : Engine) (ok : Bool) : Option Task → Prop
  | some (.stopOld _ _) => e.mid = 0 ∧ e.phase ≠ .stopped
  | some (.create _) => ok = true
  | some (.startNew _ _) => ok = true
  | _ => True

/-- The steps that stop no client twice: those of a goroutine as above, and `Stop` when no
callback is about to replace the client. -/
def Ok (e : Engine) : Event → Prop
  | .resume k ok _ => e.OkTask ok e.tasks[k]?
  | .finishStop => e.phase = .stopping → e.mid = 0
  | _ => True

instance (e : Engine) (ok : Bool) : (t : Option Task) → Decidable (e.OkTask ok t)
  | some (.stopOld _ _) => inferInstanceAs (Decidable (e.mid = 0 ∧ e.phase ≠ .stopped))
  | some (.create _) | some (.startNew _ _) => inferInstanceAs (Decidable (ok = true))
  | some (.failover _) | some .done | none => inferInstanceAs (Decidable True)

instance (e : Engine) : (ev : Event) → Decidable (e.Ok ev)
  | .resume k ok _ => inferInstanceAs (Decidable (e.OkTask ok e.tasks[k]?))
  | .finishStop => inferInstanceAs (Decidable (e.phase = .stopping → e.mid = 0))
  | .reportConnectionFailure _ | .reportConnectionSuccess | .checkPaths _ | .forceSwitch _
  | .disablePath _ | .enablePath _ _ | .beginStop => inferInstanceAs (Decidable True)

/-! ## What a step can do -/

/-- What the argument needs to know of an engine. -/
structure View where
  client : Option ℕ
  nextClient : ℕ
  stops : List ℕ
  stopped : Bool
  mid : ℕ

def view (e : Engine) : View :=
  ⟨e.client, e.nextClient, e.stops, e.phase = .stopped, e.mid⟩

/-- A callback is about to start client `cli`. -/
def Starting (e : Engine) (cli : ℕ) : Prop := ∃ retry, .startNew cli retry ∈ e.tasks

/-- The ways a step changes the view, and which of them `Ok` allows. -/
inductive Move (e : Engine) (ok : Prop) (e' : Engine) : Prop
  | quiet (hv : e'.view = e.view) (hs : ∀ c, e'.Starting c → e.Starting c) (hok : ok)
  | fail (hv : e'.view = { e.view with mid := e.mid - 1 }) (hmid : 0 < e.mid)
      (hs : ∀ c, e'.Starting c → e.Starting c) (hok : ¬ ok)
  | stopOld
      (hv : e'.view = { e.view with stops := e.client.toList ++ e.stops, mid := e.mid + 1 })
      (hs : ∀ c, e'.Starting c → e.Starting c) (hok : ok ↔ e.mid = 0 ∧ e.phase ≠ .stopped)
  | create (hv : e'.view = { e.view with nextClient := e.nextClient + 1 }) (hmid : 0 < e.mid)
      (hs : ∀ c, e'.Starting c → e.Starting c ∨ c = e.nextClient) (hok : ok)
  | install (cli : ℕ) (hcli : e.Starting cli)
      (hv : e'.view = { e.view with client := some cli, mid := e.mid - 1 })
      (hs : ∀ c, e'.Starting c → e.Starting c) (hok : ok)
  | finishStop (hphase : e.phase = .stopping)
      (hv : e'.view = { e.view with stops := e.client.toList ++ e.stops, stopped := true })
      (hs : ∀ c, e'.Starting c → e.Starting c) (hok : ok ↔ e.mid = 0)

variable {e : Engine} {ok : Prop} {retry : Option ℕ} {t : Task} {k : ℕ} {v : View}
variable {starting : ℕ → Prop}

theorem starting_of_set {l : List Task} {k c : ℕ} (ht : ∀ retry, t ≠ .startNew c retry)
    (h : Task.startNew c retry ∈ l.set k t) :
    Task.startNew c retry ∈ l := by
  rcases List.mem_or_eq_of_mem_set h with hmem | heq
  · exact hmem
  · exact absurd heq.symm (ht retry)

theorem midSwitch_callback {f : Failover} {idx : ℕ} (h : callback f retry idx = some t) :
    t.midSwitch = false := by
  obtain ⟨p, -, rfl⟩ := Option.map_eq_some_iff.1 h
  rfl

theorem midSwitch_afterError (retry : Option ℕ) : (afterError retry).midSwitch = false := by
  cases retry <;> rfl

theorem ne_startNew_of_midSwitch (h : t.midSwitch = false) (c : ℕ) (retry : Option ℕ) :
    t ≠ .startNew c retry := by
  rintro rfl
  cases h

/-- A goroutine that starts with a task that is not in the middle of a switch. -/
theorem move_onFailover {g : Failover → Option Task × Failover}
    (hg : ∀ f t, (g f).1 = some t → t.midSwitch = false) (hok : ok) :
    Move e ok (e.onFailover g) := by
  unfold onFailover
  split
  · exact .quiet rfl (fun _ h => h) hok
  · rename_i f hf
    cases ht : (g f).1 with
    | none => exact .quiet (by simp [view, mid]) (fun _ h => by simpa [Starting] using h) hok
    | some t =>
      have hmid := hg f t ht
      refine .quiet (by simp [view, mid, hmid]) ?_ hok
      rintro c ⟨retry, hc⟩
      rcases List.mem_append.1 hc with hold | hnew
      · exact ⟨retry, hold⟩
      · have heq : Task.startNew c retry = t := by simpa using hnew
        exact absurd heq.symm (ne_startNew_of_midSwitch hmid c retry)

/-- Goroutine `k` replaces a task that is not in the middle of a switch by another. -/
theorem move_set_quiet {e e' : Engine} {t t' : Task} (hk : e.tasks[k]? = some t)
    (ht : t.midSwitch = false) (ht' : t'.midSwitch = false) (htasks : e'.tasks = e.tasks.set k t')
    (hv : { e'.view with mid := e.mid } = e.view) (hok : ok) : Move e ok e' := by
  have hmid : e'.mid = e.mid := by
    have hcount := countP_set_add Task.midSwitch hk t'
    rw [← htasks, ht, ht'] at hcount
    exact hcount
  refine .quiet ?_ ?_ hok
  · rw [← hv, ← hmid]
    rfl
  · rintro c ⟨retry, hc⟩
    rw [htasks] at hc
    exact ⟨retry, starting_of_set (ne_startNew_of_midSwitch ht' c) hc⟩

/-- A callback that is in the middle of a switch gives up. -/
theorem move_set_fail (retry : Option ℕ) (hk : e.tasks[k]? = some t) (ht : t.midSwitch = true)
    (hok : ¬ ok) :
    Move e ok { e with tasks := e.tasks.set k (afterError retry) } := by
  have hcount := countP_set_add Task.midSwitch hk (afterError retry)
  rw [ht, midSwitch_afterError] at hcount
  have hmid : (e.tasks.set k (afterError retry)).countP Task.midSwitch = e.mid - 1 :=
    Nat.eq_sub_of_add_eq hcount
  refine .fail ?_ ?_ ?_ hok
  · exact congrArg (View.mk e.client e.nextClient e.stops (e.phase = .stopped)) hmid
  · exact List.countP_pos_iff.2 ⟨t, List.mem_of_getElem? hk, ht⟩
  · rintro c ⟨r, hc⟩
    exact ⟨r, starting_of_set (ne_startNew_of_midSwitch (midSwitch_afterError retry) c) hc⟩

theorem move_enterFailover {k idx : ℕ} (now : Int) (hk : e.tasks[k]? = some (.failover idx))
    (hok : ok) :
    Move e ok (e.enterFailover k idx now) := by
  unfold enterFailover
  split
  · exact .quiet rfl (fun _ h => h) hok
  · rename_i f hf
    refine move_set_quiet hk rfl ?_ rfl rfl hok
    cases hnext : (f.doFailover idx now).1 with
    | none => rfl
    | some j =>
      cases ht : callback (f.doFailover idx now).2 (some j) j with
      | none => simp [ht, Task.midSwitch]
      | some t => simp [ht, midSwitch_callback ht]

theorem move_stopOld {toPath : PathConfig} (hk : e.tasks[k]? = some (.stopOld toPath retry))
    (hok : ok ↔ e.mid = 0 ∧ e.phase ≠ .stopped) : Move e ok (e.stopOld k toPath retry) := by
  have hcount : (e.stopOld k toPath retry).mid = e.mid + 1 :=
    countP_set_add Task.midSwitch hk (.create retry)
  refine .stopOld ?_ ?_ hok
  · rw [← hcount]
    rfl
  · rintro c ⟨r, hc⟩
    exact ⟨r, starting_of_set (fun _ h => by cases h) hc⟩

/-- `client.New`. -/
theorem move_create {ok : Bool} (hk : e.tasks[k]? = some (.create retry)) :
    Move e ok (e.create k retry ok) := by
  cases ok with
  | false => exact move_set_fail retry hk rfl (by decide)
  | true =>
    have hcount : (e.create k retry true).mid + 1 = e.mid + 1 :=
      countP_set_add Task.midSwitch hk (.startNew e.nextClient retry)
    have hmid : (e.create k retry true).mid = e.mid := by omega
    refine .create ?_ ?_ ?_ rfl
    · exact congrArg (View.mk e.client (e.nextClient + 1) e.stops (e.phase = .stopped)) hmid
    · exact List.countP_pos_iff.2 ⟨_, List.mem_of_getElem? hk, rfl⟩
    · rintro c ⟨r, hc⟩
      rcases List.mem_or_eq_of_mem_set hc with hold | hnew
      · exact .inl ⟨r, hold⟩
      · exact .inr (Task.startNew.inj hnew).1

/-- `Client.Start`. -/
theorem move_startNew {k cli : ℕ} {ok : Bool} (hk : e.tasks[k]? = some (.startNew cli retry)) :
    Move e ok (e.startNew k cli retry ok) := by
  cases ok with
  | false => exact move_set_fail retry hk rfl (by decide)
  | true =>
    have hcount : (e.startNew k cli retry true).mid + 1 = e.mid :=
      countP_set_add Task.midSwitch hk .done
    have hmid : (e.startNew k cli retry true).mid = e.mid - 1 := by omega
    refine .install cli ⟨retry, List.mem_of_getElem? hk⟩ ?_ ?_ rfl
    · exact congrArg (View.mk (some cli) e.nextClient e.stops (e.phase = .stopped)) hmid
    · rintro c ⟨r, hc⟩
      exact ⟨r, starting_of_set (fun _ h => by cases h) hc⟩

theorem move_beginStop (hok : ok) : Move e ok e.beginStop := by
  unfold beginStop
  split
  · rename_i hphase
    exact .quiet (by simp [view, mid, hphase]) (fun _ h => h) hok
  · exact .quiet rfl (fun _ h => h) hok

theorem move_finishStop : Move e (e.Ok .finishStop) e.finishStop := by
  unfold finishStop
  split
  · rename_i hphase
    exact .finishStop hphase rfl (fun _ h => h) ⟨fun h => h hphase, fun h _ => h⟩
  · rename_i hphase
    exact .quiet rfl (fun _ h => h) fun h => absurd h hphase

/-- **Every step of the engine is one of the moves.** -/
theorem move_step (e : Engine) (ev : Event) : Move e (e.Ok ev) (e.step ev) := by
  cases ev with
  | reportConnectionFailure err =>
    refine move_onFailover ?_ trivial
    intro f t ht
    obtain ⟨idx, -, rfl⟩ := Option.map_eq_some_iff.1 ht
    rfl
  | reportConnectionSuccess => exact move_onFailover (fun _ _ h => by cases h) trivial
  | checkPaths now =>
    unfold step
    dsimp only
    split
    · refine move_onFailover ?_ trivial
      intro f t ht
      obtain ⟨idx, -, hidx⟩ := Option.bind_eq_some_iff.1 ht
      exact midSwitch_callback hidx
    · exact .quiet rfl (fun _ h => h) trivial
  | forceSwitch pathName =>
    refine move_onFailover ?_ trivial
    intro f t ht
    obtain ⟨idx, -, hidx⟩ := Option.bind_eq_some_iff.1 ht
    exact midSwitch_callback hidx
  | disablePath pathName => exact move_onFailover (fun _ _ h => by cases h) trivial
  | enablePath pathName now => exact move_onFailover (fun _ _ h => by cases h) trivial
  | resume k ok now =>
    simp only [step, Ok]
    cases hk : e.tasks[k]? with
    | none => exact .quiet rfl (fun _ h => h) trivial
    | some t =>
      cases t with
      | failover idx => exact move_enterFailover now hk trivial
      | stopOld toPath retry => exact move_stopOld hk Iff.rfl
      | create retry => exact move_create hk
      | startNew cli retry => exact move_startNew hk
      | done => exact .quiet rfl (fun _ h => h) trivial
  | beginStop => exact move_beginStop trivial
  | finishStop => exact move_finishStop

/-! ## Good and doomed engines -/

/-- The client has been stopped only if a callback is about to replace it, or for good. -/
structure View.Good (v : View) (starting : ℕ → Prop) : Prop where
  nodup : v.stops.Nodup
  stops_lt : ∀ c ∈ v.stops, c < v.nextClient
  starting_fresh : ∀ c, starting c → c ∉ v.stops ∧ c < v.nextClient
  client : ∃ c, v.client = some c ∧ c < v.nextClient ∧ (c ∈ v.stops ↔ 0 < v.mid ∨ v.stopped = true)
  mid_le : v.mid ≤ 1
  mid_of_stopped : v.stopped = true → v.mid = 0

/-- A client has been stopped twice, or has been stopped, will not be replaced, and has
`Stop` still before it. -/
def View.Doomed (v : View) : Prop :=
  ¬ v.stops.Nodup ∨ ∃ c, v.client = some c ∧ c ∈ v.stops ∧ v.mid = 0 ∧ v.stopped = false

/-- One more call of `Client.Stop`, on a client that has not been stopped. -/
theorem View.Good.stop (h : v.Good starting) (hmid : v.mid = 0) (hstopped : v.stopped = false) :
    (v.client.toList ++ v.stops).Nodup ∧
      ∃ c, v.client = some c ∧ c < v.nextClient ∧ c ∈ v.client.toList ++ v.stops := by
  obtain ⟨c, hc, hlt, hmem⟩ := h.client
  have hnot : c ∉ v.stops := by
    rw [hmem, hmid, hstopped]
    simp
  rw [hc]
  exact ⟨List.nodup_cons.2 ⟨hnot, h.nodup⟩, c, rfl, hlt, List.mem_cons_self⟩

/-- A callback in the middle of a switch is the only one, and `Stop` has not ended. -/
theorem View.Good.of_mid_pos (h : v.Good starting) (hmid : 0 < v.mid) :
    v.mid = 1 ∧ v.stopped = false := by
  have hle := h.mid_le
  refine ⟨by omega, ?_⟩
  rw [← Bool.not_eq_true]
  intro hstopped
  have hzero := h.mid_of_stopped hstopped
  omega

/-- One more call of `Client.Stop`, on a client that has been stopped. -/
theorem not_nodup_stop {client : Option ℕ} {stops : List ℕ} {c : ℕ} (hc : client = some c)
    (hmem : c ∈ stops) : ¬ (client.toList ++ stops).Nodup := by
  rw [hc]
  intro h
  exact (List.nodup_cons.1 h).1 hmem

/-- The client that is stopped is an old one, like those stopped before. -/
theorem View.Good.stop_lt (h : v.Good starting) :
    ∀ c ∈ v.client.toList ++ v.stops, c < v.nextClient := by
  intro c hc
  rcases List.mem_append.1 hc with hcur | hold
  · obtain ⟨d, hd, hlt, -⟩ := h.client
    obtain rfl : d = c := Option.some.inj (hd.symm.trans (Option.mem_toList.1 hcur))
    exact hlt
  · exact h.stops_lt c hold

theorem Starting.mid_pos {c : ℕ} (h : e.Starting c) : 0 < e.mid := by
  obtain ⟨retry, hmem⟩ := h
  exact List.countP_pos_iff.2 ⟨_, hmem, rfl⟩

/-- No client is about to be started when no callback is in the middle of a switch. -/
theorem not_starting {e e' : Engine} (hmid : e.mid = 0)
    (hs : ∀ c, e'.Starting c → e.Starting c) (c : ℕ) : ¬ e'.Starting c := by
  intro hc
  have hpos := (hs c hc).mid_pos
  omega

/-- **A good step.** -/
theorem good_of_move {e e' : Engine} (hm : Move e ok e') (hok : ok) (h : e.view.Good e.Starting) :
    e'.view.Good e'.Starting := by
  cases hm with
  | quiet hv hs _ =>
    rw [hv]
    exact { h with starting_fresh := fun c hc => h.starting_fresh c (hs c hc) }
  | fail _ _ _ hno => exact absurd hok hno
  | stopOld hv hs hiff =>
    -- no callback is under way, so the client has not been stopped before
    obtain ⟨hmid, hphase⟩ := hiff.1 hok
    obtain ⟨hnodup, c, hc, hlt, hmem⟩ := h.stop hmid (decide_eq_false hphase)
    rw [hv]
    refine ⟨hnodup, h.stop_lt, fun c hc => absurd hc (not_starting hmid hs c),
      ⟨c, hc, hlt, iff_of_true hmem (.inl (Nat.succ_pos _))⟩, ?_, ?_⟩
    · show e.mid + 1 ≤ 1
      omega
    · exact fun hstopped => absurd (of_decide_eq_true hstopped) hphase
  | create hv hmid hs _ =>
    obtain ⟨c, hc, hlt, hmem⟩ := h.client
    rw [hv]
    refine ⟨h.nodup, ?_, ?_, ⟨c, hc, Nat.lt_succ_of_lt hlt, hmem⟩, h.mid_le, h.mid_of_stopped⟩
    · exact fun c hc => Nat.lt_succ_of_lt (h.stops_lt c hc)
    · intro c hc
      rcases hs c hc with hold | rfl
      · obtain ⟨hnot, hlt⟩ := h.starting_fresh c hold
        exact ⟨hnot, Nat.lt_succ_of_lt hlt⟩
      · exact ⟨fun hmem => absurd (h.stops_lt _ hmem) (Nat.lt_irrefl _), Nat.lt_succ_self _⟩
  | install cli hcli hv hs _ =>
    -- the only callback under way ends here, and its client has never been stopped
    obtain ⟨hnot, hlt⟩ := h.starting_fresh cli hcli
    obtain ⟨hone, hrunning⟩ : e.mid = 1 ∧ e.view.stopped = false := h.of_mid_pos hcli.mid_pos
    rw [hv, hone]
    refine ⟨h.nodup, h.stops_lt, fun c hc => h.starting_fresh c (hs c hc),
      ⟨cli, rfl, hlt, ?_⟩, Nat.zero_le 1, fun _ => rfl⟩
    refine iff_of_false hnot ?_
    rintro (hpos | hstopped)
    · exact Nat.lt_irrefl 0 hpos
    · exact Bool.false_ne_true (hrunning.symm.trans hstopped)
  | finishStop hphase hv hs hiff =>
    have hmid : e.mid = 0 := hiff.1 hok
    have hrunning : e.view.stopped = false := decide_eq_false (by rw [hphase]; decide)
    obtain ⟨hnodup, c, hc, hlt, hmem⟩ := h.stop hmid hrunning
    rw [hv]
    exact ⟨hnodup, h.stop_lt, fun c hc => absurd hc (not_starting hmid hs c),
      ⟨c, hc, hlt, iff_of_true hmem (.inr rfl)⟩, h.mid_le, fun _ => hmid⟩

/-- **The first bad step.** -/
theorem doomed_of_good {e e' : Engine} (hm : Move e ok e') (hno : ¬ ok) (h : e.view.Good e.Starting)
    : e'.view.Doomed := by
  obtain ⟨c, hc, -, hmem⟩ := h.client
  cases hm with
  | quiet _ _ hok => exact absurd hok hno
  | create _ _ _ hok => exact absurd hok hno
  | install _ _ _ _ hok => exact absurd hok hno
  | fail hv hmid _ _ =>
    -- the callback leaves the stopped client behind
    obtain ⟨hone, hrunning⟩ : e.mid = 1 ∧ e.view.stopped = false := h.of_mid_pos hmid
    rw [hv]
    refine .inr ⟨c, hc, hmem.2 (.inl hmid), ?_, hrunning⟩
    show e.mid - 1 = 0
    omega
  | stopOld hv _ hiff =>
    -- either another callback or `Stop` has been at the client already
    rw [hv]
    refine .inl (not_nodup_stop hc (hmem.2 ?_))
    by_cases hmid : e.mid = 0
    · by_cases hphase : e.phase = .stopped
      · exact .inr (decide_eq_true hphase)
      · exact absurd (hiff.2 ⟨hmid, hphase⟩) hno
    · exact .inl (Nat.pos_of_ne_zero hmid)
  | finishStop _ hv _ hiff =>
    rw [hv]
    refine .inl (not_nodup_stop hc (hmem.2 (.inl ?_)))
    exact Nat.pos_of_ne_zero fun hmid => hno (hiff.2 hmid)

/-- **No way back.** -/
theorem doomed_of_move {e e' : Engine} (hm : Move e ok e') (h : e.view.Doomed) :
    e'.view.Doomed := by
  rcases h with htwice | ⟨c, hc, hmem, hmid, hrunning⟩
  · -- a call once made is not taken back
    have hsuffix : e.view.stops <:+ e'.view.stops := by
      cases hm with
      | quiet hv _ _ | fail hv _ _ _ | create hv _ _ _ | install _ _ hv _ _ =>
        exact ⟨[], (congrArg View.stops hv).symm⟩
      | stopOld hv _ _ | finishStop _ hv _ _ =>
        exact ⟨e.client.toList, (congrArg View.stops hv).symm⟩
    exact .inl fun hnodup => htwice (hnodup.sublist hsuffix.sublist)
  · -- nobody is left to replace the stopped client: it stays, or is stopped again
    have hmid : e.mid = 0 := hmid
    cases hm with
    | quiet hv _ _ =>
      rw [hv]
      exact .inr ⟨c, hc, hmem, hmid, hrunning⟩
    | fail _ hpos _ _ => omega
    | create _ hpos _ _ => omega
    | install cli hcli _ _ _ =>
      have hpos := hcli.mid_pos
      omega
    | stopOld hv _ _ =>
      rw [hv]
      exact .inl (not_nodup_stop hc hmem)
    | finishStop _ hv _ _ =>
      rw [hv]
      exact .inl (not_nodup_stop hc hmem)

/-! ## Whole runs -/

/-- After `Start`. -/
theorem good_start (paths : List PathConfig) (remoteAddr transport : String)
    (clock : ℕ → Int) :
    ((new paths remoteAddr transport).start true true clock).view.Good
      ((new paths remoteAddr transport).start true true clock).Starting := by
  obtain ⟨hview, htasks⟩ : ((new paths remoteAddr transport).start true true clock).view
        = ⟨some 0, 1, [], false, 0⟩
      ∧ ((new paths remoteAddr transport).start true true clock).tasks = [] := by
    unfold start new
    simp only [reduceCtorEq, if_false, not_true]
    split <;> exact ⟨rfl, rfl⟩
  rw [hview]
  refine ⟨List.nodup_nil, ?_, ?_, ⟨0, rfl, Nat.one_pos, by simp⟩, Nat.zero_le 1, fun _ => rfl⟩
  · intro c hc
    cases hc
  · rintro c ⟨retry, hc⟩
    rw [htasks] at hc
    cases hc

/-- **Which runs stop no client twice.**  In a run from a successful `Start`, `Client.Stop`
is called at most once on every client if every step is `Ok`; and in a run that goes on to
the end of `Stop`, only then. -/
theorem stops_nodup_iff (paths : List PathConfig) (remoteAddr transport : String)
    (clock : ℕ → Int) (es : List Event) :
    (EachStep step Ok ((new paths remoteAddr transport).start true true clock) es →
        (run step ((new paths remoteAddr transport).start true true clock) es).stops.Nodup) ∧
      ((run step ((new paths remoteAddr transport).start true true clock) es).phase = .stopped →
        (run step ((new paths remoteAddr transport).start true true clock) es).stops.Nodup →
        EachStep step Ok ((new paths remoteAddr transport).start true true clock) es) := by
  rcases good_or_doomed (fun e => e.view.Good e.Starting) (fun e => e.view.Doomed)
    (fun e ev h hok => good_of_move (move_step e ev) hok h)
    (fun e ev h hno => doomed_of_good (move_step e ev) hno h)
    (fun e ev h => doomed_of_move (move_step e ev) h)
    (good_start paths remoteAddr transport clock) es with ⟨hok, hgood⟩ | ⟨hno, hdoomed⟩
  · exact ⟨fun _ => hgood.nodup, fun _ _ => hok⟩
  · refine ⟨fun hok => absurd hok hno, fun hend hnodup => ?_⟩
    rcases hdoomed with htwice | ⟨c, -, -, -, hrunning⟩
    · exact absurd hnodup htwice
    · exact absurd hend (of_decide_eq_false hrunning)

/-- An engine with two paths, started. -/
def twoPathEngine : Engine := (new twoPaths "10.0.0.1:443" "tls").start true true fun _ => 0

/-- Three failures in a row, which bring the first goroutine to `doFailover`. -/
def threeFailures : List Event := List.replicate 3 (.reportConnectionFailure "dial: timeout")

/-- A switch that succeeds, and `Stop`. -/
theorem stops_nodup_after_switch :
    (run step twoPathEngine (threeFailures ++ [.resume 0 true 0, .resume 0 true 0,
      .resume 0 true 0, .resume 0 true 0, .beginStop, .finishStop])).stops.Nodup := by
  exact (stops_nodup_iff twoPaths "10.0.0.1:443" "tls" (fun _ => 0) _).1 (by decide)

/-- The callback of the first switch cannot make a client; there is no third path, and
`Stop` finds the client that the callback has already stopped. -/
theorem stopped_twice_after_failed_switch :
    (run step twoPathEngine (threeFailures ++ [.resume 0 true 0, .resume 0 true 0,
        .resume 0 false 0, .resume 0 true 0, .beginStop, .finishStop])).phase = .stopped ∧
      ¬ (run step twoPathEngine (threeFailures ++ [.resume 0 true 0, .resume 0 true 0,
        .resume 0 false 0, .resume 0 true 0, .beginStop, .finishStop])).stops.Nodup := by
  decide

end Engine
