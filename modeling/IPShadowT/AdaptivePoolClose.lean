/-
# The adaptive pool after `Close`

`Close` closes the channel that `Get` receives from and that `put` sends to.  `Frame` says what any
step, those of `Close` included, can do to the channel and to the other calls.  From it follow that
the channel of a pool whose `Close` has returned is closed and empty, `closing_run`, and what
becomes of a `Get` that is called then, `late_run`.
-/
import IPShadowT.AdaptivePool
import IPShadowT.AdaptivePoolRuns
import IPShadowT.Runs

open Runs

namespace AdaptivePool

/-! ## Any step -/

/-- What `Get` has returned, released or not. -/
def handedOut (s : AdaptivePool) : List Conn := s.pooled.map PooledConn.conn

/-- Whether a call is `Close` of the pool after it closed the channel. -/
def Call.isDraining : Call → Bool
  | .drain | .shutdownReturned => true
  | _ => false

/-- How a call gets to where `Close` of the pool has closed the channel. -/
def Drains (s s' : AdaptivePool) (t t' : Call) : Prop :=
  t' = t ∨ (t' = .drain ∧ s'.chanClosed = true) ∨
    (t' = .shutdownReturned ∧ t = .drain ∧ s.conns = [])

/-- A step of call `k`, which was at `t`. -/
structure Frame (s s' : AdaptivePool) (k : ℕ) (t : Call) : Prop where
  calls : ∃ t' new, s'.calls = s.calls.set k t' ++ List.replicate new .dial ∧
    (t'.isDraining = true → Drains s s' t t')
  chanClosed : s.chanClosed = true → s'.chanClosed = true
  conns : s.chanClosed = true → s.conns = [] → s'.conns = []
  handedOut : ∃ more, s'.handedOut = s.handedOut ++ more

variable {s : AdaptivePool} {t' : Call} {t : Call} {next : Conn → Call} {k : ℕ}

section Frames

variable {s : AdaptivePool} {k : ℕ} {t : Call}

/-- A step that moves the call, outside of `Close`, and may put something in or out of the channel
while that is open. -/
theorem frame_of_set {s' : AdaptivePool} (ht' : t'.isDraining = false)
    (hcalls : s'.calls = s.calls.set k t') (hchan : s'.chanClosed = s.chanClosed)
    (hconns : s.chanClosed = true → s.conns = [] → s'.conns = [])
    (hpooled : ∃ more, s'.handedOut = s.handedOut ++ more) : Frame s s' k t where
  calls := ⟨t', 0, hcalls.trans (List.append_nil _).symm, fun h => by rw [ht'] at h; cases h⟩
  chanClosed h := hchan.trans h
  conns := hconns
  handedOut := hpooled

/-- A step that leaves the call where it is. -/
theorem frame_of_stay (hk : s.calls[k]? = some t) {s' : AdaptivePool}
    (hcalls : s'.calls = s.calls) (hchan : s'.chanClosed = s.chanClosed)
    (hconns : s.conns = [] → s'.conns = []) (hpooled : s'.pooled = s.pooled) :
    Frame s s' k t where
  calls := by
    refine ⟨t, 0, ?_, fun _ => .inl rfl⟩
    rw [hcalls, set_eq_self hk, List.replicate_zero, List.append_nil]
  chanClosed h := hchan.trans h
  conns _ := hconns
  handedOut := ⟨[], by rw [handedOut, hpooled, List.append_nil]; rfl⟩

/-- A call goes on. -/
theorem become_frame (ht' : t'.isDraining = false) : Frame s (s.become k t') k t :=
  frame_of_set ht' rfl rfl (fun _ => id) ⟨[], (List.append_nil _).symm⟩

/-- A call panics. -/
theorem panic_frame (hk : s.calls[k]? = some t) : Frame s s.panic k t :=
  frame_of_stay hk rfl rfl id rfl

theorem receive_frame {empty : Call} (hnext : ∀ conn, (next conn).isDraining = false)
    (hempty : empty.isDraining = false) :
    Frame s (s.receive k next empty) k t := by
  cases hconns : s.conns with
  | nil =>
    rw [receive_empty hconns]
    apply become_frame
    cases s.chanClosed with
    | true => exact hnext none
    | false => exact hempty
  | cons conn rest =>
    rw [receive, hconns]
    refine frame_of_set (hnext conn) rfl rfl ?_ ⟨[], (List.append_nil _).symm⟩
    intro _ hnil
    rw [hconns] at hnil
    cases hnil

theorem dialing_frame (ok : Bool) {next : ℕ → Call} {failed : Call}
    (hnext : ∀ c, (next c).isDraining = false) (hfailed : failed.isDraining = false) :
    Frame s (s.dialing k ok next failed) k t := by
  cases ok with
  | false => exact become_frame hfailed
  | true => exact frame_of_set (hnext s.dialed) rfl rfl (fun _ => id) ⟨[], (List.append_nil _).symm⟩

theorem addSize_frame (d : Int32) (ht' : t'.isDraining = false) : Frame s (s.addSize k d t') k t :=
  frame_of_set ht' rfl rfl (fun _ => id) ⟨[], (List.append_nil _).symm⟩

theorem closeConn_frame (hk : s.calls[k]? = some t) (conn : Conn) (ht' : t'.isDraining = false) :
    Frame s (s.closeConn k conn t') k t := by
  cases conn with
  | none => exact panic_frame hk
  | some c => exact frame_of_set ht' rfl rfl (fun _ => id) ⟨[], (List.append_nil _).symm⟩

theorem handOut_frame (conn : Conn) : Frame s (s.handOut k conn) k t :=
  have hreturned : Call.returned.isDraining = false := rfl
  frame_of_set hreturned rfl rfl (fun _ => id) ⟨[conn], List.map_append⟩

theorem release_frame (i : ℕ) (hnext : ∀ conn, (next conn).isDraining = false) :
    Frame s (s.release k i next) k t := by
  unfold release
  cases hi : s.pooled[i]? with
  | none => exact become_frame rfl
  | some h =>
    cases hclosed : h.closed with
    | true =>
      simp only [hclosed, if_true]
      exact become_frame rfl
    | false =>
      simp only [hclosed, Bool.false_eq_true, if_false]
      refine frame_of_set (hnext h.conn) rfl rfl (fun _ => id) ⟨[], ?_⟩
      have hconn : s.handedOut[i]? = some h.conn := by
        rw [handedOut, List.getElem?_map, hi, Option.map_some]
      rw [List.append_nil]
      exact List.map_set.trans (set_eq_self hconn)

theorem offer_frame (hk : s.calls[k]? = some t) (conn : Conn) : Frame s (s.offer k conn) k t := by
  unfold offer
  by_cases hchan : s.chanClosed = true
  · rw [if_pos hchan]
    exact panic_frame hk
  · rw [if_neg hchan]
    by_cases hlt : s.conns.length < s.maxSize
    · have hreturned : Call.returned.isDraining = false := rfl
      rw [if_pos hlt]
      exact frame_of_set hreturned rfl rfl (fun h => absurd h hchan) ⟨[], (List.append_nil _).symm⟩
    · rw [if_neg hlt]
      exact become_frame rfl

theorem adjustSize_frame (current : ℤ) (e : Env) : Frame s (s.adjustSize k current e) k t := by
  unfold adjustSize
  by_cases hzero : current = 0
  · rw [if_pos hzero]
    exact become_frame rfl
  · rw [if_neg hzero]
    refine ⟨⟨.shrink (s.toRemove current e.low), s.toAdd current e.ok, rfl, ?_⟩, id, fun _ => id,
      [], (List.append_nil _).symm⟩
    intro h
    cases h

/-- `Close` drains the channel. -/
theorem drained_frame (hk : s.calls[k]? = some .drain) : Frame s (s.drained k) k .drain := by
  unfold drained
  cases hconns : s.conns with
  | nil =>
    refine ⟨⟨.shutdownReturned, 0, (List.append_nil _).symm, ?_⟩, id, fun _ => id, [],
      (List.append_nil _).symm⟩
    intro _
    exact .inr (.inr ⟨rfl, rfl, hconns⟩)
  | cons conn rest =>
    cases conn with
    | none => exact panic_frame hk
    | some c =>
      refine frame_of_stay hk rfl rfl ?_ rfl
      intro hnil
      rw [hconns] at hnil
      cases hnil

/-- `Close` closes `done`. -/
theorem shutdown_frame (hk : s.calls[k]? = some t) :
    Frame s (if s.done then s.panic
      else { s with done := true, calls := s.calls.set k .shutdownWait }) k t := by
  have hwait : Call.shutdownWait.isDraining = false := rfl
  cases s.done with
  | true => exact panic_frame hk
  | false => exact frame_of_set hwait rfl rfl (fun _ => id) ⟨[], (List.append_nil _).symm⟩

/-- `Close` closes the channel. -/
theorem shutdownChan_frame (hk : s.calls[k]? = some t) :
    Frame s (if s.chanClosed then s.panic
      else { s with chanClosed := true, calls := s.calls.set k .drain }) k t := by
  by_cases hchan : s.chanClosed = true
  · rw [if_pos hchan]
    exact panic_frame hk
  · rw [if_neg hchan]
    refine ⟨⟨.drain, 0, (List.append_nil _).symm, ?_⟩, fun _ => rfl, fun _ => id, [],
      (List.append_nil _).symm⟩
    intro _
    exact .inr (.inl ⟨rfl, rfl⟩)

/-- **What any step of a call can do.** -/
theorem resume_frame (hk : s.calls[k]? = some t) (e : Env) : Frame s (s.resume k e t) k t := by
  cases t with
  | get => exact receive_frame (fun _ => rfl) rfl
  | test =>
    apply become_frame
    by_cases hlt : s.currentSize.toInt < s.maxSize
    · rw [if_pos hlt]; rfl
    · rw [if_neg hlt]; rfl
  | getDial => exact dialing_frame e.ok (fun _ => rfl) rfl
  | getDialed conn => exact addSize_frame 1 rfl
  | wait =>
    rw [resume]
    cases e.ok with
    | true => exact become_frame rfl
    | false => exact receive_frame (fun _ => rfl) rfl
  | taken conn => exact handOut_frame conn
  | close i => exact release_frame i (fun _ => rfl)
  | markBad i => exact release_frame i (fun _ => rfl)
  | offer conn => exact offer_frame hk conn
  | refused conn => exact closeConn_frame hk conn rfl
  | uncount => exact addSize_frame _ rfl
  | discard conn => exact addSize_frame _ rfl
  | discarded conn => exact closeConn_frame hk conn rfl
  | dial => exact dialing_frame e.ok (fun _ => rfl) rfl
  | dialed conn => exact addSize_frame 1 rfl
  | loop =>
    apply become_frame
    cases e.ok with
    | true => rfl
    | false => cases s.done <;> rfl
  | adjust => exact become_frame rfl
  | adjusting current => exact adjustSize_frame current e
  | shrink n =>
    cases n with
    | zero => exact become_frame rfl
    | succ n => exact receive_frame (fun _ => rfl) rfl
  | shrinking conn n => exact closeConn_frame hk conn rfl
  | shrunk n => exact addSize_frame _ rfl
  | shutdown => exact shutdown_frame hk
  | shutdownWait =>
    rw [resume]
    cases s.calls.any Call.isLoop with
    | true => exact frame_of_stay hk rfl rfl id rfl
    | false => exact become_frame rfl
  | shutdownChan => exact shutdownChan_frame hk
  | drain => exact drained_frame hk
  | shutdownReturned => exact frame_of_stay hk rfl rfl id rfl
  | failed err => exact frame_of_stay hk rfl rfl id rfl
  | returned => exact frame_of_stay hk rfl rfl id rfl

end Frames

/-! ## The channel of a closed pool -/

/-- `Close` of the pool drains a closed channel, and returns when it is empty. -/
structure Closing (s : AdaptivePool) : Prop where
  chanClosed : ∀ t ∈ s.calls, t.isDraining = true → s.chanClosed = true
  empty : Call.shutdownReturned ∈ s.calls → s.conns = []

/-- A call is started. -/
theorem Closing.start (h : s.Closing) {ev : Event} (ht : ev.call = some t) :
    (s.spawn t).Closing := by
  have hnot : t.isDraining = false := by cases ev <;> cases ht <;> rfl
  have hold : ∀ u ∈ (s.spawn t).calls, u.isDraining = true → u ∈ s.calls := by
    intro u hu hdrain
    rcases List.mem_append.1 hu with hmem | hnew
    · exact hmem
    · rw [List.mem_singleton.1 hnew, hnot] at hdrain
      cases hdrain
  exact ⟨fun u hu hdrain => h.chanClosed u (hold u hu hdrain) hdrain,
    fun hmem => h.empty (hold _ hmem rfl)⟩

/-- A call goes on. -/
theorem Closing.frame {s s' : AdaptivePool} (h : s.Closing) (hk : s.calls[k]? = some t)
    (hf : Frame s s' k t) : s'.Closing := by
  obtain ⟨t', new, hcalls, hdrains⟩ := hf.calls
  have hmem : t ∈ s.calls := List.mem_of_getElem? hk
  -- a call of `Close` that has closed the channel was there before, or is the one that went on
  have hcases : ∀ u ∈ s'.calls, u.isDraining = true →
      u ∈ s.calls ∨ (u = .drain ∧ s'.chanClosed = true) ∨
        (u = .shutdownReturned ∧ t = .drain ∧ s.conns = []) := by
    intro u hu hdrain
    rw [hcalls, List.mem_append] at hu
    rcases hu with hset | hnew
    · rcases List.mem_or_eq_of_mem_set hset with hold | rfl
      · exact .inl hold
      · rcases hdrains hdrain with rfl | hopened
        · exact .inl hmem
        · exact .inr hopened
    · rw [List.eq_of_mem_replicate hnew] at hdrain
      cases hdrain
  constructor
  · intro u hu hdrain
    rcases hcases u hu hdrain with hold | ⟨-, hchan⟩ | ⟨-, rfl, -⟩
    · exact hf.chanClosed (h.chanClosed u hold hdrain)
    · exact hchan
    · exact hf.chanClosed (h.chanClosed .drain hmem rfl)
  · intro hu
    rcases hcases _ hu rfl with hold | ⟨hne, -⟩ | ⟨-, rfl, hnil⟩
    · exact hf.conns (h.chanClosed _ hold rfl) (h.empty hold)
    · cases hne
    · exact hf.conns (h.chanClosed .drain hmem rfl) hnil

/-- **One step.** -/
theorem Closing.step (h : s.Closing) (ev : Event) : (AdaptivePool.step s ev).Closing := by
  apply step_rule h
  · intro t ht
    exact h.start ht
  · intro k e t hk
    exact h.frame hk (resume_frame hk e)

/-- **Every run.** -/
theorem closing_run (cfg : PoolConfig) (es : List Event) :
    (run step (newAdaptivePool cfg) es).Closing :=
  have hnew : (newAdaptivePool cfg).Closing :=
    ⟨fun _ ht => absurd ht List.not_mem_nil, fun h => absurd h List.not_mem_nil⟩
  run_invariant (fun _ ev h => h.step ev) hnew es

/-! ## A late `Get` -/

/-- Where a `Get` is that was called after the pool was closed: it has yet to receive, it has
received nil, or it has handed that out. -/
structure Late (k : ℕ) (s : AdaptivePool) : Prop where
  chanClosed : s.chanClosed = true
  conns : s.conns = []
  call : s.calls[k]? = some .get ∨ s.calls[k]? = some (.taken none) ∨
    s.calls[k]? = some .returned ∧ none ∈ s.handedOut

/-- The steps of the other calls. -/
theorem Late.frame {k j : ℕ} {s s' : AdaptivePool} (h : Late k s) (hne : j ≠ k)
    (hf : Frame s s' j t) : Late k s' := by
  obtain ⟨t', new, hcalls, -⟩ := hf.calls
  obtain ⟨more, hmore⟩ := hf.handedOut
  have hkeep : ∀ {u : Call}, s.calls[k]? = some u → s'.calls[k]? = some u := by
    intro u hu
    have hset : (s.calls.set j t')[k]? = some u := by rw [List.getElem?_set_ne hne, hu]
    rw [hcalls, List.getElem?_append_left (List.getElem?_eq_some_iff.1 hset).1, hset]
  refine ⟨hf.chanClosed h.chanClosed, hf.conns h.chanClosed h.conns, ?_⟩
  rcases h.call with hget | htaken | ⟨hreturned, hnil⟩
  · exact .inl (hkeep hget)
  · exact .inr (.inl (hkeep htaken))
  · exact .inr (.inr ⟨hkeep hreturned, hmore ▸ List.mem_append_left more hnil⟩)

/-- Its own steps. -/
theorem Late.resume (h : Late k s) (hk : s.calls[k]? = some t) (e : Env) :
    Late k (s.resume k e t) := by
  have hlt : k < s.calls.length := (List.getElem?_eq_some_iff.1 hk).1
  have hat : ∀ t' : Call, (s.calls.set k t')[k]? = some t' :=
    fun t' => List.getElem?_set_self hlt
  rcases h.call with hget | htaken | ⟨hreturned, hnil⟩
  · obtain rfl : t = .get := Option.some.inj (hk.symm.trans hget)
    rw [AdaptivePool.resume, receive_empty h.conns, h.chanClosed]
    exact ⟨h.chanClosed, h.conns, .inr (.inl (hat _))⟩
  · obtain rfl : t = .taken none := Option.some.inj (hk.symm.trans htaken)
    have hnil : none ∈ (s.handOut k none).handedOut := by
      rw [handOut, handedOut, List.map_append]
      exact List.mem_append_right _ List.mem_cons_self
    exact ⟨h.chanClosed, h.conns, .inr (.inr ⟨hat _, hnil⟩)⟩
  · obtain rfl : t = .returned := Option.some.inj (hk.symm.trans hreturned)
    exact h

/-- **One step** after the call. -/
theorem Late.step (h : Late k s) (ev : Event) : Late k (AdaptivePool.step s ev) := by
  apply step_rule h
  · intro t _
    have hkeep : ∀ {u : Call}, s.calls[k]? = some u → (s.spawn t).calls[k]? = some u :=
      fun hu => getElem?_append_singleton_iff.2 (.inl hu)
    exact ⟨h.chanClosed, h.conns, h.call.imp hkeep (Or.imp hkeep (And.imp_left hkeep))⟩
  · intro j e t hj
    by_cases hne : j = k
    · subst hne
      exact h.resume hj e
    · exact h.frame hne (resume_frame hj e)

/-- **Every run** after it. -/
theorem late_run (hp : s.panicked = false) (hchan : s.chanClosed = true) (hconns : s.conns = [])
    (es : List Event) :
    Late s.calls.length (run step s (.get :: es)) := by
  have hget : step s .get = s.spawn .get := step_call hp rfl
  have hlate : Late s.calls.length (s.spawn .get) :=
    ⟨hchan, hconns, .inl List.getElem?_concat_length⟩
  rw [run_cons, hget]
  exact run_invariant (fun _ ev h => h.step ev) hlate es

/-! ## What goes wrong -/

/-- `Get` on a closed pool hands out nil. -/
theorem late_get (hp : s.panicked = false) (hchan : s.chanClosed = true) (hconns : s.conns = [])
    (e e' : Env) :
    run step s [.get, .resume s.calls.length e, .resume s.calls.length e'] =
      { s with
        activeConns := s.activeConns + 1
        pooled := s.pooled ++ [⟨none, false⟩]
        calls := s.calls ++ [.returned] } := by
  have hget : step s .get = s.spawn .get := step_call hp rfl
  have htaken : step (s.spawn .get) (.resume s.calls.length e) = s.spawn (.taken none) := by
    have hconns' : (s.spawn .get).conns = [] := hconns
    have hchan' : (s.spawn .get).chanClosed = true := hchan
    rw [step_resume (s := s.spawn .get) hp List.getElem?_concat_length, resume,
      receive_empty hconns', hchan']
    exact become_spawn s .get (.taken none)
  have hset : (s.calls ++ [Call.taken none]).set s.calls.length .returned =
      s.calls ++ [.returned] :=
    congrArg calls (become_spawn s (.taken none) .returned)
  rw [run_cons, run_cons, run_cons, run_nil, hget, htaken,
    step_resume (s := s.spawn (.taken none)) hp List.getElem?_concat_length, resume, handOut]
  simp only [spawn, hset]

/-- What the first step of a release changes. -/
theorem release_open {k i : ℕ} {h : PooledConn} (hi : s.pooled[i]? = some h)
    (hopen : h.closed = false) :
    (s.release k i next).calls = s.calls.set k (next h.conn) ∧
      (s.release k i next).chanClosed = s.chanClosed ∧
      (s.release k i next).panicked = s.panicked ∧ (s.release k i next).closed = s.closed := by
  unfold release
  rw [hi]
  simp only [hopen, Bool.false_eq_true, if_false, and_self]

/-- A release after the channel was closed panics, and closes nothing. -/
theorem late_close (hp : s.panicked = false) (hchan : s.chanClosed = true) {i : ℕ} {h : PooledConn}
    (hi : s.pooled[i]? = some h) (hopen : h.closed = false) (e e' : Env) :
    let s' := run step s [.close i, .resume s.calls.length e, .resume s.calls.length e']
    s'.panicked = true ∧ s'.closed = s.closed := by
  have hclose : step s (.close i) = s.spawn (.close i) := step_call hp rfl
  have hrelease : step (s.spawn (.close i)) (.resume s.calls.length e) =
      (s.spawn (.close i)).release s.calls.length i .offer :=
    step_resume (s := s.spawn (.close i)) hp List.getElem?_concat_length e
  obtain ⟨hcalls, hchan', hp', hclosed⟩ :=
    @release_open (s.spawn (.close i)) .offer s.calls.length i h hi hopen
  have hat : ((s.spawn (.close i)).release s.calls.length i .offer).calls[s.calls.length]? =
      some (.offer h.conn) := by
    rw [hcalls]
    apply List.getElem?_set_self
    rw [spawn, List.length_append]
    exact Nat.lt_succ_self _
  have hoffer := step_resume (hp'.trans hp) hat e'
  rw [resume, offer, if_pos (hchan'.trans hchan)] at hoffer
  intro s'
  have hrun : s' = ((s.spawn (.close i)).release s.calls.length i .offer).panic := by
    simp only [s', run_cons, run_nil, hclose, hrelease, hoffer]
  rw [hrun]
  exact ⟨rfl, hclosed⟩

/-- **After `Close`.**  In every run in which `Close` of the pool has returned, and nothing has
panicked yet: a `Get` that is called then does not return an error, whatever else goes on, but nil
as its connection; and the release of a connection that was handed out panics without closing it. -/
theorem closed_pool_fails (cfg : PoolConfig) (es : List Event)
    (hreturned : Call.shutdownReturned ∈ (run step (newAdaptivePool cfg) es).calls)
    (hp : (run step (newAdaptivePool cfg) es).panicked = false) :
    let s := run step (newAdaptivePool cfg) es
    let k := s.calls.length
    (∀ es', Late k (run step s (.get :: es'))) ∧
      (∀ e e', (run step s [.get, .resume k e, .resume k e']).calls = s.calls ++ [.returned] ∧
        (run step s [.get, .resume k e, .resume k e']).pooled = s.pooled ++ [⟨none, false⟩]) ∧
      ∀ i h, s.pooled[i]? = some h → h.closed = false → ∀ e e',
        (run step s [.close i, .resume k e, .resume k e']).panicked = true ∧
          (run step s [.close i, .resume k e, .resume k e']).closed = s.closed := by
  intro s k
  have hclosing : s.Closing := closing_run cfg es
  have hchan : s.chanClosed = true := hclosing.chanClosed _ hreturned rfl
  have hconns : s.conns = [] := hclosing.empty hreturned
  refine ⟨fun es' => late_run hp hchan hconns es', ?_, ?_⟩
  · intro e e'
    rw [late_get hp hchan hconns e e']
    exact ⟨rfl, rfl⟩
  · intro i h hi hopen e e'
    exact late_close hp hchan hi hopen e e'

/-- A `Get` that dials, and `Close` of the pool. -/
def closeRun : List Event :=
  [.get, go 0, go 0, go 0, go 0, go 0, .shutdown, go 1, go 1, go 1, go 1]

theorem closed_pool_fails_sample :
    Call.shutdownReturned ∈ (run step (newAdaptivePool ⟨1, 1⟩) closeRun).calls ∧
      ∀ e e', (run step (run step (newAdaptivePool ⟨1, 1⟩) closeRun)
        [.close 0, .resume 2 e, .resume 2 e']).panicked = true :=
  ⟨by decide +kernel, fun e e' =>
    ((closed_pool_fails ⟨1, 1⟩ closeRun (by decide +kernel) (by decide +kernel)).2.2 0
      ⟨some 0, false⟩ (by decide +kernel) rfl e e').1⟩

/-- The same run, then a `Get` that returns nil for its connection, and the release of the first
connection, which panics and does not close it. -/
theorem close_get_close_panics :
    let s := run step (newAdaptivePool ⟨1, 1⟩) closeRun
    let s' := run step s [.get, go 2, go 2]
    let s'' := run step s' [.close 0, go 3, go 3]
    Call.shutdownReturned ∈ s.calls ∧ s'.panicked = false ∧ s'.calls[2]? = some .returned ∧
      s'.pooled = [⟨some 0, false⟩, ⟨none, false⟩] ∧ s''.panicked = true ∧ s''.closed = [] := by
  decide +kernel

end AdaptivePool
