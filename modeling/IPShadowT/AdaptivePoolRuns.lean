/-
# Interleavings of the adaptive pool

What holds of `AdaptivePool` whatever the order in which its calls and goroutines go on.

* Before `Close` of the pool nothing is lost: `Conserved` counts what the calls on their way hold,
  and `pool_conserved` reads off it what holds when none is.
* `capacity_iff` says which dials keep the open connections within the maximum.
-/
import IPShadowT.AdaptivePool
import IPShadowT.Runs

open Runs

namespace AdaptivePool

/-! ## Steps -/

/-- Call `t` is started. -/
def spawn (s : AdaptivePool) (t : Call) : AdaptivePool := { s with calls := s.calls ++ [t] }

/-- A step starts a call, takes one further, or does nothing. -/
theorem step_cases (s : AdaptivePool) (ev : Event) :
    (∃ t, ev.call = some t ∧ step s ev = s.spawn t) ∨
      (∃ k e t, ev = .resume k e ∧ s.calls[k]? = some t ∧ step s ev = s.resume k e t) ∨
      step s ev = s := by
  unfold step
  by_cases hp : s.panicked = true
  · exact .inr (.inr (if_pos hp))
  · simp only [if_neg hp]
    cases ev with
    | resume k e =>
      right
      cases hk : s.calls[k]? with
      | none => exact .inr (by simp only [hk, Option.map_none, Option.getD_none])
      | some t =>
        exact .inl ⟨k, e, t, rfl, hk, by simp only [hk, Option.map_some, Option.getD_some]⟩
    | get => exact .inl ⟨.get, rfl, rfl⟩
    | close i => exact .inl ⟨.close i, rfl, rfl⟩
    | markBad i => exact .inl ⟨.markBad i, rfl, rfl⟩
    | warmup => exact .inl ⟨.dial, rfl, rfl⟩
    | adaptiveLoop => exact .inl ⟨.loop, rfl, rfl⟩
    | shutdown => exact .inl ⟨.shutdown, rfl, rfl⟩

variable {s : AdaptivePool} {t : Call} {max : ℕ} {ev : Event} {k : ℕ} {j : ℕ} {es : List Event}
variable {b : ℕ}

/-- **The step rule.**  What holds of a state, of it with a new call, and of it with a call that
went on holds after any step. -/
theorem step_rule {P : AdaptivePool → Prop} (hs : P s)
    (hstart : ∀ t, ev.call = some t → P (s.spawn t))
    (hresume : ∀ k e t, s.calls[k]? = some t → P (s.resume k e t)) : P (step s ev) := by
  rcases step_cases s ev with ⟨t, ht, hstep⟩ | ⟨k, e, t, -, hk, hstep⟩ | hstep
  · exact hstep ▸ hstart t ht
  · exact hstep ▸ hresume k e t hk
  · exact hstep.symm ▸ hs

/-- A call is started. -/
theorem step_call (hp : s.panicked = false) (ht : ev.call = some t) : step s ev = s.spawn t := by
  have hnot : ¬ s.panicked = true := by rw [hp]; exact Bool.false_ne_true
  unfold step
  rw [if_neg hnot]
  cases ev <;> cases ht <;> rfl

/-- A call goes on. -/
theorem step_resume (hp : s.panicked = false) (hk : s.calls[k]? = some t) (e : Env) :
    step s (.resume k e) = s.resume k e t := by
  simp only [step, hp, Bool.false_eq_true, if_false, hk, Option.map_some, Option.getD_some]

theorem receive_empty (hconns : s.conns = []) {next : Conn → Call} {empty : Call} :
    s.receive k next empty = s.become k (if s.chanClosed then next none else empty) := by
  unfold receive
  rw [hconns]
  cases s.chanClosed <;> rfl

/-- A new call holds nothing. -/
theorem Event.call_fresh (h : ev.call = some t) : t.counts = false ∧ t.conn = none := by
  cases ev <;> cases h <;> exact ⟨rfl, rfl⟩

theorem Event.call_isShutdown (h : ev.call = some t) (hev : ev ≠ .shutdown) :
    t.isShutdown = false := by
  cases ev with
  | shutdown => exact absurd rfl hev
  | resume k e => cases h
  | _ => cases h; rfl

section Others

variable {s s' : AdaptivePool} {k new : ℕ} {t t' : Call}

/-- How many calls satisfy `p` before and after a step of call `k`: `x` of the others. -/
theorem Effect.others (h : Effect s s' k t t' new) (hk : s.calls[k]? = some t)
    (p : Call → Bool) :
    ∃ x, s.calls.countP p = x + (p t).toNat ∧
      s'.calls.countP p = x + (p t').toNat + new * (p .dial).toNat := by
  have hset := countP_set_add p hk t'
  have hle : (p t).toNat ≤ s.calls.countP p := by
    cases hp : p t with
    | false => exact Nat.zero_le _
    | true => exact List.countP_pos_iff.2 ⟨t, List.mem_of_getElem? hk, hp⟩
  have hnew : (List.replicate new Call.dial).countP p = new * (p .dial).toNat := by
    rw [List.countP_replicate]
    cases p .dial with
    | false => simp
    | true => simp
  refine ⟨s.calls.countP p - (p t).toNat, by omega, ?_⟩
  rw [h.calls, List.countP_append, hnew]
  omega

/-- The calls after a step. -/
theorem Effect.mem_calls (h : Effect s s' k t t' new) {u : Call} (hu : u ∈ s'.calls) :
    u ∈ s.calls ∨ u = t' ∨ u = .dial := by
  rw [h.calls, List.mem_append] at hu
  rcases hu with hset | hnew
  · rcases List.mem_or_eq_of_mem_set hset with hold | heq
    · exact .inl hold
    · exact .inr (.inl heq)
  · exact .inr (.inr (List.eq_of_mem_replicate hnew))

end Others

/-! ## Conservation -/

/-- What holds before `Close` of a pool of maximum `max`. -/
structure Conserved (max : ℕ) (s : AdaptivePool) : Prop where
  maxSize : s.maxSize = max
  chanClosed : s.chanClosed = false
  isShutdown : ∀ t ∈ s.calls, t.isShutdown = false
  room : s.conns.length ≤ max
  size : s.currentSize = Int32.ofNat (s.opened + s.calls.countP Call.counts)
  active : s.activeConns = Int32.ofNat s.unreleased
  places : OnePlace (fun c => s.places c + s.calls.countP (Call.holds c)) s.dialed

/-- A call is started. -/
theorem Conserved.start (h : s.Conserved max) (ht : ev.call = some t) (hev : ev ≠ .shutdown) :
    (s.spawn t).Conserved max := by
  obtain ⟨hcounts, hconn⟩ := Event.call_fresh ht
  have hsame : ∀ p : Call → Bool, p t = false → (s.calls ++ [t]).countP p = s.calls.countP p := by
    intro p hp
    rw [countP_append_singleton, hp]
    rfl
  refine ⟨h.maxSize, h.chanClosed, ?_, h.room, ?_, h.active, ?_⟩
  · intro u hu
    rcases List.mem_append.1 hu with hold | hnew
    · exact h.isShutdown u hold
    · rw [List.mem_singleton.1 hnew]
      exact Event.call_isShutdown ht hev
  · show s.currentSize = Int32.ofNat (s.opened + (s.calls ++ [t]).countP Call.counts)
    rw [hsame Call.counts hcounts]
    exact h.size
  · refine h.places.move ?_
    intro c
    have hholds : t.holds c = false := by rw [Call.holds, hconn]; rfl
    show s.places c + (s.calls ++ [t]).countP (Call.holds c) = _
    rw [hsame (Call.holds c) hholds]

/-- A call goes on. -/
theorem Conserved.effect {s s' : AdaptivePool} {k new : ℕ} {t t' : Call} (h : s.Conserved max)
    (hk : s.calls[k]? = some t) (he : Effect s s' k t t' new) :
    s'.Conserved max := by
  refine ⟨he.maxSize.trans h.maxSize, he.chanClosed.trans h.chanClosed, ?_, ?_, ?_,
    he.active h.active, ?_⟩
  · intro u hu
    rcases he.mem_calls hu with hold | rfl | rfl
    · exact h.isShutdown u hold
    · exact he.isShutdown
    · rfl
  · have hroom := he.room
    rw [h.maxSize] at hroom
    exact hroom h.room
  · obtain ⟨x, hx, hx'⟩ := he.others hk Call.counts
    have hdial : Call.dial.counts = false := rfl
    have hbefore := h.size
    rw [hx, ← Nat.add_assoc, Nat.add_comm s.opened x] at hbefore
    rw [hx', he.size x hbefore, hdial]
    congr 1
    simp only [Bool.toNat_false]
    omega
  · choose x hx hx' using fun c => he.others hk (Call.holds c)
    have hbefore : OnePlace (fun c => x c + s.places c + (t.holds c).toNat) s.dialed :=
      h.places.move (fun c => by rw [hx c]; omega)
    refine (he.places x hbefore).move ?_
    intro c
    have hdial : Call.dial.holds c = false := rfl
    rw [hx' c, hdial]
    simp only [Bool.toNat_false]
    omega

theorem Conserved.resume_effect (h : s.Conserved max) (hk : s.calls[k]? = some t) (e : Env) :
    ∃ t' new, Effect s (s.resume k e t) k t t' new :=
  AdaptivePool.resume_effect hk (h.isShutdown t (List.mem_of_getElem? hk)) h.chanClosed e

/-- **One step** before `Close`. -/
theorem Conserved.step (h : s.Conserved max) (hev : ev ≠ .shutdown) :
    (AdaptivePool.step s ev).Conserved max := by
  apply step_rule h
  · intro t ht
    exact h.start ht hev
  · intro k e t hk
    obtain ⟨t', new, he⟩ := h.resume_effect hk e
    exact h.effect hk he

/-- **Every run** before `Close`. -/
theorem Conserved.run (h : s.Conserved max) (hes : Event.shutdown ∉ es) :
    (Runs.run AdaptivePool.step s es).Conserved max := by
  induction es generalizing s with
  | nil => exact h
  | cons ev es ih =>
    have hev : ev ≠ .shutdown := fun h => hes (h ▸ List.mem_cons_self)
    exact ih (h.step hev) (fun hmem => hes (List.mem_cons_of_mem ev hmem))

/-- A new pool. -/
theorem conserved_new (cfg : PoolConfig) :
    (newAdaptivePool cfg).Conserved (newAdaptivePool cfg).maxSize where
  maxSize := rfl
  chanClosed := rfl
  isShutdown _ ht := absurd ht List.not_mem_nil
  room := Nat.zero_le _
  size := rfl
  active := rfl
  places _ := (if_neg (Nat.not_lt_zero _)).symm

/-- Whether a call is over, or `adaptiveLoop` between two ticks. -/
def Call.quiet : Call → Bool
  | .returned | .failed _ | .loop => true
  | _ => false

/-- No operation is in progress. -/
def Quiet (s : AdaptivePool) : Prop := ∀ t ∈ s.calls, t.quiet = true

instance Quiet.decidable (s : AdaptivePool) : Decidable s.Quiet :=
  inferInstanceAs (Decidable (∀ t ∈ s.calls, t.quiet = true))

theorem Call.of_quiet (h : t.quiet = true) (maxSize : ℕ) :
    t.counts = false ∧ t.conn = none ∧ t.pending maxSize = false := by
  cases t <;> cases h <;> exact ⟨rfl, rfl, rfl⟩

theorem Quiet.countP_eq_zero (h : s.Quiet) {p : Call → Bool}
    (hp : ∀ t : Call, t.quiet = true → p t = false) : s.calls.countP p = 0 := by
  apply List.countP_eq_zero.2
  intro t ht
  rw [hp t (h t ht)]
  exact Bool.false_ne_true

/-- **Conservation.**  Before `Close` of the pool, whenever no operation is in progress, the
counters are right and every connection that was made is in exactly one place: idle, with one
caller, or closed. -/
theorem pool_conserved (cfg : PoolConfig) (es : List Event) (hes : Event.shutdown ∉ es)
    (hquiet : (run step (newAdaptivePool cfg) es).Quiet) :
    let s := run step (newAdaptivePool cfg) es
    s.currentSize = Int32.ofNat (s.conns.length + s.unreleased) ∧
      s.activeConns = Int32.ofNat s.unreleased ∧ OnePlace s.places s.dialed := by
  intro s
  have hconserved := (conserved_new cfg).run hes
  refine ⟨?_, hconserved.active, ?_⟩
  · have hnone := hquiet.countP_eq_zero (fun t ht => (t.of_quiet ht 0).1)
    have hsize := hconserved.size
    rw [hnone] at hsize
    exact hsize
  · refine hconserved.places.move ?_
    intro c
    have hholds : ∀ t : Call, t.quiet = true → t.holds c = false := by
      intro t ht
      rw [Call.holds, (t.of_quiet ht 0).2.1]
      rfl
    show s.places c = s.places c + s.calls.countP (Call.holds c)
    rw [hquiet.countP_eq_zero hholds, Nat.add_zero]

/-- A warm-up, a `Get` that is served from the channel, one that dials, and the release of both,
one of them marked bad. -/
def sampleRun : List Event :=
  let go k := Event.resume k ⟨true, false⟩
  [.warmup, go 0, go 0, go 0, .get, .get, go 1, go 2, go 1, go 2, go 2, go 2, go 2, .close 0,
    .markBad 1, go 3, go 4, go 4, go 3, go 4]

theorem pool_conserved_sample :
    Event.shutdown ∉ sampleRun ∧
      (let s := run step (newAdaptivePool ⟨1, 2⟩) sampleRun
       s.dialed = 2 ∧ s.closed = [1] ∧ s.conns = [some 0] ∧
        s.currentSize = Int32.ofNat (s.conns.length + s.unreleased) ∧
        s.activeConns = Int32.ofNat s.unreleased ∧ OnePlace s.places s.dialed) :=
  ⟨by decide, by decide +kernel, by decide +kernel, by decide +kernel,
    pool_conserved ⟨1, 2⟩ sampleRun (by decide) (by decide +kernel)⟩

/-! ## Capacity -/

/-- How many dials rest on a look at `currentSize` and are not counted in it. -/
def overlap (s : AdaptivePool) : ℕ := s.calls.countP (Call.pending s.maxSize)

/-- What is counted, and what is about to be, fits. -/
structure Bounded (max : ℕ) (s : AdaptivePool) : Prop extends Conserved max s where
  fits : s.opened + s.calls.countP Call.counts + s.overlap ≤ max

/-- The events after `Start` and before `Close` of the pool. -/
def Event.Serving (ev : Event) : Prop := ev ≠ .warmup ∧ ev ≠ .shutdown

/-- A call is started. -/
theorem Bounded.start (h : s.Bounded max) (ht : ev.call = some t) (hev : ev.Serving) :
    (s.spawn t).Bounded max := by
  refine ⟨h.toConserved.start ht hev.2, ?_⟩
  have hcounts := (Event.call_fresh ht).1
  have hpend : t.pending s.maxSize = false := by
    cases ev with
    | warmup => exact absurd rfl hev.1
    | resume k e => cases ht
    | _ => cases ht; rfl
  have hfits := h.fits
  simp only [spawn, opened, unreleased, overlap, countP_append_singleton, hcounts, hpend,
    Bool.toNat_false, Nat.add_zero] at hfits ⊢
  exact hfits

/-- A step that leaves at most one dial pending. -/
theorem Bounded.effect {s s' : AdaptivePool} {k new : ℕ} {t t' : Call} (h : s.Bounded max)
    (hk : s.calls[k]? = some t) (he : Effect s s' k t t' new)
    (hmax : s'.overlap = 0 ∨ max < 2147483648) (hone : s.overlap ≤ 1) (hone' : s'.overlap ≤ 1) :
    s'.Bounded max := by
  refine ⟨h.toConserved.effect hk he, ?_⟩
  obtain ⟨x, hx, hx'⟩ := he.others hk Call.counts
  obtain ⟨y, hy, hy'⟩ := he.others hk (Call.pending s.maxSize)
  have hcounts : Call.dial.counts = false := rfl
  have hpend : Call.dial.pending s.maxSize = true := rfl
  have hfits := h.fits
  rw [hcounts, Bool.toNat_false, Nat.mul_zero, Nat.add_zero] at hx'
  rw [hpend, Bool.toNat_true, Nat.mul_one] at hy'
  rw [overlap] at hone hfits
  rw [overlap, he.maxSize] at hone' hmax ⊢
  rcases he.growth with hle | ⟨hsame, rfl, hlooks, hlt⟩ | ⟨hsame, ⟨current, rfl, hroom⟩, hno⟩
  · -- what is counted now was pending before, if anything
    omega
  · -- the look at `currentSize` saw what is counted
    have hnot := Call.pending_of_looks hlooks s.maxSize
    cases hp : t'.pending s.maxSize with
    | false =>
      rw [hp] at hy'
      rw [hnot] at hy
      omega
    | true =>
      rw [hp, Bool.toNat_true] at hy'
      rw [hnot, Bool.toNat_false] at hy
      have hsmall : max < 2147483648 := by omega
      rw [h.size, Int32.toInt_ofNat_of_lt (by omega), h.maxSize] at hlt
      omega
  · -- `adjustSize` was the one that is pending, and its dials take its place
    have hyes : (Call.adjusting current).pending s.maxSize = true := decide_eq_true hroom
    rw [hyes, Bool.toNat_true] at hy
    rw [hno, Bool.toNat_false] at hy'
    omega

/-- **One step** with few dials. -/
theorem Bounded.step {max n : ℕ} (h : s.Bounded max) (hn : n = 0 ∨ n = 1 ∧ max < 2147483648)
    (hev : ev.Serving) (hover : s.overlap ≤ n) (hover' : (AdaptivePool.step s ev).overlap ≤ n) :
    (AdaptivePool.step s ev).Bounded max := by
  revert hover'
  apply step_rule (P := fun s' => s'.overlap ≤ n → s'.Bounded max)
  · intro _
    exact h
  · intro t ht _
    exact h.start ht hev
  · intro k e t hk hover'
    obtain ⟨t', new, he⟩ := h.resume_effect hk e
    exact h.effect hk he (by omega) (by omega) (by omega)

/-- **Every run** with few dials. -/
theorem Bounded.always {max n : ℕ} (h : s.Bounded max) (hn : n = 0 ∨ n = 1 ∧ max < 2147483648)
    (hes : ∀ ev ∈ es, ev.Serving) (hover : Always AdaptivePool.step (fun s => s.overlap ≤ n) s es) :
    Always AdaptivePool.step (fun s => s.opened ≤ s.maxSize) s es := by
  have hnow : s.opened ≤ s.maxSize := by
    have hfits := h.fits
    rw [h.maxSize]
    omega
  induction es generalizing s with
  | nil => exact hnow
  | cons ev es ih =>
    have hnext := h.step hn (hes ev List.mem_cons_self) hover.1 hover.2.head
    refine ⟨hnow, ih hnext (fun ev' hev' => hes ev' (List.mem_cons_of_mem ev hev')) hover.2 ?_⟩
    have hfits := hnext.fits
    rw [hnext.maxSize]
    omega

/-! ## Room for the dials -/

/-- Whether a call is a dial that is not counted yet. -/
def Call.dials : Call → Bool
  | .getDial | .getDialed _ | .dial | .dialed _ => true
  | _ => false

theorem Call.dials_le_pending (t : Call) (maxSize : ℕ) :
    t.dials.toNat ≤ (t.pending maxSize).toNat := by
  cases t <;> first | exact Nat.le_refl _ | exact Nat.zero_le _

/-- What is open, what is counted and held by a call, and what is being dialed. -/
def committed (s : AdaptivePool) : ℕ :=
  s.opened + s.calls.countP Call.counts + s.calls.countP Call.dials

/-- How many dials a call starts when it goes on. -/
def starts (s : AdaptivePool) (e : Env) : Call → ℕ
  | .test => if s.currentSize.toInt < s.maxSize then 1 else 0
  | .adjusting current => if current = 0 then 0 else s.toAdd current e.ok
  | _ => 0

/-- A `Get` or `adjustSize` that starts dials leaves room for those under way. -/
def Fits (s : AdaptivePool) : Event → Prop
  | .resume k e =>
    ∀ t ∈ s.calls[k]?, 0 < s.starts e t → s.committed + s.starts e t ≤ s.maxSize
  | _ => True

theorem Effect.committed_le {s s' : AdaptivePool} {k new n : ℕ} {t t' : Call}
    (he : Effect s s' k t t' new) (hk : s.calls[k]? = some t)
    (h : s'.opened + t'.counts.toNat + t'.dials.toNat + new ≤
      s.opened + t.counts.toNat + t.dials.toNat + n) : s'.committed ≤ s.committed + n := by
  obtain ⟨x, hx, hx'⟩ := he.others hk Call.counts
  obtain ⟨y, hy, hy'⟩ := he.others hk Call.dials
  have hcounts : Call.dial.counts = false := rfl
  have hdials : Call.dial.dials = true := rfl
  rw [hcounts, Bool.toNat_false, Nat.mul_zero, Nat.add_zero] at hx'
  rw [hdials, Bool.toNat_true, Nat.mul_one] at hy'
  rw [committed, committed, hx, hx', hy, hy']
  omega

/-- What is counted now was a dial before, if anything. -/
theorem Effect.committed_le_of_pending {s s' : AdaptivePool} {k new : ℕ} {t t' : Call}
    (he : Effect s s' k t t' new) (hk : s.calls[k]? = some t)
    (hsame : t.pending s.maxSize = t.dials)
    (h : s'.opened + t'.counts.toNat + (t'.pending s.maxSize).toNat + new ≤
      s.opened + t.counts.toNat + (t.pending s.maxSize).toNat) : s'.committed ≤ s.committed := by
  have hdials := t'.dials_le_pending s.maxSize
  rw [hsame] at h
  exact he.committed_le (n := 0) hk (by omega)

/-- A call that goes on commits the pool to no more than the dials that it starts. -/
theorem Conserved.committed_resume (h : s.Conserved max) (hk : s.calls[k]? = some t) (e : Env) :
    (s.resume k e t).committed ≤ s.committed + s.starts e t := by
  cases t with
  | test =>
    by_cases hlt : s.currentSize.toInt < s.maxSize
    · have he : Effect s (s.become k .getDial) k .test .getDial 0 :=
        become_effect rfl rfl rfl (fun _ => ⟨rfl, hlt⟩)
      simp only [resume, starts, if_pos hlt]
      exact he.committed_le hk (Nat.le_refl _)
    · have he : Effect s (s.become k .wait) k .test .wait 0 := pass_effect rfl rfl rfl rfl
      simp only [resume, starts, if_neg hlt]
      exact he.committed_le hk (Nat.le_refl _)
  | adjust =>
    have he : Effect s (s.become k (.adjusting s.currentSize.toInt)) k .adjust
        (.adjusting s.currentSize.toInt) 0 :=
      become_effect rfl rfl rfl (fun h => ⟨rfl, of_decide_eq_true h⟩)
    exact he.committed_le hk (Nat.le_refl _)
  | adjusting current =>
    simp only [resume, adjustSize, starts]
    by_cases hzero : current = 0
    · have he : Effect s (s.become k .loop) k (.adjusting current) .loop 0 :=
        pass_effect rfl rfl rfl rfl
      rw [if_pos hzero, if_pos hzero]
      exact he.committed_le hk (Nat.le_refl _)
    · rw [if_neg hzero, if_neg hzero]
      exact (adjust_effect current e).committed_le hk (Nat.le_refl _)
  | _ =>
    obtain ⟨t', new, he⟩ := h.resume_effect hk e
    rcases he.growth with hle | ⟨-, -, hlooks, -⟩ | ⟨-, ⟨current, ht, -⟩, -⟩
    · exact he.committed_le_of_pending hk rfl hle
    · cases hlooks
    · cases ht

/-- What the pool is committed to is within the maximum. -/
structure Within (max : ℕ) (s : AdaptivePool) : Prop extends Conserved max s where
  within : s.committed ≤ max

/-- **One step** that leaves room. -/
theorem Within.step (h : s.Within max) (hev : ev.Serving) (hfits : s.Fits ev) :
    (AdaptivePool.step s ev).Within max := by
  refine ⟨h.toConserved.step hev.2, ?_⟩
  rcases step_cases s ev with ⟨t, ht, hstep⟩ | ⟨k, e, t, rfl, hk, hstep⟩ | hstep
  · have hcounts := (Event.call_fresh ht).1
    have hdials : t.dials = false := by
      cases ev with
      | warmup => exact absurd rfl hev.1
      | resume k e => cases ht
      | _ => cases ht; rfl
    have hwithin := h.within
    rw [hstep]
    simp only [committed, spawn, opened, unreleased, countP_append_singleton, hcounts, hdials,
      Bool.toNat_false, Nat.add_zero] at hwithin ⊢
    exact hwithin
  · have hle := h.toConserved.committed_resume hk e
    have hroom := hfits t hk
    have hwithin := h.within
    rw [h.maxSize] at hroom
    rw [hstep]
    omega
  · exact hstep.symm ▸ h.within

/-- **Every run** whose steps do. -/
theorem Within.always (h : s.Within max) (hes : ∀ ev ∈ es, ev.Serving)
    (hfits : EachStep AdaptivePool.step Fits s es) :
    Always AdaptivePool.step (fun s => s.opened ≤ s.maxSize) s es := by
  have hnow : s.opened ≤ s.maxSize := by
    have hwithin := h.within
    rw [committed] at hwithin
    rw [h.maxSize]
    omega
  induction es generalizing s with
  | nil => exact hnow
  | cons ev es ih =>
    have hnext := h.step (hes ev List.mem_cons_self) hfits.1
    refine ⟨hnow, ih hnext (fun ev' hev' => hes ev' (List.mem_cons_of_mem ev hev')) hfits.2 ?_⟩
    have hwithin := hnext.within
    rw [committed] at hwithin
    rw [hnext.maxSize]
    omega

/-! ## The pool as it is started -/

/-- The pool as `Start` leaves it: the dials of the warm-up are over, and nothing has been handed
out. -/
def Started (cfg : PoolConfig) (s : AdaptivePool) : Prop :=
  ∃ es, Event.shutdown ∉ es ∧ s = run step (newAdaptivePool cfg) es ∧ s.pooled = [] ∧ s.Quiet

/-- A started pool has room. -/
theorem Started.bounded {cfg : PoolConfig} (h : Started cfg s) :
    s.Bounded (newAdaptivePool cfg).maxSize := by
  obtain ⟨es, hes, rfl, hpooled, hquiet⟩ := h
  have hconserved := (conserved_new cfg).run hes
  refine ⟨hconserved, ?_⟩
  have hcounts := hquiet.countP_eq_zero (fun t ht => (t.of_quiet ht 0).1)
  have hover := hquiet.countP_eq_zero
    (fun t ht => (t.of_quiet ht (run step (newAdaptivePool cfg) es).maxSize).2.2)
  have hroom := hconserved.room
  rw [hcounts, overlap, hover, opened, unreleased, hpooled]
  exact hroom

theorem Started.within {cfg : PoolConfig} (h : Started cfg s) :
    s.Within (newAdaptivePool cfg).maxSize := by
  refine ⟨h.bounded.toConserved, ?_⟩
  obtain ⟨es, hes, rfl, hpooled, hquiet⟩ := h
  have hroom := ((conserved_new cfg).run hes).room
  have hdials : ∀ t : Call, t.quiet = true → t.dials = false := by
    intro t ht
    cases t <;> cases ht <;> rfl
  rw [committed, hquiet.countP_eq_zero (fun t ht => (t.of_quiet ht 0).1),
    hquiet.countP_eq_zero hdials, opened, unreleased, hpooled]
  exact hroom

/-! ## Overlapping dials -/

/-- A pool with an empty channel that counts `n` connections and has handed out `m` of them, while
`p` dials are pending. -/
structure Busy (max n m p : ℕ) (s : AdaptivePool) : Prop where
  maxSize : s.maxSize = max
  conns : s.conns = []
  chanClosed : s.chanClosed = false
  panicked : s.panicked = false
  size : s.currentSize = Int32.ofNat n
  unreleased : s.unreleased = m
  overlap : s.overlap = p

/-- A call goes on, and its dial succeeds. -/
def go (k : ℕ) : Event := .resume k ⟨true, false⟩

theorem step_go (hp : s.panicked = false) (hk : s.calls[k]? = some t) :
    step s (go k) = s.resume k ⟨true, false⟩ t :=
  step_resume hp hk _

theorem go_serving (k : ℕ) : (go k).Serving := by
  constructor <;> intro h <;> cases h

/-- There is a run that leads from `s` to `s'`, without a warm-up or `Close` of the pool, on which
never more than `b` dials overlap. -/
def Leads (b : ℕ) (s s' : AdaptivePool) : Prop :=
  ∃ es : List Event, (∀ ev ∈ es, ev.Serving) ∧ Always step (fun s => s.overlap ≤ b) s es ∧
    run step s es = s'

theorem Leads.refl (h : s.overlap ≤ b) : Leads b s s :=
  ⟨[], fun _ hev => absurd hev List.not_mem_nil, h, rfl⟩

theorem Leads.trans {s₁ s₂ s₃ : AdaptivePool} (h : Leads b s₁ s₂) (h' : Leads b s₂ s₃) :
    Leads b s₁ s₃ := by
  obtain ⟨es, hes, hover, rfl⟩ := h
  obtain ⟨es', hes', hover', rfl⟩ := h'
  refine ⟨es ++ es', ?_, hover.append hover', run_append s₁ es es'⟩
  intro ev hev
  exact (List.mem_append.1 hev).elim (hes ev) (hes' ev)

theorem Leads.mono {b b' : ℕ} (hle : b ≤ b') {s s' : AdaptivePool} (h : Leads b s s') :
    Leads b' s s' := by
  obtain ⟨es, hes, hover, hrun⟩ := h
  exact ⟨es, hes, hover.mono (fun _ h => Nat.le_trans h hle), hrun⟩

section Overshoot

variable {max n m p : ℕ} {s : AdaptivePool}

theorem step_go_spawn (hp : s.panicked = false) (t : Call) :
    step (s.spawn t) (go s.calls.length) = (s.spawn t).resume s.calls.length ⟨true, false⟩ t :=
  step_go (s := s.spawn t) hp List.getElem?_concat_length

theorem become_spawn (s : AdaptivePool) (t t' : Call) :
    (s.spawn t).become s.calls.length t' = s.spawn t' := by
  have hset : (s.calls ++ [t]).set s.calls.length t' = s.calls ++ [t'] := by
    rw [List.set_append_right _ _ (Nat.le_refl _), Nat.sub_self, List.set_cons_zero]
  rw [become, spawn, hset, spawn]

/-- A `Get` comes to its dial if it sees room. -/
theorem Busy.ask (h : s.Busy max n m p) (hlt : (Int32.ofNat n).toInt < max) :
    Leads (p + 1) s (s.spawn .getDial) ∧ (s.spawn .getDial).Busy max n m (p + 1) := by
  have hget : step s .get = s.spawn .get := step_call h.panicked rfl
  have htest : step (s.spawn .get) (go s.calls.length) = s.spawn .test := by
    have hconns : (s.spawn .get).conns = [] := h.conns
    have hopen : (s.spawn .get).chanClosed = false := h.chanClosed
    rw [step_go_spawn h.panicked, resume, receive_empty hconns, hopen]
    exact become_spawn s .get .test
  have hdial : step (s.spawn .test) (go s.calls.length) = s.spawn .getDial := by
    rw [step_go_spawn h.panicked, resume, if_pos]
    · exact become_spawn s .test .getDial
    · show s.currentSize.toInt < s.maxSize
      rw [h.size, h.maxSize]
      exact hlt
  have hover : ∀ t : Call, (s.spawn t).overlap = p + (t.pending s.maxSize).toNat := by
    intro t
    rw [← h.overlap]
    exact countP_append_singleton _ _ _
  refine ⟨⟨[.get, go s.calls.length, go s.calls.length], ?_, ?_, ?_⟩, ?_⟩
  · intro ev hev
    rcases List.mem_cons.1 hev with rfl | hgo
    · constructor <;> intro h <;> cases h
    · rw [List.eq_of_mem_replicate (n := 2) hgo]
      exact go_serving _
  · simp only [Always, hget, htest, hdial, hover, h.overlap, Call.pending, Bool.toNat_false,
      Bool.toNat_true]
    omega
  · simp only [run_cons, run_nil, hget, htest, hdial]
  · exact ⟨h.maxSize, h.conns, h.chanClosed, h.panicked, h.size, h.unreleased, hover .getDial⟩

/-- What is pending after a call that dialed went on. -/
theorem Busy.overlap_set (h : s.Busy max n m p) (hj : s.calls[j]? = some t) (t' : Call) :
    (s.calls.set j t').countP (Call.pending s.maxSize) + (t.pending s.maxSize).toNat =
      p + (t'.pending s.maxSize).toNat := by
  rw [countP_set_add (Call.pending s.maxSize) hj t']
  exact congrArg (· + _) h.overlap

/-- The dial succeeds. -/
theorem Busy.dial (h : s.Busy max n m p) (hj : s.calls[j]? = some .getDial) :
    (step s (go j)).Busy max n m p ∧
      (step s (go j)).calls = s.calls.set j (.getDialed s.dialed) := by
  have hover : (s.calls.set j (.getDialed s.dialed)).countP (Call.pending s.maxSize) = p :=
    Nat.add_right_cancel (h.overlap_set hj (.getDialed s.dialed))
  rw [step_go h.panicked hj]
  exact ⟨⟨h.maxSize, h.conns, h.chanClosed, h.panicked, h.size, h.unreleased, hover⟩, rfl⟩

/-- It is counted. -/
theorem Busy.count (h : s.Busy max n m p) {j c : ℕ} (hj : s.calls[j]? = some (.getDialed c)) :
    (step s (go j)).Busy max (n + 1) m (p - 1) ∧
      (step s (go j)).calls = s.calls.set j (.taken (some c)) := by
  have hover : (s.calls.set j (.taken (some c))).countP (Call.pending s.maxSize) = p - 1 :=
    Nat.eq_sub_of_add_eq (h.overlap_set hj (.taken (some c)))
  have hsize : s.currentSize + 1 = Int32.ofNat (n + 1) := by
    rw [h.size]
    exact (Int32.ofNat_add n 1).symm
  rw [step_go h.panicked hj]
  exact ⟨⟨h.maxSize, h.conns, h.chanClosed, h.panicked, hsize, h.unreleased, hover⟩, rfl⟩

/-- It is handed out. -/
theorem Busy.handOut (h : s.Busy max n m p) {conn : Conn} (hj : s.calls[j]? = some (.taken conn)) :
    (step s (go j)).Busy max n (m + 1) p ∧ (step s (go j)).calls = s.calls.set j .returned := by
  have hover : (s.calls.set j .returned).countP (Call.pending s.maxSize) = p :=
    h.overlap_set hj .returned
  have hmore : (s.handOut j conn).unreleased = m + 1 := by
    rw [← h.unreleased]
    exact countP_append_singleton _ _ _
  rw [step_go h.panicked hj]
  exact ⟨⟨h.maxSize, h.conns, h.chanClosed, h.panicked, h.size, hmore, hover⟩, rfl⟩

/-- The dial of a `Get` succeeds, and the connection is counted and handed out. -/
theorem Busy.serve (h : s.Busy max n m p) (hj : s.calls[j]? = some .getDial) :
    ∃ s', Leads p s s' ∧ s'.Busy max (n + 1) (m + 1) (p - 1) ∧
      s'.calls = s.calls.set j .returned := by
  have hlt : j < s.calls.length := (List.getElem?_eq_some_iff.1 hj).1
  obtain ⟨h₁, hcalls₁⟩ := h.dial hj
  have hj₁ : (step s (go j)).calls[j]? = some (.getDialed s.dialed) := by
    rw [hcalls₁, List.getElem?_set_self hlt]
  obtain ⟨h₂, hcalls₂⟩ := h₁.count hj₁
  rw [hcalls₁, List.set_set] at hcalls₂
  have hj₂ : (step (step s (go j)) (go j)).calls[j]? = some (.taken (some s.dialed)) := by
    rw [hcalls₂, List.getElem?_set_self hlt]
  obtain ⟨h₃, hcalls₃⟩ := h₂.handOut hj₂
  rw [hcalls₂, List.set_set] at hcalls₃
  have hless : p - 1 ≤ p := Nat.sub_le p 1
  refine ⟨_, ⟨[go j, go j, go j], ?_, ⟨Nat.le_of_eq h.overlap, Nat.le_of_eq h₁.overlap, ?_, ?_⟩,
    rfl⟩, h₃, hcalls₃⟩
  · intro ev hev
    rw [List.eq_of_mem_replicate (n := 3) hev]
    exact go_serving j
  · exact Nat.le_trans (Nat.le_of_eq h₂.overlap) hless
  · exact Nat.le_trans (Nat.le_of_eq h₃.overlap) hless

/-- A `Get` on its own. -/
theorem Busy.get (h : s.Busy max n m 0) (hlt : (Int32.ofNat n).toInt < max) :
    ∃ s', Leads 1 s s' ∧ s'.Busy max (n + 1) (m + 1) 0 := by
  obtain ⟨hask, hasked⟩ := h.ask hlt
  obtain ⟨s', hserve, hserved, -⟩ := hasked.serve List.getElem?_concat_length
  exact ⟨s', hask.trans hserve, hserved⟩

/-- Two `Get`s that both look at `currentSize` before the other one counts. -/
theorem Busy.get_get (h : s.Busy max n m 0) (hlt : (Int32.ofNat n).toInt < max) :
    ∃ s', Leads 2 s s' ∧ s'.Busy max (n + 2) (m + 2) 0 := by
  obtain ⟨hask, hasked⟩ := h.ask hlt
  -- the first has not counted, so the second sees the same size
  obtain ⟨hask', hasked'⟩ := hasked.ask hlt
  obtain ⟨s₁, hserve, hserved, hcalls⟩ := hasked'.serve (j := s.calls.length + 1)
    (by simp [spawn])
  have hfirst : s₁.calls[s.calls.length]? = some .getDial := by
    simp [hcalls, spawn]
  obtain ⟨s₂, hserve', hserved', -⟩ := hserved.serve hfirst
  have hlead : Leads 2 s (s.spawn .getDial) := hask.mono (by decide)
  have hlead' : Leads 2 s₁ s₂ := hserve'.mono (by decide)
  exact ⟨s₂, ((hlead.trans hask').trans hserve).trans hlead', hserved'⟩

/-- One `Get` after the other, as long as each sees room. -/
theorem Busy.gets (h : s.Busy max 0 0 0) (hlt : ∀ i < n, (Int32.ofNat i).toInt < max) :
    ∃ s', Leads 1 s s' ∧ s'.Busy max n n 0 := by
  induction n with
  | zero => exact ⟨s, .refl (Nat.le_trans (Nat.le_of_eq h.overlap) (Nat.zero_le 1)), h⟩
  | succ n ih =>
    obtain ⟨s₁, hlead, hbusy⟩ := ih (fun i hi => hlt i (Nat.lt_succ_of_lt hi))
    obtain ⟨s₂, hlead', hbusy'⟩ := hbusy.get (hlt n (Nat.lt_succ_self n))
    exact ⟨s₂, hlead.trans hlead', hbusy'⟩

end Overshoot

/-- A new pool. -/
theorem busy_new (cfg : PoolConfig) :
    (newAdaptivePool cfg).Busy (newAdaptivePool cfg).maxSize 0 0 0 :=
  ⟨rfl, rfl, rfl, rfl, rfl, rfl, rfl⟩

theorem one_le_maxSize (cfg : PoolConfig) : 1 ≤ (newAdaptivePool cfg).maxSize := by
  unfold newAdaptivePool
  simp only
  split_ifs <;> omega

/-- A pool goes over its maximum if two dials may overlap, or if `currentSize` can overflow. -/
theorem exists_overshoot (cfg : PoolConfig)
    (hb : 2 ≤ b ∨ 1 ≤ b ∧ 2147483648 ≤ (newAdaptivePool cfg).maxSize) :
    ∃ s', Leads b (newAdaptivePool cfg) s' ∧ s'.maxSize < s'.opened := by
  have hpos := one_le_maxSize cfg
  have hover : ∀ {s' : AdaptivePool},
      s'.Busy (newAdaptivePool cfg).maxSize ((newAdaptivePool cfg).maxSize + 1)
        ((newAdaptivePool cfg).maxSize + 1) 0 → s'.maxSize < s'.opened := by
    intro s' h
    rw [opened, h.conns, h.unreleased, h.maxSize, List.length_nil]
    omega
  rcases Nat.lt_or_ge (newAdaptivePool cfg).maxSize (2147483648) with hsmall | hbig
  · -- room for one more, and two that see it
    have hlt : ∀ i < (newAdaptivePool cfg).maxSize,
        (Int32.ofNat i).toInt < (newAdaptivePool cfg).maxSize := by
      intro i hi
      rw [Int32.toInt_ofNat_of_lt (by omega)]
      omega
    obtain ⟨s₁, hlead, hbusy⟩ := (busy_new cfg).gets
      (n := (newAdaptivePool cfg).maxSize - 1) (fun i hi => hlt i (by omega))
    obtain ⟨s₂, hlead', hbusy'⟩ := hbusy.get_get (hlt _ (by omega))
    rw [show (newAdaptivePool cfg).maxSize - 1 + 2 = (newAdaptivePool cfg).maxSize + 1 by omega]
      at hbusy'
    exact ⟨s₂, ((hlead.mono (by decide)).trans hlead').mono (by omega), hover hbusy'⟩
  · -- no `int32` reaches the maximum
    have hlt : ∀ i < (newAdaptivePool cfg).maxSize + 1,
        (Int32.ofNat i).toInt < (newAdaptivePool cfg).maxSize := by
      intro i _
      have hle := (Int32.ofNat i).toInt_lt
      omega
    obtain ⟨s', hlead, hbusy⟩ := (busy_new cfg).gets hlt
    exact ⟨s', hlead.mono (by omega), hover hbusy⟩

/-- **Capacity.**  The connections that are idle or handed out are never more than the maximum, on
every run from a started pool on which whatever starts dials leaves room for those under way.  If
all that is known is that at most `b` dials overlap, then they are never more if and only if `b` is
0, or `b` is 1 and the maximum is an `int32`. -/
theorem capacity_iff (cfg : PoolConfig) :
    (∀ s es, Started cfg s → (∀ ev ∈ es, Event.Serving ev) → EachStep step Fits s es →
        Always step (fun s => s.opened ≤ s.maxSize) s es) ∧
      ∀ b : ℕ,
        (∀ s es, Started cfg s → (∀ ev ∈ es, Event.Serving ev) →
            Always step (fun s => s.overlap ≤ b) s es →
            Always step (fun s => s.opened ≤ s.maxSize) s es) ↔
          b = 0 ∨ b = 1 ∧ (newAdaptivePool cfg).maxSize < 2147483648 := by
  refine ⟨fun s es hstarted hes hfits => hstarted.within.always hes hfits, fun b => ?_⟩
  constructor
  · intro h
    by_contra hnot
    -- no dial of the warm-up has succeeded
    obtain ⟨s', ⟨es, hes, hover, rfl⟩, hlt⟩ := exists_overshoot cfg (b := b) (by omega)
    have hstarted : Started cfg (newAdaptivePool cfg) :=
      ⟨[], List.not_mem_nil, rfl, rfl, fun _ ht => absurd ht List.not_mem_nil⟩
    exact absurd (h _ es hstarted hes hover).last (Nat.not_le.2 hlt)
  · intro hb s es hstarted hes hover
    exact hstarted.bounded.always hb hes hover

/-- Two calls of `Get` on a pool of at most one connection, which both find the channel empty and
the size 0. -/
theorem get_get_overshoot :
    let s := run step (newAdaptivePool ⟨1, 1⟩)
      [.get, .get, go 0, go 0, go 1, go 1, go 0, go 1, go 0, go 1, go 0, go 1]
    s.maxSize = 1 ∧ s.opened = 2 ∧ s.Quiet := by
  decide +kernel

end AdaptivePool
