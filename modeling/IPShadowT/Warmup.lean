/-
# The warm-up pool

Model of `WarmupPool` in `internal/stability/buffer_tuning.go`: a channel of sessions that
`fill`, `fillOne` and the ticks of `maintainLoop` fill, that `Get` takes from, and that `Stop`
closes.  A step is a channel operation, a look at the length of the channel or the end of a call
of the factory, so that any number of calls can be interleaved.  Whether the factory succeeds,
and whether a tick comes before `done` is seen, are inputs.

A session is the number of the call of the factory that made it.  `returned` records what `Get`
has returned and `dropped` what a call let go of because the channel was full; the pool closes no
session.  A send on the closed channel panics, also in a `select` with a `default`, and ends the
program.

`always_orderly` says what may be under way when `Stop` closes the channel, and what may come
after it, such that the pool neither panics nor loses a session.
-/
import IPShadowT.Runs

open Runs

namespace Warmup

/-! ## The pool -/

/-- Where a call is. -/
inductive Call where
  /-- `fill`, at the condition of its loop; `loop` if `maintainLoop` made the call -/
  | fill (loop : Bool)
  /-- `fill`, in the factory -/
  | fillDial (loop : Bool)
  /-- `fill`, at its `select` -/
  | fillSend (session : ℕ) (loop : Bool)
  /-- `fillOne`, at its first condition -/
  | fillOne
  /-- `fillOne`, in the factory -/
  | fillOneDial
  /-- `fillOne`, at its `select` -/
  | fillOneSend (session : ℕ)
  /-- `Get`, at its `select` -/
  | get
  /-- `Get`, in the factory -/
  | getDial
  /-- `maintainLoop`, at its `select` -/
  | maintain
  /-- any call, returned -/
  | returned
  deriving DecidableEq, Repr

/-- The session that a call is about to send. -/
def Call.session : Call → Option ℕ
  | .fillSend session _ => some session
  | .fillOneSend session => some session
  | _ => none

/-- Whether a call holds the session `c`. -/
def Call.holds (c : ℕ) (t : Call) : Bool := t.session = some c

/-- A call of the factory whose session will be sent. -/
def Call.fills : Call → Bool
  | .fillDial _ | .fillOneDial => true
  | _ => false

/-- How far `Stop` has come: `done` is closed first and the channel after it. -/
inductive Stop where
  | notCalled
  | doneClosed
  | returned
  deriving DecidableEq, Repr

/-- What follows a call of `fill`. -/
def afterFill (loop : Bool) : Call := if loop then .maintain else .returned

end Warmup

/-- `WarmupPool` between two steps, with the calls that have been made. -/
structure WarmupPool where
  minReady : Int
  maxReady : ℕ
  /-- the buffer of the channel, of capacity `maxReady` -/
  pool : List ℕ
  stop : Warmup.Stop
  calls : List Warmup.Call
  panicked : Bool
  /-- how many sessions the factory has made -/
  produced : ℕ
  returned : List ℕ
  dropped : List ℕ
  deriving DecidableEq, Repr

namespace WarmupPool

open Warmup

/-- `NewWarmupPool`, which panics for a negative `MaxReady` when it makes the channel. -/
def newWarmupPool (minReady : Int) (maxReady : ℕ) : WarmupPool where
  minReady := if minReady = 0 then 2 else minReady
  maxReady := if maxReady = 0 then 4 else maxReady
  pool := []
  stop := .notCalled
  calls := []
  panicked := false
  produced := 0
  returned := []
  dropped := []

/-! ## Steps -/

/-- Call `k` goes on to `t`. -/
def become (s : WarmupPool) (k : ℕ) (t : Call) : WarmupPool :=
  { s with calls := s.calls.set k t }

/-- The factory has made a session for call `k`. -/
def produce (s : WarmupPool) (k : ℕ) (t : Call) : WarmupPool :=
  { s with produced := s.produced + 1, calls := s.calls.set k t }

/-- The `select` with a send to the channel and a `default`. -/
def send (s : WarmupPool) (k session : ℕ) (sent full : Call) : WarmupPool :=
  -- the closed channel counts as ready, so the `default` does not help
  if s.stop = .returned then { s with panicked := true }
  else if s.pool.length < s.maxReady then
    { s with pool := s.pool ++ [session], calls := s.calls.set k sent }
  else { s with dropped := session :: s.dropped, calls := s.calls.set k full }

/-- The `select` of `Get`.  A closed channel that is empty gives a nil session at once. -/
def take (s : WarmupPool) (k : ℕ) : WarmupPool :=
  match s.pool with
  | session :: rest =>
    { s with
      pool := rest
      returned := session :: s.returned
      calls := s.calls.set k .returned ++ [.fillOne] }
  | [] =>
    if s.stop = .returned then { s with calls := s.calls.set k .returned ++ [.fillOne] }
    else s.become k .getDial

/-- Call `k`, which is at `t`, goes on.  In the factory `ok` says whether it succeeds, and at the
`select` of `maintainLoop` whether it takes a tick. -/
def go (s : WarmupPool) (k : ℕ) (ok : Bool) : Call → WarmupPool
  | .fill loop =>
    if s.pool.length < s.minReady then s.become k (.fillDial loop)
    else s.become k (afterFill loop)
  | .fillDial loop =>
    -- after an error `fill` sleeps and tries again, whatever `Stop` has done
    if ok then s.produce k (.fillSend s.produced loop) else s.become k (.fill loop)
  | .fillSend session loop => s.send k session (.fill loop) (afterFill loop)
  | .fillOne =>
    if s.pool.length ≥ s.maxReady then s.become k .returned else s.become k .fillOneDial
  | .fillOneDial =>
    if ok then s.produce k (.fillOneSend s.produced) else s.become k .returned
  | .fillOneSend session => s.send k session .returned .returned
  | .get => s.take k
  | .getDial =>
    if ok then { s.produce k .returned with returned := s.produced :: s.returned }
    else s.become k .returned
  | .maintain =>
    -- a tick can be taken after `done` is closed: the `select` has both cases ready
    if ok then if s.pool.length < s.minReady then s.become k (.fill true) else s
    else if s.stop ≠ .notCalled then s.become k .returned
    else s
  | .returned => s

/-- A call of `Start` or `Get`, a step of the only call of `Stop`, or a step of call `k`. -/
inductive Event where
  | start
  | get
  | stop
  | go (k : ℕ) (ok : Bool)
  deriving DecidableEq, Repr

/-- Nothing happens after a panic. -/
def step (s : WarmupPool) (e : Event) : WarmupPool :=
  if s.panicked then s
  else
    match e with
    | .start => { s with calls := s.calls ++ [.fill false, .maintain] }
    | .get => { s with calls := s.calls ++ [.get] }
    | .stop =>
      match s.stop with
      | .notCalled => { s with stop := .doneClosed }
      | .doneClosed | .returned => { s with stop := .returned }
    | .go k ok =>
      match s.calls[k]? with
      | none => s
      | some t => s.go k ok t

/-! ## What the pool promises -/

/-- `Stop` has returned, and so have all other calls. -/
def Quiet (s : WarmupPool) : Prop := s.stop = .returned ∧ ∀ t ∈ s.calls, t = .returned

instance (s : WarmupPool) : Decidable s.Quiet := inferInstanceAs (Decidable (_ ∧ _))

/-- Nothing has been sent on the closed channel, and when all is over, `Get` has returned every
session that the factory made. -/
def Orderly (s : WarmupPool) : Prop :=
  s.panicked = false ∧ (s.Quiet → ∀ c < s.produced, c ∈ s.returned)

instance (s : WarmupPool) : Decidable s.Orderly := inferInstanceAs (Decidable (_ ∧ _))

/-- The calls other than the `k`-th have returned. -/
def Alone (s : WarmupPool) (k : ℕ) : Prop := ∀ t ∈ s.calls.eraseIdx k, t = .returned

/-- A step of a call that is at `t`: no session is made for a channel that is closed, a send finds
room, and the last call finds the closed channel empty, unless it is a `Get` that empties it. -/
structure CallSettled (s : WarmupPool) (k : ℕ) (ok : Bool) (t : Call) : Prop where
  fails : t.fills = true → s.stop = .returned → ok = false
  room : t.session ≠ none → s.pool.length < s.maxReady
  empty : t ≠ .get → s.stop = .returned → s.Alone k → s.pool = []

/-- When `Stop` closes the channel, no call holds a session, and if all have returned the channel
is empty. -/
def Settled (s : WarmupPool) : Event → Prop
  | .stop => s.stop = .doneClosed →
      (∀ t ∈ s.calls, t.session = none) ∧ ((∀ t ∈ s.calls, t = .returned) → s.pool = [])
  | .go k ok => ∀ t ∈ s.calls[k]?, s.CallSettled k ok t
  | .start | .get => True

instance (s : WarmupPool) (k : ℕ) : Decidable (s.Alone k) :=
  inferInstanceAs (Decidable (∀ t ∈ s.calls.eraseIdx k, t = .returned))

instance (s : WarmupPool) (k : ℕ) (ok : Bool) (t : Call) : Decidable (s.CallSettled k ok t) :=
  decidable_of_iff
    ((t.fills = true → s.stop = .returned → ok = false) ∧
      (t.session ≠ none → s.pool.length < s.maxReady) ∧
      (t ≠ .get → s.stop = .returned → s.Alone k → s.pool = []))
    ⟨fun h => ⟨h.1, h.2.1, h.2.2⟩, fun h => ⟨h.fails, h.room, h.empty⟩⟩

instance (s : WarmupPool) : (e : Event) → Decidable (s.Settled e)
  | .stop => inferInstanceAs (Decidable (_ → _))
  | .go k ok => inferInstanceAs (Decidable (∀ t ∈ s.calls[k]?, s.CallSettled k ok t))
  | .start | .get => inferInstanceAs (Decidable True)

/-! ## Every session is in one place -/

/-- In how many places a session is: in the channel, with a caller of `Get`, dropped, or held by a
call that is about to send it. -/
def places (s : WarmupPool) (c : ℕ) : ℕ :=
  s.pool.count c + s.returned.count c + s.dropped.count c + s.calls.countP (Call.holds c)

/-- Every session that the factory has made is in exactly one place. -/
def Accounted (s : WarmupPool) : Prop := OnePlace s.places s.produced

/-- A call that is about to send `session` holds it and no other. -/
theorem toNat_holds {t : Call} {session : ℕ} (h : t.session = some session) (c : ℕ) :
    (t.holds c).toNat = (decide (session = c)).toNat := by
  rw [Call.holds, h]
  simp

/-- A call that is not about to send holds no session. -/
theorem toNat_holds_none {t : Call} (h : t.session = none) (c : ℕ) : (t.holds c).toNat = 0 := by
  rw [Call.holds, h]
  rfl

section Accounted

variable {s : WarmupPool} {k : ℕ} {t t' : Call}

/-- A call that goes on with what it holds moves no session. -/
theorem Accounted.become (h : s.Accounted) (hk : s.calls[k]? = some t)
    (ht : t'.session = t.session) : (s.become k t').Accounted := by
  refine OnePlace.move h fun c => ?_
  have hset := countP_set_add (Call.holds c) hk t'
  have hholds : t'.holds c = t.holds c := by rw [Call.holds, Call.holds, ht]
  rw [hholds] at hset
  simp only [places, WarmupPool.become]
  omega

/-- A call that the factory has made a session for holds it. -/
theorem Accounted.produce (h : s.Accounted) (hk : s.calls[k]? = some t) (ht : t.session = none)
    (ht' : t'.session = some s.produced) : (s.produce k t').Accounted := by
  refine OnePlace.make h fun c => ?_
  have hset := countP_set_add (Call.holds c) hk t'
  rw [toNat_holds_none ht, toNat_holds ht'] at hset
  simp only [places, WarmupPool.produce]
  omega

/-- A send moves the session from the call into the channel, or drops it. -/
theorem Accounted.send (h : s.Accounted) (hk : s.calls[k]? = some t) {session : ℕ}
    (ht : t.session = some session) {sent full : Call} (hsent : sent.session = none)
    (hfull : full.session = none) : (s.send k session sent full).Accounted := by
  unfold WarmupPool.send
  split_ifs
  · exact h
  · refine OnePlace.move h fun c => ?_
    have hset := countP_set_add (Call.holds c) hk sent
    rw [toNat_holds ht, toNat_holds_none hsent] at hset
    simp only [places, List.count_append, count_cons_toNat, List.count_nil]
    omega
  · refine OnePlace.move h fun c => ?_
    have hset := countP_set_add (Call.holds c) hk full
    rw [toNat_holds ht, toNat_holds_none hfull] at hset
    simp only [places, count_cons_toNat]
    omega

/-- `Get` takes a session out of the channel, or starts the factory. -/
theorem Accounted.take (h : s.Accounted) (hk : s.calls[k]? = some .get) : (s.take k).Accounted := by
  have hset : ∀ c, (s.calls.set k .returned ++ [Call.fillOne]).countP (Call.holds c) =
      s.calls.countP (Call.holds c) := by
    intro c
    have hset := countP_set_add (Call.holds c) hk .returned
    rw [List.countP_append]
    exact hset
  unfold WarmupPool.take
  split
  · next session rest hpool =>
      refine OnePlace.move h fun c => ?_
      simp only [places, hset, hpool, count_cons_toNat]
      omega
  · split_ifs
    · refine OnePlace.move h fun c => ?_
      simp only [places, hset]
    · exact h.become hk rfl

/-- A session that the factory makes for `Get` is returned. -/
theorem Accounted.getDial (h : s.Accounted) (hk : s.calls[k]? = some .getDial) :
    { s.produce k .returned with returned := s.produced :: s.returned }.Accounted := by
  refine OnePlace.make h fun c => ?_
  have hset := countP_set_add (Call.holds c) hk .returned
  rw [toNat_holds_none rfl, toNat_holds_none rfl] at hset
  simp only [places, WarmupPool.produce, count_cons_toNat]
  omega

@[simp] theorem session_afterFill (loop : Bool) : (afterFill loop).session = none := by
  cases loop <;> rfl

/-- New calls hold nothing. -/
theorem Accounted.spawn (h : s.Accounted) {new : List Call}
    (hnew : ∀ c, new.countP (Call.holds c) = 0) :
    { s with calls := s.calls ++ new }.Accounted := by
  refine OnePlace.move h fun c => ?_
  simp only [places, List.countP_append, hnew, Nat.add_zero]

/-- When all calls have returned, the channel is empty and none has been dropped, every session has
been returned by `Get`. -/
theorem Accounted.all_returned (h : s.Accounted) (hquiet : s.Quiet) (hpool : s.pool = [])
    (hdropped : s.dropped = []) : ∀ c < s.produced, c ∈ s.returned := by
  intro c hlt
  have hheld : s.calls.countP (Call.holds c) = 0 := by
    rw [List.countP_eq_zero]
    intro t ht
    rw [hquiet.2 t ht]
    exact Bool.false_ne_true
  have hc := h c
  rw [places, hheld, hpool, hdropped, if_pos hlt] at hc
  simp only [List.count_nil, Nat.zero_add, Nat.add_zero] at hc
  exact List.count_pos_iff.1 (by omega)

end Accounted

/-! ## What a step of a call can do -/

section Effect

variable {s s' : WarmupPool} {k : ℕ} {ok : Bool} {t : Call}

/-- What a step of call `k`, which is at `t`, does to the pool and to the other calls. -/
structure Effect (s : WarmupPool) (k : ℕ) (ok : Bool) (t : Call) (s' : WarmupPool) : Prop where
  stop : s'.stop = s.stop
  panicked : s'.panicked = s.panicked ∨ (t.session ≠ none ∧ s.stop = .returned)
  dropped : s'.dropped = s.dropped ∨ (t.session ≠ none ∧ s.maxReady ≤ s.pool.length)
  calls : ∀ t' ∈ s'.calls, t' ∈ s.calls ∨ t'.session = none ∨ (t.fills = true ∧ ok = true)
  others : ∀ t' ∈ s.calls.eraseIdx k, t' ∈ s'.calls
  pool : s'.pool = s.pool ∨ s.stop ≠ .returned ∨ t = .get
  accounted : s.Accounted → s'.Accounted

/-- A call that stays where it is. -/
theorem Effect.refl (s : WarmupPool) (k : ℕ) (ok : Bool) (t : Call) : Effect s k ok t s :=
  ⟨rfl, .inl rfl, .inl rfl, fun _ => .inl, fun _ => List.mem_of_mem_eraseIdx, .inl rfl, id⟩

/-- The other calls are still there. -/
theorem mem_set_of_mem_eraseIdx {calls : List Call} {k : ℕ} {t t' : Call}
    (h : t' ∈ calls.eraseIdx k) : t' ∈ calls.set k t := by
  rw [← List.eraseIdx_set_eq (a := t)] at h
  exact List.mem_of_mem_eraseIdx h

/-- A call that goes on to `t'`, whatever it has made or returned. -/
theorem Effect.set {t' : Call} (hstop : s'.stop = s.stop) (hpanicked : s'.panicked = s.panicked)
    (hdropped : s'.dropped = s.dropped ∨ (t.session ≠ none ∧ s.maxReady ≤ s.pool.length))
    (hcalls : s'.calls = s.calls.set k t')
    (ht' : t'.session = none ∨ (t.fills = true ∧ ok = true))
    (hpool : s'.pool = s.pool ∨ s.stop ≠ .returned ∨ t = .get)
    (haccounted : s.Accounted → s'.Accounted) : Effect s k ok t s' := by
  refine ⟨hstop, .inl hpanicked, hdropped, fun u hu => ?_, fun u hu => ?_, hpool, haccounted⟩
  · rw [hcalls] at hu
    rcases List.mem_or_eq_of_mem_set hu with hold | rfl
    · exact .inl hold
    · exact .inr ht'
  · rw [hcalls]
    exact mem_set_of_mem_eraseIdx hu

/-- A call that goes on and does nothing else. -/
theorem Effect.become {t' : Call} (hk : s.calls[k]? = some t) (ht : t.session = none)
    (ht' : t'.session = none) : Effect s k ok t (s.become k t') :=
  .set rfl rfl (.inl rfl) rfl (.inl ht') (.inl rfl) fun h => h.become hk (ht'.trans ht.symm)

/-- A send changes the channel while it is open, and panics after that. -/
theorem Effect.send {session : ℕ} (hk : s.calls[k]? = some t) (ht : t.session = some session)
    {sent full : Call} (hsent : sent.session = none) (hfull : full.session = none) :
    Effect s k ok t (s.send k session sent full) := by
  have hsome : t.session ≠ none := ht ▸ Option.some_ne_none session
  have haccounted : s.Accounted → (s.send k session sent full).Accounted :=
    fun h => h.send hk ht hsent hfull
  unfold WarmupPool.send at haccounted ⊢
  split_ifs at haccounted ⊢ with hstop hroom
  · have hrefl := Effect.refl s k ok t
    exact ⟨rfl, .inr ⟨hsome, hstop⟩, .inl rfl, hrefl.calls, hrefl.others, .inl rfl, haccounted⟩
  · exact .set rfl rfl (.inl rfl) rfl (.inl hsent) (.inr (.inl hstop)) haccounted
  · exact .set rfl rfl (.inr ⟨hsome, Nat.le_of_not_lt hroom⟩) rfl (.inl hfull) (.inl rfl) haccounted

/-- A `Get` that does not wait for the factory starts `fillOne`. -/
theorem Effect.take (hk : s.calls[k]? = some .get) : Effect s k ok .get (s.take k) := by
  have hspawn : ∀ {s' : WarmupPool}, s'.stop = s.stop → s'.panicked = s.panicked →
      s'.dropped = s.dropped → s'.calls = s.calls.set k .returned ++ [.fillOne] →
        (s.Accounted → s'.Accounted) → Effect s k ok .get s' := by
    intro s' hstop hpanicked hdropped hcalls haccounted
    refine ⟨hstop, .inl hpanicked, .inl hdropped, fun u hu => ?_, fun u hu => ?_, .inr (.inr rfl),
      haccounted⟩
    · rw [hcalls] at hu
      rcases List.mem_append.1 hu with hset | hnew
      · rcases List.mem_or_eq_of_mem_set hset with hold | rfl
        · exact .inl hold
        · exact .inr (.inl rfl)
      · obtain rfl := List.mem_singleton.1 hnew
        exact .inr (.inl rfl)
    · rw [hcalls]
      exact List.mem_append_left _ (mem_set_of_mem_eraseIdx hu)
  have haccounted : s.Accounted → (s.take k).Accounted := fun h => h.take hk
  unfold WarmupPool.take at haccounted ⊢
  split at haccounted
  · exact hspawn rfl rfl rfl rfl haccounted
  · split_ifs at haccounted ⊢
    · exact hspawn rfl rfl rfl rfl haccounted
    · exact .become hk rfl rfl

/-- **What a step of a call can do**, by where the call is. -/
theorem effect_go (hk : s.calls[k]? = some t) (ok : Bool) : Effect s k ok t (s.go k ok t) := by
  cases t with
  | fill loop =>
    simp only [WarmupPool.go]
    split_ifs
    · exact .become hk rfl rfl
    · exact .become hk rfl (session_afterFill loop)
  | fillDial loop =>
    cases ok with
    | true =>
      exact .set rfl rfl (.inl rfl) rfl (.inr ⟨rfl, rfl⟩) (.inl rfl) fun h => h.produce hk rfl rfl
    | false => exact .become hk rfl rfl
  | fillSend session loop => exact .send hk rfl rfl (session_afterFill loop)
  | fillOne =>
    simp only [WarmupPool.go]
    split_ifs
    · exact .become hk rfl rfl
    · exact .become hk rfl rfl
  | fillOneDial =>
    cases ok with
    | true =>
      exact .set rfl rfl (.inl rfl) rfl (.inr ⟨rfl, rfl⟩) (.inl rfl) fun h => h.produce hk rfl rfl
    | false => exact .become hk rfl rfl
  | fillOneSend session => exact .send hk rfl rfl rfl
  | get => exact .take hk
  | getDial =>
    cases ok with
    | true => exact .set rfl rfl (.inl rfl) rfl (.inl rfl) (.inl rfl) fun h => h.getDial hk
    | false => exact .become hk rfl rfl
  | maintain =>
    simp only [WarmupPool.go]
    split_ifs
    · exact .become hk rfl rfl
    · exact .refl s k ok _
    · exact .become hk rfl rfl
    · exact .refl s k ok _
  | returned => exact .refl s k ok _

/-- A `Get` that is the last call has found the channel empty. -/
theorem take_quiet (hquiet : (s.take k).Quiet) : (s.take k).pool = [] := by
  unfold WarmupPool.take at hquiet ⊢
  cases hpool : s.pool with
  | cons session rest =>
    rw [hpool] at hquiet
    have hnew := hquiet.2 .fillOne (List.mem_append_right _ List.mem_cons_self)
    cases hnew
  | nil =>
    dsimp only
    split_ifs
    · rfl
    · exact hpool

end Effect

/-! ## When it is orderly -/

/-- Every session is in one place and none has been dropped, no call holds one once the channel
is closed, and the channel is empty when all is over. -/
structure Sound (s : WarmupPool) : Prop where
  accounted : s.Accounted
  panicked : s.panicked = false
  dropped : s.dropped = []
  idle : s.stop = .returned → ∀ t ∈ s.calls, t.session = none
  empty : s.Quiet → s.pool = []

section Sound

variable {s : WarmupPool}

/-- Then the pool has kept its promise. -/
theorem Sound.orderly (h : s.Sound) : s.Orderly :=
  ⟨h.panicked, fun hquiet => h.accounted.all_returned hquiet (h.empty hquiet) h.dropped⟩

/-- A step of a call. -/
theorem Sound.go (h : s.Sound) {k : ℕ} {ok : Bool} {t : Call} (hk : s.calls[k]? = some t)
    (hsettled : s.CallSettled k ok t) : (s.go k ok t).Sound := by
  have heffect := effect_go hk ok
  have hmem : t ∈ s.calls := List.mem_of_getElem? hk
  constructor
  · exact heffect.accounted h.accounted
  · rcases heffect.panicked with hsame | ⟨hsends, hstop⟩
    · exact hsame.trans h.panicked
    · exact absurd (h.idle hstop t hmem) hsends
  · rcases heffect.dropped with hsame | ⟨hsends, hfull⟩
    · exact hsame.trans h.dropped
    · exact absurd (hsettled.room hsends) (Nat.not_lt.2 hfull)
  · intro hstop t' ht'
    rw [heffect.stop] at hstop
    rcases heffect.calls t' ht' with hold | hnone | ⟨hfills, hok⟩
    · exact h.idle hstop t' hold
    · exact hnone
    · exact absurd (hsettled.fails hfills hstop) (by simp [hok])
  · intro hquiet
    have hstop : s.stop = .returned := heffect.stop ▸ hquiet.1
    have halone : s.Alone k := fun t' ht' => hquiet.2 t' (heffect.others t' ht')
    by_cases hget : t = .get
    · subst hget
      exact take_quiet hquiet
    · rcases heffect.pool with hsame | hopen | hget'
      · exact hsame.trans (hsettled.empty hget hstop halone)
      · exact absurd hstop hopen
      · exact absurd hget' hget

/-- New calls have not returned yet, and hold nothing. -/
theorem Sound.spawn (h : s.Sound) {new : List Call} (hnew : ∀ t ∈ new, t.session = none)
    {t : Call} (hmem : t ∈ new) (ht : t ≠ .returned) :
    { s with calls := s.calls ++ new }.Sound := by
  refine ⟨h.accounted.spawn fun c => ?_, h.panicked, h.dropped, fun hstop t' ht' => ?_,
    fun hquiet => absurd (hquiet.2 t (List.mem_append_right _ hmem)) ht⟩
  · rw [List.countP_eq_zero]
    intro t' ht'
    simp [Call.holds, hnew t' ht']
  · rcases List.mem_append.1 ht' with hold | hnew'
    · exact h.idle hstop t' hold
    · exact hnew t' hnew'

/-- A step of `Stop`. -/
theorem Sound.stop (h : s.Sound) (hsettled : s.Settled .stop) (hgo : ¬ s.panicked = true) :
    (s.step .stop).Sound := by
  unfold WarmupPool.step
  rw [if_neg hgo]
  dsimp only
  split
  · refine ⟨h.accounted, h.panicked, h.dropped, nofun, fun hquiet => ?_⟩
    cases hquiet.1
  · next hstop =>
      obtain ⟨hidle, hempty⟩ := hsettled hstop
      exact ⟨h.accounted, h.panicked, h.dropped, fun _ => hidle, fun hquiet => hempty hquiet.2⟩
  · next hstop =>
      refine ⟨h.accounted, h.panicked, h.dropped, fun _ => h.idle hstop, fun hquiet => ?_⟩
      exact h.empty ⟨hstop, hquiet.2⟩

/-- **One step** that meets the condition. -/
theorem Sound.step (h : s.Sound) (e : Event) (hsettled : s.Settled e) : (s.step e).Sound := by
  have hgo : ¬ s.panicked = true := by simp [h.panicked]
  cases e with
  | stop => exact h.stop hsettled hgo
  | start =>
    rw [WarmupPool.step, if_neg hgo]
    exact h.spawn (by decide) List.mem_cons_self (by decide)
  | get =>
    rw [WarmupPool.step, if_neg hgo]
    exact h.spawn (by decide) List.mem_cons_self (by decide)
  | go k ok =>
    rw [WarmupPool.step, if_neg hgo]
    split
    · exact h
    · next t hk => exact h.go hk (hsettled t hk)

/-- **The pool shuts down in order**, over every run of its calls with one `Stop`, if no call of
`fill` or `fillOne` has a session to send when the channel is closed, none of their calls of the
factory succeeds after that, sends find room, and the channel is empty when the last call ends. -/
theorem always_orderly (minReady : Int) (maxReady : ℕ) (es : List Event)
    (hes : EachStep step Settled (newWarmupPool minReady maxReady) es) :
    Always step Orderly (newWarmupPool minReady maxReady) es := by
  have hstart : (newWarmupPool minReady maxReady).Sound :=
    ⟨fun _ => rfl, rfl, rfl, fun _ t ht => (List.not_mem_nil ht).elim, fun _ => rfl⟩
  have hsound : Always step Sound (newWarmupPool minReady maxReady) es :=
    .of_eachStep (fun _ e h hok => h.step e hok) hstart hes
  exact hsound.mono fun _ h => h.orderly

end Sound

/-- `fill` makes a session, a `Get` takes it, and the `fillOne` that it starts is in the factory
when `Stop` closes the channel; the factory fails, and `maintainLoop` is the last to return. -/
def stopDuringFailingDial : List Event :=
  [.start, .go 0 true, .go 0 true, .go 0 true, .go 0 true, .get, .go 2 true, .go 3 true,
    .stop, .stop, .go 3 false, .go 1 false]

theorem always_orderly_failingDial :
    Always step Orderly (newWarmupPool 1 4) stopDuringFailingDial ∧
      (run step (newWarmupPool 1 4) stopDuringFailingDial).Quiet ∧
      (run step (newWarmupPool 1 4) stopDuringFailingDial).returned = [0] :=
  ⟨always_orderly 1 4 stopDuringFailingDial (by decide), by decide, by decide⟩

/-- `Stop` comes while `fill` is in the factory. -/
def stopDuringDial : List Event := [.start, .go 0 true, .stop, .stop, .go 0 true, .go 0 true]

/-- `fill` and `maintainLoop` have returned before and after `Stop`, and two sessions are left. -/
def stopWhenFull : List Event :=
  [.start, .go 0 true, .go 0 true, .go 0 true, .go 0 true, .go 0 true, .go 0 true, .go 0 true,
    .stop, .stop, .go 1 false]

/-- The first run ends with a send on the closed channel, and the second with two sessions that
nobody has and nobody closes. -/
theorem stop_not_orderly :
    let panics := run step (newWarmupPool 2 4) stopDuringDial
    let leaks := run step (newWarmupPool 2 4) stopWhenFull
    panics.panicked = true ∧
      leaks.Quiet ∧ leaks.produced = 2 ∧ leaks.returned = [] ∧
      ¬ Always step Orderly (newWarmupPool 2 4) stopDuringDial ∧
      ¬ Always step Orderly (newWarmupPool 2 4) stopWhenFull := by
  intro panics leaks
  refine ⟨by decide, by decide, by decide, by decide, fun h => ?_, fun h => ?_⟩
  · exact absurd h.last (by decide)
  · exact absurd h.last (by decide)

end WarmupPool
