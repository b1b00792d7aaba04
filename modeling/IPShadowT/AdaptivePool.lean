/-
# The adaptive pool

Model of `internal/pool/adaptive_pool.go`.  A step is an atomic operation, a channel operation, a
dial or the `Close` of a connection, with the code that follows it up to the next one, so that any
number of calls and goroutines can be interleaved.  Whether a dial succeeds, whether a timer fires
and what `adjustSize` makes of the usage are inputs.

A connection is the number of the dial that made it.  `dialed` and `closed` record the connections
that were made and those that were closed; nothing reads them.  A panic ends the program, and after
it no step changes anything.

`Effect` says once what a step of a call does to the counters and to the connections;
`resume_effect` says that every step outside `Close` of the pool has such an effect.
-/
import Mathlib.Data.Int.Notation
import IPShadowT.Runs

open Runs

namespace AdaptivePool

/-! ## The pool -/

/-- A connection; `none` is nil. -/
abbrev Conn := Option ℕ

/-- The errors of `Get`; that of the factory is passed on. -/
inductive GetError where
  | factory
  | exhausted
  deriving DecidableEq, Repr

def GetError.message : GetError → Option String
  | factory => none
  | exhausted => some "connection pool exhausted"

/-- Where a call or a goroutine is. -/
inductive Call where
  /-- `Get`, at its first `select` -/
  | get
  /-- `Get`, at the load of `currentSize` -/
  | test
  /-- `Get`, at `p.factory()` -/
  | getDial
  /-- `Get`, at `p.currentSize.Add(1)` -/
  | getDialed (conn : ℕ)
  /-- `Get`, at its second `select` -/
  | wait
  /-- `Get`, at `p.activeConns.Add(1)` -/
  | taken (conn : Conn)
  /-- `pooledConn.Close`, from its test to `p.activeConns.Add(-1)` in `put` -/
  | close (i : ℕ)
  /-- `pooledConn.MarkBad`, from its test to `p.activeConns.Add(-1)` in `discard` -/
  | markBad (i : ℕ)
  /-- `put`, warm-up and scale-up, at the send to the channel -/
  | offer (conn : Conn)
  /-- the same, at `conn.Close()` -/
  | refused (conn : Conn)
  /-- the same, at `p.currentSize.Add(-1)` -/
  | uncount
  /-- `discard`, at `p.currentSize.Add(-1)` -/
  | discard (conn : Conn)
  /-- `discard`, at `conn.Close()` -/
  | discarded (conn : Conn)
  /-- warm-up and scale-up, at `p.factory()` -/
  | dial
  /-- the same, at `p.currentSize.Add(1)` -/
  | dialed (conn : ℕ)
  /-- `adaptiveLoop`, at its `select` -/
  | loop
  /-- `adjustSize`, at the load of `currentSize` -/
  | adjust
  /-- `adjustSize`, at the load of `activeConns` -/
  | adjusting (current : ℤ)
  /-- scale-down with `n` rounds to go, at its `select` -/
  | shrink (n : ℕ)
  /-- the same, at `conn.Close()` -/
  | shrinking (conn : Conn) (n : ℕ)
  /-- the same, at `p.currentSize.Add(-1)` -/
  | shrunk (n : ℕ)
  /-- `Close` of the pool, at `close(p.done)` -/
  | shutdown
  /-- the same, at `p.wg.Wait()` -/
  | shutdownWait
  /-- the same, at `close(p.conns)` -/
  | shutdownChan
  /-- the same, at its `range` over the channel -/
  | drain
  /-- `Close` of the pool, returned -/
  | shutdownReturned
  /-- `Get`, returned with an error -/
  | failed (err : GetError)
  /-- any other call, returned -/
  | returned
  deriving DecidableEq, Repr

/-- Whether a call is `adaptiveLoop`, for which `p.wg.Wait()` waits. -/
def Call.isLoop : Call → Bool
  | .loop | .adjust | .adjusting _ | .shrink _ | .shrinking _ _ | .shrunk _ => true
  | _ => false

/-- `pooledConn`. -/
structure PooledConn where
  conn : Conn
  closed : Bool
  deriving DecidableEq, Repr

end AdaptivePool

/-- The pool between two steps. -/
structure AdaptivePool where
  minSize : ℕ
  maxSize : ℕ
  /-- the buffer of `conns`, of capacity `maxSize` -/
  conns : List AdaptivePool.Conn
  /-- `conns` is closed -/
  chanClosed : Bool
  currentSize : Int32
  activeConns : Int32
  /-- `done` is closed -/
  done : Bool
  calls : List AdaptivePool.Call
  /-- what `Get` has returned -/
  pooled : List AdaptivePool.PooledConn
  dialed : ℕ
  closed : List ℕ
  panicked : Bool
  deriving DecidableEq, Repr

namespace AdaptivePool

/-- `PoolConfig`, as far as sizes go. -/
structure PoolConfig where
  minSize : ℤ
  maxSize : ℤ

/-- `NewAdaptivePool`. -/
def newAdaptivePool (cfg : PoolConfig) : AdaptivePool :=
  let minSize := if cfg.minSize ≤ 0 then 4 else cfg.minSize
  let maxSize := if cfg.maxSize ≤ 0 then 32 else cfg.maxSize
  let maxSize := if maxSize < minSize then minSize else maxSize
  ⟨minSize.toNat, maxSize.toNat, [], false, 0, 0, false, [], [], 0, [], false⟩

/-! ## Steps -/

/-- What a step gets from outside: the outcome of a dial, whether a timer has fired, or whether the
usage is high; and whether it is low. -/
structure Env where
  ok : Bool
  low : Bool
  deriving DecidableEq, Repr

section Steps

variable (s : AdaptivePool) (k : ℕ)

/-- Call `k` goes on to `t`. -/
def become (t : Call) : AdaptivePool := { s with calls := s.calls.set k t }

def panic : AdaptivePool := { s with panicked := true }

/-- A receive from the channel, and what follows if it is empty; a closed one gives nil. -/
def receive (next : Conn → Call) (empty : Call) : AdaptivePool :=
  match s.conns with
  | conn :: rest => { s with conns := rest, calls := s.calls.set k (next conn) }
  | [] => if s.chanClosed then s.become k (next none) else s.become k empty

/-- `p.factory()`. -/
def dialing (ok : Bool) (next : ℕ → Call) (failed : Call) : AdaptivePool :=
  if ok then { s with dialed := s.dialed + 1, calls := s.calls.set k (next s.dialed) }
  else s.become k failed

/-- `p.currentSize.Add(d)`. -/
def addSize (d : Int32) (t : Call) : AdaptivePool :=
  { s with currentSize := s.currentSize + d, calls := s.calls.set k t }

/-- `conn.Close()`. -/
def closeConn (conn : Conn) (t : Call) : AdaptivePool :=
  match conn with
  | some c => { s with closed := c :: s.closed, calls := s.calls.set k t }
  | none => s.panic

/-- The end of `Get`. -/
def handOut (conn : Conn) : AdaptivePool :=
  { s with
    activeConns := s.activeConns + 1
    pooled := s.pooled ++ [⟨conn, false⟩]
    calls := s.calls.set k .returned }

/-- `pooledConn.Close` and `MarkBad`, up to the first atomic operation of `put` and `discard`. -/
def release (i : ℕ) (next : Conn → Call) : AdaptivePool :=
  match s.pooled[i]? with
  | none => s.become k .returned
  | some h =>
    if h.closed then s.become k .returned
    else
      { s with
        activeConns := s.activeConns + (-1)
        pooled := s.pooled.set i ⟨h.conn, true⟩
        calls := s.calls.set k (next h.conn) }

/-- The send to the channel; a send to a closed one panics. -/
def offer (conn : Conn) : AdaptivePool :=
  -- the `default` of the `select` does not help: a send to a closed channel is ready
  if s.chanClosed then s.panic
  else if s.conns.length < s.maxSize then
    { s with conns := s.conns ++ [conn], calls := s.calls.set k .returned }
  else s.become k (.refused conn)

/-- `toAdd`, where the pool is scaled up. -/
def toAdd (current : ℤ) (high : Bool) : ℕ :=
  if high ∧ current < s.maxSize then (min (current.tdiv 2 + 1) (s.maxSize - current)).toNat else 0

/-- `toRemove`, where the pool is scaled down. -/
def toRemove (current : ℤ) (low : Bool) : ℕ :=
  if low ∧ current > s.minSize then
    (min ((current - s.minSize).tdiv 2 + 1) (current - s.minSize)).toNat
  else 0

/-- `adjustSize`, from the load of `activeConns`. -/
def adjustSize (current : ℤ) (e : Env) : AdaptivePool :=
  if current = 0 then s.become k .loop
  else
    -- the dials are goroutines of their own, for which `adjustSize` does not wait
    { s with
      calls := s.calls.set k (.shrink (s.toRemove current e.low)) ++
        List.replicate (s.toAdd current e.ok) .dial }

/-- One receive of the `range` over the channel. -/
def drained : AdaptivePool :=
  match s.conns with
  | some c :: rest => { s with conns := rest, closed := c :: s.closed }
  | none :: _ => s.panic
  | [] => s.become k .shutdownReturned

/-- Call `k` goes on. -/
def resume (e : Env) : Call → AdaptivePool
  | .get => s.receive k .taken .test
  | .test => s.become k (if s.currentSize.toInt < s.maxSize then .getDial else .wait)
  | .getDial => s.dialing k e.ok .getDialed (.failed .factory)
  | .getDialed conn => s.addSize k 1 (.taken (some conn))
  -- the second `select`, with its timer
  | .wait => if e.ok then s.become k (.failed .exhausted) else s.receive k .taken .wait
  | .taken conn => s.handOut k conn
  | .close i => s.release k i .offer
  | .markBad i => s.release k i .discard
  | .offer conn => s.offer k conn
  | .refused conn => s.closeConn k conn .uncount
  | .uncount => s.addSize k (-1) .returned
  | .discard conn => s.addSize k (-1) (.discarded conn)
  | .discarded conn => s.closeConn k conn .returned
  | .dial => s.dialing k e.ok .dialed .returned
  | .dialed conn => s.addSize k 1 (.offer (some conn))
  -- a tick is taken, also if `done` is closed
  | .loop => s.become k (if e.ok then .adjust else if s.done then .returned else .loop)
  | .adjust => s.become k (.adjusting s.currentSize.toInt)
  | .adjusting current => s.adjustSize k current e
  -- `break` leaves the `select` only, so an empty channel does not end the rounds
  | .shrink 0 => s.become k .loop
  | .shrink (n + 1) => s.receive k (.shrinking · n) (.shrink n)
  | .shrinking conn n => s.closeConn k conn (.shrunk n)
  | .shrunk n => s.addSize k (-1) (.shrink n)
  | .shutdown =>
    if s.done then s.panic
    else { s with done := true, calls := s.calls.set k .shutdownWait }
  -- `p.wg` counts `adaptiveLoop`, but not the dials it has started
  | .shutdownWait => if s.calls.any Call.isLoop then s else s.become k .shutdownChan
  | .shutdownChan =>
    if s.chanClosed then s.panic
    else { s with chanClosed := true, calls := s.calls.set k .drain }
  | .drain => s.drained k
  | .shutdownReturned | .failed _ | .returned => s

end Steps

inductive Event where
  | get
  | close (i : ℕ)
  | markBad (i : ℕ)
  /-- a goroutine of the warm-up in `Start` -/
  | warmup
  | adaptiveLoop
  /-- `Close` of the pool -/
  | shutdown
  /-- call `k` goes on -/
  | resume (k : ℕ) (e : Env)
  deriving DecidableEq, Repr

/-- The call that an event starts. -/
def Event.call : Event → Option Call
  | .get => some .get
  | .close i => some (.close i)
  | .markBad i => some (.markBad i)
  | .warmup => some .dial
  | .adaptiveLoop => some .loop
  | .shutdown => some .shutdown
  | .resume _ _ => none

def step (s : AdaptivePool) (ev : Event) : AdaptivePool :=
  if s.panicked then s
  else
    match ev with
    | .resume k e => (s.calls[k]?.map (s.resume k e)).getD s
    | ev => { s with calls := s.calls ++ ev.call.toList }

/-! ## What a step does -/

/-- The connection that a call holds. -/
def Call.conn : Call → Conn
  | .getDialed conn | .dialed conn => some conn
  | .taken conn | .offer conn | .refused conn | .discard conn | .discarded conn
  | .shrinking conn _ => conn
  | _ => none

def Call.holds (c : ℕ) (t : Call) : Bool := decide (t.conn = some c)

/-- Whether a call has a connection that `currentSize` counts and that is neither in the channel
nor with a caller. -/
def Call.counts : Call → Bool
  | .taken _ | .offer _ | .refused _ | .uncount | .discard _ | .shrinking _ _ | .shrunk _ => true
  | _ => false

/-- Whether a call has seen `currentSize` below the maximum, or dials because another one has, and
has not counted the connection. -/
def Call.pending (maxSize : ℕ) : Call → Bool
  | .getDial | .getDialed _ | .dial | .dialed _ => true
  | .adjusting current => decide (current < maxSize)
  | _ => false

/-- Whether a call is at a load of `currentSize` that its dials rest on. -/
def Call.looks : Call → Bool
  | .test | .adjust => true
  | _ => false

theorem Call.pending_of_looks {t : Call} (h : t.looks = true) (maxSize : ℕ) :
    t.pending maxSize = false := by
  cases t <;> cases h <;> rfl

/-- Whether a call is `Close` of the pool. -/
def Call.isShutdown : Call → Bool
  | .shutdown | .shutdownWait | .shutdownChan | .drain | .shutdownReturned => true
  | _ => false

/-- A call that has a connection which `currentSize` counts. -/
structure Call.Carries (maxSize : ℕ) (conn : Conn) (t : Call) : Prop where
  isShutdown : t.isShutdown = false
  conn : t.conn = conn
  counts : t.counts = true
  pending : t.pending maxSize = false

def PooledConn.holds (c : ℕ) (h : PooledConn) : Bool := !h.closed && decide (h.conn = some c)

section Ledger

variable (s : AdaptivePool)

/-- The connections that are handed out and not released. -/
def unreleased : ℕ := s.pooled.countP (!·.closed)

/-- The connections that the pool has open: the idle ones and those handed out. -/
def opened : ℕ := s.conns.length + s.unreleased

/-- In how many places outside of the calls a connection is: the channel, with a caller, closed. -/
def places (c : ℕ) : ℕ :=
  s.conns.count (some c) + s.pooled.countP (PooledConn.holds c) + s.closed.count c

end Ledger

/-- A step of call `k`, which was at `t` and is then at `t'`, and which starts `new` dials.  What
the other calls hold or count is `x`. -/
structure Effect (s s' : AdaptivePool) (k : ℕ) (t t' : Call) (new : ℕ) : Prop where
  calls : s'.calls = s.calls.set k t' ++ List.replicate new .dial
  isShutdown : t'.isShutdown = false
  chanClosed : s'.chanClosed = s.chanClosed
  maxSize : s'.maxSize = s.maxSize
  room : s.conns.length ≤ s.maxSize → s'.conns.length ≤ s.maxSize
  /-- `currentSize` moves with what it counts -/
  size : ∀ x, s.currentSize = Int32.ofNat (x + s.opened + t.counts.toNat) →
    s'.currentSize = Int32.ofNat (x + s'.opened + t'.counts.toNat)
  active : s.activeConns = Int32.ofNat s.unreleased → s'.activeConns = Int32.ofNat s'.unreleased
  /-- no connection is lost or copied -/
  places : ∀ x : ℕ → ℕ, OnePlace (fun c => x c + s.places c + (t.holds c).toNat) s.dialed →
    OnePlace (fun c => x c + s'.places c + (t'.holds c).toNat) s'.dialed
  /-- what is counted and what is pending grow together only at a look at `currentSize`, and where
  a look at it turns into dials -/
  growth :
    s'.opened + t'.counts.toNat + (t'.pending s.maxSize).toNat + new ≤
        s.opened + t.counts.toNat + (t.pending s.maxSize).toNat ∨
      (s'.opened + t'.counts.toNat = s.opened + t.counts.toNat ∧ new = 0 ∧ t.looks = true ∧
        s.currentSize.toInt < s.maxSize) ∨
      (s'.opened + t'.counts.toNat = s.opened + t.counts.toNat ∧
        (∃ current : ℤ, t = .adjusting current ∧ current < s.maxSize) ∧
        t'.pending s.maxSize = false)

variable {t' : Call} {conn : Conn}

section Effects

variable {s : AdaptivePool} {k : ℕ} {t : Call}

theorem ofNat_succ_add_neg_one (n : ℕ) : Int32.ofNat (n + 1) + (-1) = Int32.ofNat n := by
  have hone : Int32.ofNat 1 + (-1) = 0 := rfl
  rw [Int32.ofNat_add, Int32.add_assoc, hone, Int32.add_zero]

/-- A call that only goes on. -/
theorem become_effect (hshut : t'.isShutdown = false) (hconn : t'.conn = t.conn)
    (hcounts : t'.counts = t.counts)
    (hpend : t'.pending s.maxSize = true → t.looks = true ∧ s.currentSize.toInt < s.maxSize) :
    Effect s (s.become k t') k t t' 0 where
  calls := (List.append_nil _).symm
  isShutdown := hshut
  chanClosed := rfl
  maxSize := rfl
  room := id
  size x h := by rw [hcounts]; exact h
  active := id
  places x h := by
    refine h.move ?_
    intro c
    simp only [Call.holds, hconn]
    rfl
  growth := by
    have hopened : (s.become k t').opened = s.opened := rfl
    rw [hopened, hcounts]
    cases hp : t'.pending s.maxSize with
    | true => exact .inr (.inl ⟨rfl, rfl, hpend hp⟩)
    | false =>
      left
      simp only [Bool.toNat_false]
      omega

theorem pass_effect (hshut : t'.isShutdown = false) (hconn : t'.conn = t.conn)
    (hcounts : t'.counts = t.counts) (hpend : t'.pending s.maxSize = false) :
    Effect s (s.become k t') k t t' 0 := by
  apply become_effect hshut hconn hcounts
  intro h
  rw [hpend] at h
  cases h

/-- A call that stays where it is, or panics there. -/
theorem stay_effect (hk : s.calls[k]? = some t) (hshut : t.isShutdown = false) (b : Bool) :
    Effect s { s with panicked := b } k t t 0 where
  calls := by rw [set_eq_self hk, List.replicate_zero, List.append_nil]
  isShutdown := hshut
  chanClosed := rfl
  maxSize := rfl
  room := id
  size _ := id
  active := id
  places _ := id
  growth := .inl (Nat.le_refl _)

/-- From the channel into a call. -/
theorem take_effect {rest : List Conn} (hconns : s.conns = conn :: rest) (hold : t.conn = none)
    (holdc : t.counts = false) (hnew : t'.Carries s.maxSize conn) :
    Effect s { s with conns := rest, calls := s.calls.set k t' } k t t' 0 where
  calls := (List.append_nil _).symm
  isShutdown := hnew.isShutdown
  chanClosed := rfl
  maxSize := rfl
  room h := by
    rw [hconns, List.length_cons] at h
    exact Nat.le_of_succ_le h
  size x h := by
    rw [h]
    congr 1
    simp only [opened, hconns, holdc, hnew.counts, List.length_cons, unreleased, Bool.toNat_false,
      Bool.toNat_true]
    omega
  active := id
  places x h := by
    refine h.move ?_
    intro c
    simp only [places, Call.holds, hold, hnew.conn, hconns, count_cons_toNat, reduceCtorEq,
      decide_false, Bool.toNat_false]
    omega
  growth := by
    left
    simp only [opened, hconns, hnew.counts, hnew.pending, List.length_cons, unreleased,
      Bool.toNat_false, Bool.toNat_true]
    omega

/-- A connection is made, and held by the call. -/
theorem made_effect (hold : t.conn = none) (hshut : t'.isShutdown = false)
    (hconn : t'.conn = some s.dialed) (hcounts : t'.counts = t.counts)
    (hpend : t.pending s.maxSize = true) :
    Effect s { s with dialed := s.dialed + 1, calls := s.calls.set k t' } k t t' 0 where
  calls := (List.append_nil _).symm
  isShutdown := hshut
  chanClosed := rfl
  maxSize := rfl
  room := id
  size x h := by rw [hcounts]; exact h
  active := id
  places x h := by
    refine h.make ?_
    intro c
    simp [places, Call.holds, hold, hconn]
  growth := by
    left
    simp only [opened, unreleased, hcounts, hpend, Bool.toNat_true]
    have hle := Bool.toNat_le (t'.pending s.maxSize)
    omega

/-- A connection that the call has is counted, or not counted any more. -/
theorem addSize_effect {d : Int32} (hshut : t'.isShutdown = false) (hconn : t'.conn = t.conn)
    (hd : ∀ n, Int32.ofNat (n + t.counts.toNat) + d = Int32.ofNat (n + t'.counts.toNat))
    (hpend : t'.counts.toNat + (t'.pending s.maxSize).toNat ≤
      t.counts.toNat + (t.pending s.maxSize).toNat) :
    Effect s (s.addSize k d t') k t t' 0 where
  calls := (List.append_nil _).symm
  isShutdown := hshut
  chanClosed := rfl
  maxSize := rfl
  room := id
  size x h := by
    show s.currentSize + d = Int32.ofNat (x + s.opened + t'.counts.toNat)
    rw [h, hd]
  active := id
  places x h := by
    refine h.move ?_
    intro c
    simp only [Call.holds, hconn]
    rfl
  growth := by
    left
    have hopened : (s.addSize k d t').opened = s.opened := rfl
    rw [hopened]
    omega

theorem count_effect (hold : t.counts = false) (hpend : t.pending s.maxSize = true)
    (hshut : t'.isShutdown = false) (hconn : t'.conn = t.conn) (hcounts : t'.counts = true)
    (hpend' : t'.pending s.maxSize = false) : Effect s (s.addSize k 1 t') k t t' 0 := by
  apply addSize_effect hshut hconn
  · intro n
    rw [hold, hcounts]
    exact (Int32.ofNat_add n 1).symm
  · rw [hold, hcounts, hpend, hpend']
    exact Nat.le_refl 1

theorem uncount_effect (hold : t.counts = true) (hshut : t'.isShutdown = false)
    (hconn : t'.conn = t.conn) (hcounts : t'.counts = false) (hpend' : t'.pending s.maxSize = false)
    : Effect s (s.addSize k (-1) t') k t t' 0 := by
  apply addSize_effect hshut hconn
  · intro n
    rw [hold, hcounts]
    exact ofNat_succ_add_neg_one n
  · rw [hcounts, hpend']
    exact Nat.zero_le _

/-- A connection that the call holds is closed. -/
theorem closed_effect {c : ℕ} (hold : t.conn = some c) (hshut : t'.isShutdown = false)
    (hconn : t'.conn = none) (hcounts : t'.counts = t.counts)
    (hpend' : t'.pending s.maxSize = false) :
    Effect s { s with closed := c :: s.closed, calls := s.calls.set k t' } k t t' 0 where
  calls := (List.append_nil _).symm
  isShutdown := hshut
  chanClosed := rfl
  maxSize := rfl
  room := id
  size x h := by rw [hcounts]; exact h
  active := id
  places x h := by
    refine h.move ?_
    intro d
    simp only [places, Call.holds, hold, hconn, count_cons_toNat, Option.some.injEq, reduceCtorEq,
      decide_false, Bool.toNat_false]
    omega
  growth := by
    left
    simp only [opened, unreleased, hcounts, hpend', Bool.toNat_false]
    omega

/-- From a call to a caller. -/
theorem handOut_effect (conn : Conn) : Effect s (s.handOut k conn) k (.taken conn) .returned 0 := by
  have hmore : (s.handOut k conn).unreleased = s.unreleased + 1 :=
    countP_append_singleton _ _ _
  refine ⟨(List.append_nil _).symm, rfl, rfl, rfl, id, ?_, ?_, ?_, ?_⟩
  · intro x h
    show s.currentSize = _
    rw [h, opened, opened, hmore]
    rfl
  · intro h
    show s.activeConns + 1 = _
    rw [h, hmore]
    exact (Int32.ofNat_add _ 1).symm
  · intro x h
    refine h.move ?_
    intro c
    have hold : (Call.taken conn).holds c = PooledConn.holds c ⟨conn, false⟩ := rfl
    have hnew : Call.returned.holds c = false := rfl
    simp only [handOut, places, hold, hnew, countP_append_singleton, Bool.toNat_false]
    omega
  · left
    rw [opened, opened, hmore]
    simp only [handOut, Call.counts, Call.pending, Bool.toNat_true, Bool.toNat_false]
    omega

/-- From a caller back to a call. -/
theorem released_effect {h : PooledConn} {i : ℕ} {d : Int32} (hi : s.pooled[i]? = some h)
    (hopen : h.closed = false) (hd : ∀ n, Int32.ofNat (n + 1) + d = Int32.ofNat n)
    (hold : t.conn = none) (holdc : t.counts = false) (hnew : t'.Carries s.maxSize h.conn) :
    Effect s
      { s with
        activeConns := s.activeConns + d
        pooled := s.pooled.set i ⟨h.conn, true⟩
        calls := s.calls.set k t' }
      k t t' 0 := by
  have hless : (s.pooled.set i ⟨h.conn, true⟩).countP (!·.closed) + 1 = s.unreleased := by
    have hset := countP_set_add (fun h : PooledConn => !h.closed) hi ⟨h.conn, true⟩
    simp only [hopen, Bool.not_false, Bool.not_true, Bool.toNat_true, Bool.toNat_false] at hset
    exact hset
  refine ⟨(List.append_nil _).symm, hnew.isShutdown, rfl, rfl, id, ?_, ?_, ?_, ?_⟩
  · intro x hx
    rw [show s.currentSize = _ from hx]
    congr 1
    simp only [opened, unreleased, holdc, hnew.counts, Bool.toNat_true, Bool.toNat_false] at hless ⊢
    omega
  · intro hactive
    show s.activeConns + d = Int32.ofNat ((s.pooled.set i ⟨h.conn, true⟩).countP (!·.closed))
    rw [hactive, ← hless, hd]
  · intro x hx
    refine hx.move ?_
    intro c
    have hset := countP_set_add (PooledConn.holds c) hi ⟨h.conn, true⟩
    simp only [PooledConn.holds, hopen, Bool.not_false, Bool.true_and, Bool.not_true,
      Bool.false_and, Bool.toNat_false] at hset
    simp only [places, Call.holds, hold, hnew.conn, reduceCtorEq, decide_false, Bool.toNat_false]
    omega
  · left
    simp only [opened, unreleased, holdc, hnew.counts, hnew.pending, Bool.toNat_true,
      Bool.toNat_false] at hless ⊢
    omega

/-- From a call into the channel. -/
theorem sent_effect (hlt : s.conns.length < s.maxSize) :
    Effect s { s with conns := s.conns ++ [conn], calls := s.calls.set k .returned } k
      (.offer conn) .returned 0 where
  calls := (List.append_nil _).symm
  isShutdown := rfl
  chanClosed := rfl
  maxSize := rfl
  room _ := by
    rw [List.length_append]
    exact hlt
  size x h := by
    rw [show s.currentSize = _ from h]
    congr 1
    simp only [opened, unreleased, Call.counts, List.length_append, List.length_singleton,
      Bool.toNat_true, Bool.toNat_false]
    omega
  active := id
  places x h := by
    refine h.move ?_
    intro c
    have hold : (Call.offer conn).holds c = decide (conn = some c) := rfl
    have hnew : Call.returned.holds c = false := rfl
    simp only [places, hold, hnew, List.count_append, count_cons_toNat, List.count_nil,
      Bool.toNat_false]
    omega
  growth := by
    left
    simp only [opened, unreleased, Call.counts, Call.pending, List.length_append,
      List.length_singleton, Bool.toNat_true, Bool.toNat_false]
    omega

/-- `adjustSize` starts dials only if it has seen the size below the maximum. -/
theorem adjust_effect (current : ℤ) (e : Env) :
    Effect s
      { s with
        calls := s.calls.set k (.shrink (s.toRemove current e.low)) ++
          List.replicate (s.toAdd current e.ok) .dial }
      k (.adjusting current) (.shrink (s.toRemove current e.low)) (s.toAdd current e.ok) where
  calls := rfl
  isShutdown := rfl
  chanClosed := rfl
  maxSize := rfl
  room := id
  size _ := id
  active := id
  places _ := id
  growth := by
    by_cases hlt : current < s.maxSize
    · exact .inr (.inr ⟨rfl, ⟨current, rfl, hlt⟩, rfl⟩)
    · left
      have hnone : s.toAdd current e.ok = 0 := if_neg (fun h => hlt h.2)
      rw [hnone]
      exact Nat.le_add_right s.opened _

theorem receive_effect (hopen : s.chanClosed = false) {next : Conn → Call} {empty : Call}
    (hold : t.conn = none) (holdc : t.counts = false)
    (hnext : ∀ conn, (next conn).Carries s.maxSize conn)
    (hempty : Effect s (s.become k empty) k t empty 0) :
    ∃ t', Effect s (s.receive k next empty) k t t' 0 := by
  unfold receive
  cases hconns : s.conns with
  | nil =>
    refine ⟨empty, ?_⟩
    simp only [hopen, Bool.false_eq_true, if_false]
    exact hempty
  | cons conn rest =>
    exact ⟨next conn, take_effect hconns hold holdc (hnext conn)⟩

theorem dialing_effect (ok : Bool) {next : ℕ → Call} {failed : Call} (hold : t.conn = none)
    (holdc : t.counts = false) (hpend : t.pending s.maxSize = true)
    (hshut : ∀ c, (next c).isShutdown = false) (hconn : ∀ c, (next c).conn = some c)
    (hcounts : ∀ c, (next c).counts = false)
    (hfailed : Effect s (s.become k failed) k t failed 0) :
    ∃ t', Effect s (s.dialing k ok next failed) k t t' 0 := by
  cases ok with
  | false => exact ⟨failed, hfailed⟩
  | true =>
    have hsame : (next s.dialed).counts = t.counts := by rw [hcounts, holdc]
    exact ⟨next s.dialed, made_effect hold (hshut _) (hconn _) hsame hpend⟩

theorem closeConn_effect (hk : s.calls[k]? = some t) (hshut : t.isShutdown = false)
    (hold : t.conn = conn) (hshut' : t'.isShutdown = false) (hconn : t'.conn = none)
    (hcounts : t'.counts = t.counts) (hpend : t'.pending s.maxSize = false) :
    ∃ t'', Effect s (s.closeConn k conn t') k t t'' 0 := by
  cases conn with
  | none => exact ⟨t, stay_effect hk hshut true⟩
  | some c => exact ⟨t', closed_effect hold hshut' hconn hcounts hpend⟩

theorem release_effect (i : ℕ) {next : Conn → Call} (hold : t.conn = none)
    (holdc : t.counts = false) (hnext : ∀ conn, (next conn).Carries s.maxSize conn) :
    ∃ t', Effect s (s.release k i next) k t t' 0 := by
  have hreturned : Effect s (s.become k .returned) k t .returned 0 :=
    pass_effect rfl hold.symm holdc.symm rfl
  unfold release
  cases hi : s.pooled[i]? with
  | none => exact ⟨.returned, hreturned⟩
  | some h =>
    cases hclosed : h.closed with
    | true =>
      refine ⟨.returned, ?_⟩
      simp only [hclosed, if_true]
      exact hreturned
    | false =>
      refine ⟨next h.conn, ?_⟩
      simp only [hclosed, Bool.false_eq_true, if_false]
      exact released_effect hi hclosed ofNat_succ_add_neg_one hold holdc (hnext h.conn)

theorem offer_effect (hopen : s.chanClosed = false) (conn : Conn) :
    ∃ t', Effect s (s.offer k conn) k (.offer conn) t' 0 := by
  have hnot : ¬ s.chanClosed = true := by rw [hopen]; exact Bool.false_ne_true
  unfold offer
  rw [if_neg hnot]
  by_cases hlt : s.conns.length < s.maxSize
  · rw [if_pos hlt]
    exact ⟨.returned, sent_effect hlt⟩
  · rw [if_neg hlt]
    exact ⟨.refused conn, pass_effect rfl rfl rfl rfl⟩

theorem test_effect (e : Env) : ∃ t', Effect s (s.resume k e .test) k .test t' 0 := by
  by_cases hlt : s.currentSize.toInt < s.maxSize
  · refine ⟨.getDial, ?_⟩
    simp only [resume, if_pos hlt]
    exact become_effect rfl rfl rfl (fun _ => ⟨rfl, hlt⟩)
  · refine ⟨.wait, ?_⟩
    simp only [resume, if_neg hlt]
    exact pass_effect rfl rfl rfl rfl

theorem wait_effect (hopen : s.chanClosed = false) (e : Env) :
    ∃ t', Effect s (s.resume k e .wait) k .wait t' 0 := by
  cases hok : e.ok with
  | true =>
    refine ⟨.failed .exhausted, ?_⟩
    simp only [resume, hok, if_true]
    exact pass_effect rfl rfl rfl rfl
  | false =>
    have hempty : Effect s (s.become k .wait) k .wait .wait 0 := pass_effect rfl rfl rfl rfl
    simp only [resume, hok, Bool.false_eq_true, if_false]
    exact receive_effect hopen rfl rfl (fun _ => ⟨rfl, rfl, rfl, rfl⟩) hempty

theorem loop_effect (e : Env) : ∃ t', Effect s (s.resume k e .loop) k .loop t' 0 := by
  refine ⟨if e.ok then .adjust else if s.done then .returned else .loop, ?_⟩
  cases hok : e.ok with
  | true =>
    simp only [resume, hok, if_true]
    exact pass_effect rfl rfl rfl rfl
  | false =>
    simp only [resume, hok, Bool.false_eq_true, if_false]
    apply pass_effect <;> cases s.done <;> rfl

theorem adjusting_effect (current : ℤ) (e : Env) :
    ∃ t' new, Effect s (s.adjustSize k current e) k (.adjusting current) t' new := by
  unfold adjustSize
  by_cases hzero : current = 0
  · rw [if_pos hzero]
    exact ⟨.loop, 0, pass_effect rfl rfl rfl rfl⟩
  · rw [if_neg hzero]
    exact ⟨_, _, adjust_effect current e⟩

theorem shrink_effect (hopen : s.chanClosed = false) (n : ℕ) (e : Env) :
    ∃ t', Effect s (s.resume k e (.shrink n)) k (.shrink n) t' 0 := by
  cases n with
  | zero => exact ⟨.loop, pass_effect rfl rfl rfl rfl⟩
  | succ n =>
    have hempty : Effect s (s.become k (.shrink n)) k (.shrink (n + 1)) (.shrink n) 0 :=
      pass_effect rfl rfl rfl rfl
    exact receive_effect hopen rfl rfl (fun _ => ⟨rfl, rfl, rfl, rfl⟩) hempty

/-- What a call that is not `Close` of the pool does next, while the channel is open. -/
theorem resume_effect (hk : s.calls[k]? = some t) (hshut : t.isShutdown = false)
    (hopen : s.chanClosed = false) (e : Env) :
    ∃ t' new, Effect s (s.resume k e t) k t t' new := by
  have hone : (∃ t', Effect s (s.resume k e t) k t t' 0) →
      ∃ t' new, Effect s (s.resume k e t) k t t' new := fun ⟨t', h⟩ => ⟨t', 0, h⟩
  cases t with
  | get =>
    have hempty : Effect s (s.become k .test) k .get .test 0 := pass_effect rfl rfl rfl rfl
    exact hone (receive_effect hopen rfl rfl (fun _ => ⟨rfl, rfl, rfl, rfl⟩) hempty)
  | test => exact hone (test_effect e)
  | getDial =>
    have hfailed : Effect s (s.become k (.failed .factory)) k .getDial (.failed .factory) 0 :=
      pass_effect rfl rfl rfl rfl
    exact hone (dialing_effect e.ok rfl rfl rfl (fun _ => rfl) (fun _ => rfl) (fun _ => rfl)
      hfailed)
  | getDialed conn => exact ⟨_, 0, count_effect rfl rfl rfl rfl rfl rfl⟩
  | wait => exact hone (wait_effect hopen e)
  | taken conn => exact ⟨_, 0, handOut_effect conn⟩
  | close i => exact hone (release_effect i rfl rfl (fun _ => ⟨rfl, rfl, rfl, rfl⟩))
  | markBad i => exact hone (release_effect i rfl rfl (fun _ => ⟨rfl, rfl, rfl, rfl⟩))
  | offer conn => exact hone (offer_effect hopen conn)
  | refused conn => exact hone (closeConn_effect hk rfl rfl rfl rfl rfl rfl)
  | uncount => exact ⟨_, 0, uncount_effect rfl rfl rfl rfl rfl⟩
  | discard conn => exact ⟨_, 0, uncount_effect rfl rfl rfl rfl rfl⟩
  | discarded conn => exact hone (closeConn_effect hk rfl rfl rfl rfl rfl rfl)
  | dial =>
    have hfailed : Effect s (s.become k .returned) k .dial .returned 0 :=
      pass_effect rfl rfl rfl rfl
    exact hone (dialing_effect e.ok rfl rfl rfl (fun _ => rfl) (fun _ => rfl) (fun _ => rfl)
      hfailed)
  | dialed conn => exact ⟨_, 0, count_effect rfl rfl rfl rfl rfl rfl⟩
  | loop => exact hone (loop_effect e)
  | adjust =>
    have hsaw : (Call.adjusting s.currentSize.toInt).pending s.maxSize = true →
        Call.adjust.looks = true ∧ s.currentSize.toInt < s.maxSize :=
      fun h => ⟨rfl, of_decide_eq_true h⟩
    exact ⟨_, 0, become_effect rfl rfl rfl hsaw⟩
  | adjusting current => exact adjusting_effect current e
  | shrink n => exact hone (shrink_effect hopen n e)
  | shrinking conn n => exact hone (closeConn_effect hk rfl rfl rfl rfl rfl rfl)
  | shrunk n => exact ⟨_, 0, uncount_effect rfl rfl rfl rfl rfl⟩
  | shutdown => cases hshut
  | shutdownWait => cases hshut
  | shutdownChan => cases hshut
  | drain => cases hshut
  | shutdownReturned => cases hshut
  | failed err => exact ⟨_, 0, stay_effect hk rfl s.panicked⟩
  | returned => exact ⟨_, 0, stay_effect hk rfl s.panicked⟩

end Effects

end AdaptivePool
