/-
# The pool of direct connections

Model of `initDirectPool`, `getDirectConn`, `putDirectConn`, `refillPool`,
`maintainDirectPool` and `closeDirectPool` in `internal/client/client.go`.  A step is a
mutex section or a channel operation, with the code that follows it up to the next
one, so that any number of calls can be interleaved.  Whether a dial succeeds, and
whether a ticker fires before `done` is seen, are inputs.

A connection is the number of the dial that made it.  `handed` and `closed` record
the connections given to callers and those closed by the pool, and `dialedBy` the
call that dialed each; nothing reads them.  `panicked` is set by a send on the closed
channel and by a second close of it.
-/
import Mathlib.Data.List.Basic

namespace DirectPool

/-! ## The pool -/

/-- Where a call is. -/
inductive Call where
  /-- `getDirectConn`, before its mutex section -/
  | get
  /-- `getDirectConn`, at its `select` on the channel it has read -/
  | receive
  /-- `getDirectConn`, at `dialAndHandshake` -/
  | dial
  /-- `refillPool` with `count` rounds to go; `loop` if `maintainDirectPool` made the call -/
  | refill (count : ℕ) (loop : Bool)
  /-- `refillPool`, at `dialAndHandshake`, with `count` rounds after this one -/
  | redial (count : ℕ) (loop : Bool)
  /-- `refillPool`, at `putDirectConn` -/
  | put (conn count : ℕ) (loop : Bool)
  /-- `refillPool`, at `conn.Close` -/
  | refused (conn : ℕ) (loop : Bool)
  /-- `maintainDirectPool`, at its `select` -/
  | maintain
  /-- `closeDirectPool`, before its mutex section -/
  | close
  /-- `closeDirectPool`, at `close` of the channel it has read -/
  | closing
  /-- `closeDirectPool`, at its `range` over the channel -/
  | draining
  /-- `closeDirectPool`, returned -/
  | closeReturned
  /-- any other call, returned -/
  | returned
  deriving DecidableEq, Repr

/-- The connection a call of `refillPool` holds. -/
def Call.conn : Call → Option ℕ
  | .put conn _ _ => some conn
  | .refused conn _ => some conn
  | _ => none

/-- Whether a call of `refillPool` holds connection `c`. -/
def Call.holds (c : ℕ) (t : Call) : Bool := t.conn = some c

/-- Whether a call has returned. -/
def Call.Finished (t : Call) : Prop := t = .closeReturned ∨ t = .returned

/-- What follows a call of `refillPool`. -/
def afterRefill (loop : Bool) : Call := if loop then .maintain else .returned

end DirectPool

/-- The pool between two steps. -/
structure DirectPool where
  poolSize : ℕ
  /-- `c.directPool` is not nil -/
  directPool : Bool
  directClosed : Bool
  /-- `c.done` is closed -/
  done : Bool
  /-- the buffer of the channel, of capacity `2 * poolSize` -/
  buf : List ℕ
  /-- the channel is closed -/
  chanClosed : Bool
  calls : List DirectPool.Call
  panicked : Bool
  dialedBy : List (Option ℕ)
  handed : List ℕ
  closed : List ℕ
  deriving DecidableEq, Repr

namespace DirectPool

/-- A pool with `connected` connections, made in `initDirectPool`. -/
def filled (poolSize connected : ℕ) : DirectPool where
  poolSize := poolSize
  directPool := true
  directClosed := false
  done := false
  buf := List.range connected
  chanClosed := false
  calls := []
  panicked := false
  dialedBy := List.replicate connected none
  handed := []
  closed := []

/-- `initDirectPool`; `dials i` says whether the `i`-th dial succeeds.  The channel holds
twice the connections that are sent, so that no send blocks. -/
def initDirectPool (size : Int) (dials : ℕ → Bool) : Except String DirectPool :=
  let poolSize := if size ≤ 0 then 16 else size.toNat
  let connected := (List.range poolSize).countP dials
  if connected = 0 then .error "failed to establish any direct connection"
  else .ok (filled poolSize connected)

/-! ## Steps -/

/-- Call `k` goes on to `t`. -/
def become (s : DirectPool) (k : ℕ) (t : Call) : DirectPool :=
  { s with calls := s.calls.set k t }

/-- `c.directClosed || c.directPool == nil`. -/
def unavailable (s : DirectPool) : Bool := s.directClosed || !s.directPool

/-- The receive in `getDirectConn`; a receive from a closed and empty channel and one
that would block both end in a dial. -/
def receive (s : DirectPool) (k : ℕ) : DirectPool :=
  match s.buf with
  | conn :: rest =>
    { s with
      buf := rest
      handed := conn :: s.handed
      calls := s.calls.set k .returned ++ [.refill 1 false] }
  | [] => s.become k .dial

/-- The dial in `getDirectConn`. -/
def dial (s : DirectPool) (k : ℕ) (ok : Bool) : DirectPool :=
  if ok then
    { s with
      dialedBy := s.dialedBy ++ [some k]
      handed := s.dialedBy.length :: s.handed
      calls := s.calls.set k .returned }
  else s.become k .returned

/-- The dial in `refillPool`. -/
def redial (s : DirectPool) (k count : ℕ) (loop ok : Bool) : DirectPool :=
  if ok then
    { s with
      dialedBy := s.dialedBy ++ [some k]
      calls := s.calls.set k (.put s.dialedBy.length count loop) }
  else s.become k (.refill count loop)

/-- `putDirectConn`. -/
def putDirectConn (s : DirectPool) (conn : ℕ) : Bool × DirectPool :=
  if s.unavailable then (false, s)
  else if s.chanClosed then (false, { s with panicked := true })
  else if s.buf.length < 2 * s.poolSize then (true, { s with buf := s.buf ++ [conn] })
  else (false, s)

/-- `putDirectConn` as `refillPool` calls it. -/
def put (s : DirectPool) (k conn count : ℕ) (loop : Bool) : DirectPool :=
  let (ok, s₁) := s.putDirectConn conn
  s₁.become k (if ok then .refill count loop else .refused conn loop)

/-- `current` in `maintainDirectPool`. -/
def current (s : DirectPool) : ℕ := if s.directPool then s.buf.length else 0

/-- The `select` of `maintainDirectPool`; `tick` if the ticker's case is taken. -/
def maintain (s : DirectPool) (k : ℕ) (tick : Bool) : DirectPool :=
  if tick then
    if s.directClosed then s.become k .returned
    else if s.current < s.poolSize / 2 then s.become k (.refill (s.poolSize - s.current) true)
    else s
  else if s.done then s.become k .returned
  else s

/-- The mutex section of `closeDirectPool`. -/
def close (s : DirectPool) (k : ℕ) : DirectPool :=
  if s.unavailable then s.become k .closeReturned
  else { s with directClosed := true, directPool := false, calls := s.calls.set k .closing }

/-- `close(ch)`. -/
def closeChannel (s : DirectPool) (k : ℕ) : DirectPool :=
  if s.chanClosed then { s with panicked := true }
  else { s with chanClosed := true, calls := s.calls.set k .draining }

/-- One receive of `range ch`, with the `conn.Close()` that follows; it ends when the
channel is closed and empty, and blocks when it is only empty. -/
def drain (s : DirectPool) (k : ℕ) : DirectPool :=
  match s.buf with
  | conn :: rest => { s with buf := rest, closed := conn :: s.closed }
  | [] => if s.chanClosed then s.become k .closeReturned else s

/-- Call `k` goes on. -/
def resume (s : DirectPool) (k : ℕ) (ok : Bool) : Call → DirectPool
  | .get => s.become k (if s.unavailable then .dial else .receive)
  | .receive => s.receive k
  | .dial => s.dial k ok
  | .refill 0 loop => s.become k (afterRefill loop)
  | .refill (count + 1) loop =>
    s.become k (if s.done then afterRefill loop else .redial count loop)
  | .redial count loop => s.redial k count loop ok
  | .put conn count loop => s.put k conn count loop
  | .refused conn loop =>
    { s with closed := conn :: s.closed, calls := s.calls.set k (afterRefill loop) }
  | .maintain => s.maintain k ok
  | .close => s.close k
  | .closing => s.closeChannel k
  | .draining => s.drain k
  | .closeReturned => s
  | .returned => s

inductive Event where
  | getDirectConn
  | refillPool (count : ℕ)
  | maintainDirectPool
  | closeDirectPool
  /-- `close(c.done)` -/
  | stop
  /-- call `k` goes on; `ok` is the outcome of its dial, or of its `select` -/
  | resume (k : ℕ) (ok : Bool)
  deriving DecidableEq, Repr

/-- A new call. -/
def spawn (s : DirectPool) (t : Call) : DirectPool := { s with calls := s.calls ++ [t] }

def step (s : DirectPool) : Event → DirectPool
  | .getDirectConn => s.spawn .get
  | .refillPool count => s.spawn (.refill count false)
  | .maintainDirectPool => s.spawn .maintain
  | .closeDirectPool => s.spawn .close
  | .stop => { s with done := true }
  | .resume k ok => (s.calls[k]?.map (s.resume k ok)).getD s

end DirectPool
