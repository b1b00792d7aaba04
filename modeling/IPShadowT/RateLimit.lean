/-
# Rate limits

Model of `internal/ratelimit/limiter.go` and of its use by the server.  A limit is a token bucket
that `SetLimit` stores under a user ID; a connection that `WrapConn` wraps draws from the bucket
under the user ID it was wrapped with.  `Server.SetRateLimit` is called with an IP address, and
`handleConnection` wraps with the address of the peer, which has a port.

So no connection is held to such a limit (`always_limited_iff`).  Tokens and times are rational
numbers here.
-/
import Mathlib.Data.Rat.Floor
import IPShadowT.Server

open Go (int64)
open HostPort Runs

namespace RateLimit

/-! ## The limiter -/

/-- `Bucket`; times are in seconds. -/
structure Bucket where
  tokens : ℚ
  maxTokens : ℚ
  refillRate : ℚ
  lastRefill : ℚ
  deriving DecidableEq

/-- `Limiter`: the bucket of each user ID. -/
structure Limiter where
  buckets : Bytes → Option Bucket

/-- `NewLimiter`. -/
def newLimiter : Limiter := ⟨fun _ => none⟩

/-- `SetLimit`, at the time `now`. -/
def Limiter.setLimit (l : Limiter) (userID : Bytes) (bytesPerSecond burstSize : ℤ) (now : ℚ) :
    Limiter :=
  if bytesPerSecond ≤ 0 then ⟨Function.update l.buckets userID none⟩
  else
    let burstSize := if burstSize ≤ 0 then int64 (bytesPerSecond * 2) else burstSize
    ⟨Function.update l.buckets userID (some ⟨burstSize, burstSize, bytesPerSecond, now⟩)⟩

/-- `take`, at the time `now`: how many of `n` bytes are allowed. -/
def Bucket.take (b : Bucket) (n : ℕ) (now : ℚ) : ℕ × Bucket :=
  let elapsed := now - b.lastRefill
  let tokens := min (b.tokens + elapsed * b.refillRate) b.maxTokens
  let b := { b with tokens := tokens, lastRefill := now }
  if tokens ≤ 0 then (0, b)
  else
    let allowed := if (n : ℚ) > tokens then ⌊tokens⌋.toNat else n
    (allowed, { b with tokens := tokens - allowed })

/-- `Allow`. -/
def Limiter.allow (l : Limiter) (userID : Bytes) (n : ℕ) (now : ℚ) : ℕ × Limiter :=
  match l.buckets userID with
  | none => (n, l)
  | some b =>
    let (allowed, b) := b.take n now
    (allowed, ⟨Function.update l.buckets userID (some b)⟩)

/-- `RateLimitedConn`; each `Read` and `Write` asks `Allow` with the user ID. -/
structure RateLimitedConn where
  userID : Bytes
  deriving DecidableEq

/-- `WrapConn`; `none` is the connection as it was. -/
def Limiter.wrapConn (l : Limiter) (userID : Bytes) : Option RateLimitedConn :=
  match l.buckets userID with
  | none => none
  | some _ => some ⟨userID⟩

/-- `Server.SetRateLimit`. -/
def Limiter.setRateLimit (l : Limiter) (userID : Bytes) (bytesPerSec : ℤ) (now : ℚ) : Limiter :=
  l.setLimit userID bytesPerSec (int64 (bytesPerSec * 2)) now

/-- A connection draws from the bucket that it was wrapped for. -/
theorem wrapConn_userID (l : Limiter) {userID : Bytes} {c : RateLimitedConn}
    (h : l.wrapConn userID = some c) : c.userID = userID := by
  unfold Limiter.wrapConn at h
  split at h
  · cases h
  · rw [← Option.some.inj h]

/-! ## The server -/

/-- A connection that passed the handshake: its peer, the limit that `SetRateLimit` was last
called with for its IP address, and what `WrapConn` made of it. -/
structure Accepted where
  peer : Peer
  limit : ℤ
  conn : Option RateLimitedConn
  deriving DecidableEq

/-- A server with its limiter, the limit that `SetRateLimit` was last called with for each user
ID, and the connections so far. -/
structure State where
  server : Server.State
  limiter : Limiter
  limits : Bytes → ℤ
  accepted : List Accepted

/-- A step of the server, a call of `SetRateLimit`, or a call of `Allow` by a `Read` or `Write` of
a wrapped connection. -/
inductive Event where
  | server (e : Server.Event)
  | setRateLimit (userID : Bytes) (bytesPerSec : ℤ) (now : ℚ)
  | allow (userID : Bytes) (n : ℕ) (now : ℚ)

/-- The peer whose handshake succeeds in this step. -/
def acceptedPeer (s : Server.State) : Server.Event → Option Peer
  | .handshake peer ok _ _ => if peer ∈ s.inFlight ∧ ok then some peer else none
  | .arrive .. => none

/-- After the handshake the connection is wrapped under the address of the peer. -/
def step (cfg : Config) (s : State) : Event → State
  | .server e =>
    { s with
      server := Server.step cfg s.server e
      -- the limit is one of the IP address, the user ID is the address with its port
      accepted := s.accepted ++ (acceptedPeer s.server e).toList.map fun peer =>
        ⟨peer, s.limits peer.ip.text, s.limiter.wrapConn peer.addr⟩ }
  | .setRateLimit userID bytesPerSec now =>
    { s with
      limiter := s.limiter.setRateLimit userID bytesPerSec now
      limits := Function.update s.limits userID bytesPerSec }
  | .allow userID n now => { s with limiter := (s.limiter.allow userID n now).2 }

/-- A server without limits. -/
def State.init (m : Security.Manager) : State := ⟨Server.State.init m, newLimiter, fun _ => 0, []⟩

/-- If there is a limit for the IP address, the connection draws from its bucket. -/
def Accepted.Limited (a : Accepted) : Prop :=
  0 < a.limit → a.conn = some ⟨a.peer.ip.text⟩

instance (a : Accepted) : Decidable a.Limited := inferInstanceAs (Decidable (_ → _))

/-- Every connection from an address with a limit draws from the bucket of that address. -/
def State.AllLimited (s : State) : Prop := ∀ a ∈ s.accepted, a.Limited

/-- The step does not accept a connection from an address with a limit. -/
def State.Unlimited (s : State) : Event → Prop
  | .server e => ∀ peer ∈ acceptedPeer s.server e, s.limits peer.ip.text ≤ 0
  | .setRateLimit .. | .allow .. => True

section Steps

variable {cfg : Config} {s : State}

/-- A connection that is wrapped under the address of its peer does not draw from the bucket of
the IP address. -/
theorem wrapConn_addr_ne (l : Limiter) (peer : Peer) :
    l.wrapConn peer.addr ≠ some ⟨peer.ip.text⟩ := by
  intro h
  exact peer.addr_ne_text peer.ip (wrapConn_userID l h).symm

theorem allLimited_step_iff (e : Event) (hs : s.AllLimited) :
    (step cfg s e).AllLimited ↔ s.Unlimited e := by
  cases e with
  | setRateLimit userID bytesPerSec now => exact iff_of_true hs trivial
  | allow userID n now => exact iff_of_true hs trivial
  | server e =>
    simp only [State.AllLimited, State.Unlimited, step]
    cases acceptedPeer s.server e with
    | none =>
      refine iff_of_true (fun a ha => hs a ?_) nofun
      simpa using ha
    | some peer =>
      have hne := wrapConn_addr_ne s.limiter peer
      constructor
      · intro hall
        have hpeer := hall _ (List.mem_append_right _ List.mem_cons_self)
        simp only [Accepted.Limited, hne, imp_false, Int.not_lt] at hpeer
        simpa using hpeer
      · intro hlimit a ha
        rcases List.mem_append.1 ha with hold | hnew
        · exact hs a hold
        · obtain rfl := List.mem_singleton.1 hnew
          intro hpos
          exact absurd hpos (Int.not_lt.2 (hlimit peer rfl))

end Steps

/-- **Limits are kept** over a run of the server, of `SetRateLimit` and of transfers exactly if no
connection is accepted from an address that has one. -/
theorem always_limited_iff (cfg : Config) (m : Security.Manager) (es : List Event) :
    Always (step cfg) State.AllLimited (State.init m) es ↔
      EachStep (step cfg) State.Unlimited (State.init m) es := by
  refine always_iff_eachStep (fun s e => allLimited_step_iff e) ?_ es
  intro a ha
  cases ha

/-- A limit for `1.2.3.4`, and a connection from there. -/
def limitedVisit : List Event :=
  [.setRateLimit Server.exampleIP.text 1000 0, .server (.arrive Server.examplePeer 0),
    .server (.handshake Server.examplePeer true true 0)]

/-- The connection is not wrapped. -/
theorem limitedVisit_not_limited :
    let step := step (Server.bareConfig "server" true "")
    let start := State.init Security.newManager
    (run step start limitedVisit).accepted = [⟨Server.examplePeer, 1000, none⟩] ∧
      ¬ Always step State.AllLimited start limitedVisit := by
  intro step start
  have haccepted : (run step start limitedVisit).accepted = [⟨Server.examplePeer, 1000, none⟩] := by
    decide
  refine ⟨haccepted, fun h => ?_⟩
  have hlimited : Accepted.Limited ⟨Server.examplePeer, 1000, none⟩ :=
    h.last _ (by rw [haccepted]; exact List.mem_cons_self)
  exact absurd hlimited (by decide)

end RateLimit
