/-
# A forwarded connection, end to end

One connection to a forward of the client: `handleTCPConn` and `handleSOCKS5` of
`internal/tunnel/forwarder.go`, which open a stream, the latter after `socks5Handshake`, write the
destination header and call `mux.Relay` of `internal/mux/mux.go`; the stream; and `handleStream` of
`internal/server/server.go`, which reads the header, dials, and calls `relayWithMetrics`.  The two
relays are four goroutines, each a call of `utils.CopyRelay`:

    application --> appToStream --> stream --> streamToTarget --> target
    application <-- streamToApp <-- stream <-- targetToStream <-- target

`mux.Relay` closes the side it has written to when a copy ends, if that side has a `CloseWrite`;
`relayWithMetrics` does not.  Both close everything when both of their copies have ended.

The handshake makes one `Read` for each of its two messages.  What comes with them goes nowhere: the
relay starts behind it (`run_toTarget`).
-/
import IPShadowT.Lines
import IPShadowT.Runs
import IPShadowT.Socks5

open Bytes Lines Runs TunnelHeader

namespace Tunnel

/-! ## The goroutines -/

/-- The goroutines that copy. -/
inductive Copier where
  | appToStream
  | streamToTarget
  | targetToStream
  | streamToApp
  deriving DecidableEq, Repr

/-- The two ways through the tunnel. -/
inductive Dir where
  | up
  | down
  deriving DecidableEq, Repr

/-- What a copier is a stage of. -/
def Copier.dir : Copier → Dir
  | .appToStream | .streamToTarget => .up
  | .targetToStream | .streamToApp => .down

/-- Which stage it is. -/
def Copier.stage : Copier → ℕ
  | .appToStream | .targetToStream => 0
  | .streamToTarget | .streamToApp => 1

/-- Where the handler of the client is. -/
inductive Client where
  /-- before the first `Read` of the handshake -/
  | greeting
  /-- before the second one, with what the buffer holds -/
  | request (buf : Bytes)
  | opening (dest : Bytes)
  | replying
  | relaying
  /-- returned before the relay -/
  | refused
  /-- returned after it -/
  | returned
  deriving DecidableEq, Repr

/-- There is no stream yet. -/
def Client.early : Client → Bool
  | .greeting | .request _ | .opening _ => true
  | .replying | .relaying | .refused | .returned => false

/-- The handshake has answered the greeting, and there is no reply yet. -/
def Client.greeted : Client → Bool
  | .request _ | .opening _ | .replying => true
  | .greeting | .relaying | .refused | .returned => false

/-- There is a stream with a header. -/
def Client.opened : Client → Bool
  | .replying | .relaying | .returned => true
  | .greeting | .request _ | .opening _ | .refused => false

/-- Where the handler of the server is. -/
inductive Server where
  | readingHeader
  | dialing (dest : Bytes)
  | relaying
  | returned
  deriving DecidableEq, Repr

/-- The handlers of the client. -/
inductive Handler where
  /-- the destination is that of the forward -/
  | handleTCPConn (remote : Bytes)
  | handleSOCKS5
  deriving DecidableEq, Repr

/-- The handler, and whether the stream has a `CloseWrite`. -/
structure Setting where
  handler : Handler
  halfClose : Bool

namespace Setting

/-- Only `handleSOCKS5` writes to the application before the relay. -/
def toApp (set : Setting) (b : Bytes) : Bytes :=
  match set.handler with
  | .handleTCPConn _ => []
  | .handleSOCKS5 => b

/-- What the application gets in the handshake. -/
def method (set : Setting) : Bytes := set.toApp Socks5.methodReply

/-- What it gets before the relay. -/
def reply (set : Setting) : Bytes := set.toApp Socks5.successReply

/-- What it gets if there is no stream for it. -/
def refusal (set : Setting) : Bytes := set.toApp Socks5.failureReply

/-- Where the handler begins. -/
def start (set : Setting) : Client :=
  match set.handler with
  | .handleTCPConn remote => .opening remote
  | .handleSOCKS5 => .greeting

/-- The destination is the one to ask for, when the handshake has heard this. -/
def Asks (set : Setting) (heard : Source) (dest : Bytes) : Prop :=
  match set.handler with
  | .handleTCPConn remote => heard = [] ∧ dest = remote
  | .handleSOCKS5 => Socks5.socks5Handshake heard = (.ok dest, [], Socks5.methodReply)

end Setting

/-- A connection on its way through the tunnel. -/
structure State where
  /-- from the application to the target, which is the stage 2 -/
  up : Line UInt8
  /-- from the target to the application, which is the stage 2 -/
  down : Line UInt8
  client : Client
  server : Server
  /-- what the server has dialed -/
  dialed : Option Bytes
  /-- what the `Read`s of the handshake have returned -/
  heard : Source
  /-- whether a write of the handler to the application has failed, so that all others will -/
  broken : Bool
  /-- `metrics.BytesReceived` and `metrics.BytesSent`, as far as this stream goes -/
  bytesReceived : ℕ
  bytesSent : ℕ
  /-- what the application and the target have written in all -/
  appWrote : Bytes
  targetWrote : Bytes

/-- A connection that has just been accepted. -/
def State.init (set : Setting) : State :=
  ⟨.fresh, .fresh, set.start, .readingHeader, none, [], false, 0, 0, [], []⟩

namespace State

def line (s : State) : Dir → Line UInt8
  | .up => s.up
  | .down => s.down

/-- A change on a line. -/
def onLine (s : State) (d : Dir) (f : Line UInt8 → Line UInt8) : State :=
  match d with
  | .up => { s with up := f s.up }
  | .down => { s with down := f s.down }

def stage (s : State) (c : Copier) : Stage UInt8 := s.line c.dir c.stage

/-- Whether the relay that a copier belongs to has started. -/
def Started (s : State) : Copier → Prop
  | .appToStream | .streamToApp => s.client = .relaying
  | .streamToTarget | .targetToStream => s.server = .relaying

instance (s : State) (c : Copier) : Decidable (s.Started c) := by
  cases c <;> exact inferInstanceAs (Decidable (_ = _))

/-- A copier that is waiting for something to read. -/
def Reading (s : State) (c : Copier) : Prop :=
  s.Started c ∧ (s.stage c).ended = false ∧ (s.stage c).held = []

/-- A copier that has something to write. -/
def Writing (s : State) (c : Copier) : Prop :=
  s.Started c ∧ (s.stage c).ended = false ∧ (s.stage c).held ≠ []

instance (s : State) (c : Copier) : Decidable (s.Reading c) :=
  inferInstanceAs (Decidable (_ ∧ _ ∧ _))

instance (s : State) (c : Copier) : Decidable (s.Writing c) :=
  inferInstanceAs (Decidable (_ ∧ _ ∧ _))

/-- The goroutine of a copier when `CopyRelay` has returned: `mux.Relay` closes the side that has
been written to if it can, `relayWithMetrics` counts. -/
def finish (set : Setting) (s : State) (c : Copier) : State :=
  { s with
    up :=
      match c with
      | .appToStream => if set.halfClose then (s.up.finish 0).close 1 else s.up.finish 0
      | .streamToTarget => s.up.finish 1
      | .targetToStream | .streamToApp => s.up
    down :=
      match c with
      | .targetToStream => s.down.finish 0
      | .streamToApp => (s.down.finish 1).close 2
      | .appToStream | .streamToTarget => s.down
    bytesReceived := s.bytesReceived + if c = .streamToTarget then (s.up 1).passed else 0
    bytesSent := s.bytesSent + if c = .targetToStream then (s.down 0).passed else 0 }

/-- A `Read` of the handshake returns `b`. -/
def hear (s : State) (b : Bytes) : State :=
  { s with
    heard := s.heard ++ [b]
    up := s.up.modify 0 fun t => { t with incoming := t.incoming.drop b.length } }

/-- The handler of the client writes to the application, if it has anything to write; `none` is
success, and `some k` an error after `k` bytes. -/
def tell (s : State) (b : Bytes) (result : Option ℕ) : State :=
  if b = [] ∨ s.broken then s
  else
    match result with
    | none => { s with down := s.down.give 2 b }
    | some k => { s with broken := true, down := s.down.give 2 (b.take k) }

/-- The handler of the client returns without a stream: `conn.Close()`. -/
def closeConn (s : State) : State := { s with client := .refused, down := s.down.close 2 }

/-- The handler of the client returns: `stream.Close()` and `conn.Close()`. -/
def closeClient (s : State) (client : Client) : State :=
  { s with client := client, up := s.up.close 1, down := s.down.close 2 }

/-- The handler of the server returns before the relay: `stream.Close()`. -/
def closeStream (s : State) : State :=
  { s with server := .returned, down := s.down.close 1 }

/-- The handler of the server returns after the relay: `destConn.Close()` and
`stream.Close()`. -/
def closeServer (s : State) : State :=
  { s with server := .returned, up := s.up.close 2, down := s.down.close 1 }

end State

/-! ## Steps -/

/-- What can happen; `none` for a write is success, and `some k` an error after `k` bytes. -/
inductive Event where
  | appWrite (b : Bytes)
  | appClose
  | targetWrite (b : Bytes)
  | targetClose
  /-- the first `Read` of the handshake, of at most `k + 1` bytes, and the answer -/
  | readGreeting (k : ℕ) (told : Option ℕ)
  /-- the second `Read` -/
  | readRequest (k : ℕ)
  /-- a `Read` of the handshake fails, or its time is over -/
  | handshakeFail
  /-- `getStream` fails, and the refusal is written -/
  | noStream (told : Option ℕ)
  /-- `getStream` and `WriteDestHeader`; if that fails, the refusal is written -/
  | writeHeader (result told : Option ℕ)
  | writeReply (told : Option ℕ)
  | readHeader
  | dial (ok : Bool)
  /-- at most `k + 1` bytes -/
  | read (c : Copier) (k : ℕ)
  | readEnd (c : Copier)
  | readFail (c : Copier)
  | write (c : Copier) (result : Option ℕ)
  | clientReturn
  | serverReturn
  deriving DecidableEq, Repr

/-- What a `Read` of the handshake returns, if it may return `k + 1` bytes. -/
def State.message (s : State) (k : ℕ) : Bytes := (s.up 0).incoming.take (min (k + 1) 258)

/-- A step.  A `Read` returns what there is, or the end if there is nothing and no more to
come, and waits otherwise. -/
def step (set : Setting) (s : State) : Event → State
  | .appWrite b =>
    if (s.up 0).fin then s else { s with up := s.up.give 0 b, appWrote := s.appWrote ++ b }
  | .appClose => { s with up := s.up.close 0 }
  | .targetWrite b =>
    if s.server = .relaying ∧ (s.down 0).fin = false then
      { s with down := s.down.give 0 b, targetWrote := s.targetWrote ++ b }
    else s
  | .targetClose => if s.server = .relaying then { s with down := s.down.close 0 } else s
  | .readGreeting k told =>
    if s.client = .greeting ∧ s.message k ≠ [] then
      match Socks5.checkGreeting (s.message k) with
      | .error _ => (s.hear (s.message k)).closeConn
      | .ok buf => { (s.hear (s.message k)).tell set.method told with client := .request buf }
    else s
  | .readRequest k =>
    match s.client with
    | .request buf =>
      if s.message k = [] then s
      else
        match Socks5.checkRequest buf (s.message k) with
        | .error _ => (s.hear (s.message k)).closeConn
        | .ok dest => { s.hear (s.message k) with client := .opening dest }
    | _ => s
  | .handshakeFail =>
    match s.client with
    | .greeting | .request _ => s.closeConn
    | _ => s
  | .noStream told =>
    match s.client with
    | .opening _ => (s.tell set.refusal told).closeConn
    | _ => s
  | .writeHeader result told =>
    match s.client with
    | .opening dest =>
      match writeDestHeader ⟨[], [result]⟩ dest with
      | (.ok (), stream) => { s with client := .replying, up := s.up.give 1 stream.written }
      | (.error _, stream) =>
        ({ s with up := s.up.give 1 stream.written }.tell set.refusal told).closeClient
          .refused
    | _ => s
  | .writeReply told =>
    if s.client = .replying then { s.tell set.reply told with client := .relaying } else s
  | .readHeader =>
    if s.server = .readingHeader then
      match readDestHeader [(s.up 1).incoming] with
      | (.ok dest, rest) =>
        { s with
          server := .dialing dest
          up := s.up.modify 1 fun t => { t with incoming := rest.flatten } }
      | (.error (.read _), _) => if (s.up 1).fin then s.closeStream else s
      | (.error (.invalidLength _), _) => s.closeStream
    else s
  | .dial ok =>
    match s.server with
    | .dialing dest =>
      if ok then { s with server := .relaying, dialed := some dest }
      else { s with dialed := some dest }.closeStream
    | _ => s
  | .read c k => if s.Reading c then s.onLine c.dir fun l => l.read c.stage (k + 1) else s
  | .readEnd c =>
    if s.Reading c ∧ (s.stage c).incoming = [] ∧ (s.stage c).fin then s.finish set c else s
  | .readFail c => if s.Reading c then s.finish set c else s
  | .write c result =>
    if s.Writing c then
      match (if c = .streamToApp ∧ s.broken then some 0 else result) with
      | none => s.onLine c.dir fun l => l.pass c.stage (s.stage c).held.length
      | some k => (s.onLine c.dir fun l => l.pass c.stage k).finish set c
    else s
  | .clientReturn =>
    if s.client = .relaying ∧ (s.up 0).ended ∧ (s.down 1).ended then s.closeClient .returned
    else s
  | .serverReturn =>
    if s.server = .relaying ∧ (s.up 1).ended ∧ (s.down 0).ended then s.closeServer else s

/-! ## The header -/

/-- The header, if the destination is short enough for one. -/
def head (dest : Bytes) : Bytes := beBytes 2 dest.length ++ dest

variable {dest : Bytes} {c : Copier} {s' : State} {b : Bytes} {k : ℕ} {rest : Source}

/-- A header that was written was short enough. -/
theorem writeDestHeader_ok {result : Option ℕ} {stream : Sink}
    (h : writeDestHeader ⟨[], [result]⟩ dest = (.ok (), stream)) :
    dest.length ≤ maxDestLen ∧ stream.written = head dest := by
  unfold writeDestHeader at h
  split_ifs at h with hlen
  · cases h
  · refine ⟨Nat.not_lt.1 hlen, ?_⟩
    cases result with
    | none =>
      cases h
      rfl
    | some k => cases h

/-- A header that was not written may have been written in part. -/
theorem writeDestHeader_error {result : Option ℕ} {e : WriteHeaderError} {stream : Sink}
    (h : writeDestHeader ⟨[], [result]⟩ dest = (.error e, stream)) :
    stream.written = [] ∨ (dest.length ≤ maxDestLen ∧ stream.written <+: head dest) := by
  unfold writeDestHeader at h
  split_ifs at h with hlen
  · cases h
    exact .inl rfl
  · refine .inr ⟨Nat.not_lt.1 hlen, ?_⟩
    cases result with
    | none => cases h
    | some k =>
      cases h
      exact List.take_prefix ..

/-- What is read as a header is the header, if there is nothing else on the stream. -/
theorem readDestHeader_of_prefix {q dest d : Bytes} (hlen : dest.length ≤ maxDestLen)
    (hq : q <+: head dest) (h : readDestHeader [q] = (.ok d, rest)) :
    d = dest ∧ rest.flatten = [] := by
  obtain ⟨hpos, hle, hstream⟩ := readDestHeader_eq_ok h
  rw [List.flatten_singleton] at hstream
  obtain ⟨t, ht⟩ := hq
  rw [head, hstream, List.append_assoc, List.append_assoc] at ht
  obtain ⟨hfield, hdest⟩ := List.append_inj ht (by rw [length_beBytes, length_beBytes])
  have hlength : d.length = dest.length := by
    have hnum := congrArg beNat hfield
    rw [beNat_beBytes, beNat_beBytes, Nat.mod_eq_of_lt (hle.trans_lt (by decide)),
      Nat.mod_eq_of_lt (hlen.trans_lt (by decide))] at hnum
    exact hnum
  have happend : d ++ (rest.flatten ++ t) = dest ++ [] := by rw [hdest, List.append_nil]
  obtain ⟨hd, hrest⟩ := List.append_inj happend hlength
  exact ⟨hd, (List.append_eq_nil_iff.1 hrest).1⟩

/-! ## What a step can do -/

/-- Of `b`, the first `k` bytes reach the application, which may already be out of reach; only then,
or if all of them do, the write does not fail. -/
def Told (broken : Bool) (b : Bytes) (k : ℕ) (failed : Bool) : Prop :=
  (broken = true → k = 0) ∧ (failed = false → broken = false ∧ b.length ≤ k)

/-- What a write of the handler to the application does. -/
theorem tell_cases (s : State) (b : Bytes) (result : Option ℕ) :
    ∃ k failed, s.tell b result = { s with broken := failed, down := s.down.give 2 (b.take k) } ∧
      Told s.broken b k failed := by
  unfold State.tell
  split_ifs with hnone
  · refine ⟨0, s.broken, ?_, fun _ => rfl, fun hb => ⟨hb, ?_⟩⟩
    · rw [List.take_zero, Line.give_nil]
    · rcases hnone with rfl | hbroken
      · exact Nat.le_refl 0
      · exact absurd (hb.symm.trans hbroken) (by decide)
  · obtain ⟨-, hb⟩ := not_or.1 hnone
    have hb : s.broken = false := Bool.eq_false_iff.2 hb
    cases result with
    | none =>
      refine ⟨b.length, false, ?_, fun hbroken => ?_, fun _ => ⟨hb, Nat.le_refl _⟩⟩
      · rw [List.take_length, ← hb]
      · exact absurd (hb.symm.trans hbroken) (by decide)
    | some k =>
      refine ⟨k, true, rfl, fun hbroken => ?_, nofun⟩
      exact absurd (hb.symm.trans hbroken) (by decide)

/-- The outcomes of a step. -/
inductive Move (set : Setting) (s : State) : State → Prop where
  | stay : Move set s s
  | appWrite (b : Bytes) : Move set s { s with up := s.up.give 0 b, appWrote := s.appWrote ++ b }
  | appClose : Move set s { s with up := s.up.close 0 }
  | targetWrite (b : Bytes) :
      Move set s { s with down := s.down.give 0 b, targetWrote := s.targetWrote ++ b }
  | targetClose : Move set s { s with down := s.down.close 0 }
  | greet (hc : s.client = .greeting) {a buf : Bytes} (ha : a <+: (s.up 0).incoming)
      (hlen : a.length ≤ 258) (hbuf : Socks5.checkGreeting a = .ok buf) {k : ℕ} {failed : Bool}
      (hk : Told s.broken set.method k failed) :
      Move set s { s.hear a with
        client := .request buf, broken := failed, down := s.down.give 2 (set.method.take k) }
  | ask {buf : Bytes} (hc : s.client = .request buf) {b dest : Bytes}
      (hb : b <+: (s.up 0).incoming) (hlen : b.length ≤ 258)
      (hdest : Socks5.checkRequest buf b = .ok dest) :
      Move set s { s.hear b with client := .opening dest }
  /-- the handshake hears nothing -/
  | giveUp (hc : s.client.early = true) : Move set s s.closeConn
  /-- the handshake hears something else -/
  | mishear (hc : s.client.early = true) {b : Bytes} (hb : b <+: (s.up 0).incoming) :
      Move set s (s.hear b).closeConn
  /-- there is no stream -/
  | hangUp {dest : Bytes} (hc : s.client = .opening dest) {k : ℕ} {failed : Bool}
      (hk : s.broken = true → k = 0) :
      Move set s
        { s with broken := failed, down := s.down.give 2 (set.refusal.take k) }.closeConn
  /-- with or without a part of the header on the stream -/
  | refuse {dest : Bytes} (hc : s.client = .opening dest) {b : Bytes}
      (hb : b = [] ∨ (dest.length ≤ maxDestLen ∧ b <+: head dest)) {k : ℕ} {failed : Bool}
      (hk : s.broken = true → k = 0) :
      Move set s ({ s with
        up := s.up.give 1 b
        broken := failed
        down := s.down.give 2 (set.refusal.take k) }.closeClient .refused)
  | sendHeader {dest : Bytes} (hc : s.client = .opening dest) (hlen : dest.length ≤ maxDestLen) :
      Move set s { s with client := .replying, up := s.up.give 1 (head dest) }
  | reply (hc : s.client = .replying) {k : ℕ} {failed : Bool}
      (hk : Told s.broken set.reply k failed) :
      Move set s { s with
        client := .relaying, broken := failed, down := s.down.give 2 (set.reply.take k) }
  | header (hs : s.server = .readingHeader) {dest : Bytes} {rest : Source}
      (hread : readDestHeader [(s.up 1).incoming] = (.ok dest, rest)) :
      Move set s { s with
        server := .dialing dest
        up := s.up.modify 1 fun t => { t with incoming := rest.flatten } }
  | noHeader (hs : s.server = .readingHeader) {e : HeaderError} {rest : Source}
      (hread : readDestHeader [(s.up 1).incoming] = (.error e, rest))
      (hend : (s.up 1).fin = true ∨ ∃ n, e = .invalidLength n) : Move set s s.closeStream
  | dial {dest : Bytes} (hs : s.server = .dialing dest) :
      Move set s { s with server := .relaying, dialed := some dest }
  | dialFail {dest : Bytes} (hs : s.server = .dialing dest) :
      Move set s { s with dialed := some dest }.closeStream
  | read {c : Copier} (hc : s.Reading c) (k : ℕ) :
      Move set s (s.onLine c.dir fun l => l.read c.stage k)
  | finish {c : Copier} (hc : s.Reading c) : Move set s (s.finish set c)
  /-- a broken connection takes nothing -/
  | pass {c : Copier} (hc : s.Writing c) {k : ℕ} (hk : c = .streamToApp → s.broken = true → k = 0) :
      Move set s (s.onLine c.dir fun l => l.pass c.stage k)
  | passFail {c : Copier} (hc : s.Writing c) {k : ℕ}
      (hk : c = .streamToApp → s.broken = true → k = 0) :
      Move set s ((s.onLine c.dir fun l => l.pass c.stage k).finish set c)
  | clientReturn (hc : s.client = .relaying) : Move set s (s.closeClient .returned)
  | serverReturn (hs : s.server = .relaying) : Move set s s.closeServer

variable {set : Setting} {s : State}

/-- What a `Read` returns is at the front, and no longer than the buffer. -/
theorem message_prefix (s : State) (k : ℕ) :
    s.message k <+: (s.up 0).incoming ∧ (s.message k).length ≤ 258 := by
  refine ⟨List.take_prefix .., ?_⟩
  rw [State.message, List.length_take]
  omega

theorem move_readGreeting (hc : s.client = .greeting) (k : ℕ) (told : Option ℕ) :
    Move set s (step set s (.readGreeting k told)) := by
  obtain ⟨hfront, hlen⟩ := message_prefix s k
  rw [step]
  split_ifs
  · cases hgreeting : Socks5.checkGreeting (s.message k) with
    | error e => exact .mishear (by rw [hc]; rfl) hfront
    | ok buf =>
      obtain ⟨n, failed, htell, htold⟩ := tell_cases (s.hear (s.message k)) set.method told
      dsimp only
      rw [htell]
      exact .greet hc hfront hlen hgreeting htold
  · exact .stay

theorem move_readRequest {buf : Bytes} (hc : s.client = .request buf) (k : ℕ) :
    Move set s (step set s (.readRequest k)) := by
  obtain ⟨hfront, hlen⟩ := message_prefix s k
  simp only [step, hc]
  split_ifs
  · exact .stay
  · cases hrequest : Socks5.checkRequest buf (s.message k) with
    | error e => exact .mishear (by rw [hc]; rfl) hfront
    | ok dest => exact .ask hc hfront hlen hrequest

theorem move_writeHeader (hc : s.client = .opening dest) (result told : Option ℕ) :
    Move set s (step set s (.writeHeader result told)) := by
  simp only [step, hc]
  rcases hwrite : writeDestHeader ⟨[], [result]⟩ dest with ⟨_ | _, stream⟩
  · obtain ⟨k, failed, htell, htold⟩ := tell_cases
      { s with client := .opening dest, up := s.up.give 1 stream.written } set.refusal told
    dsimp only
    rw [htell]
    exact .refuse hc (writeDestHeader_error hwrite) htold.1
  · obtain ⟨hlen, hwritten⟩ := writeDestHeader_ok hwrite
    dsimp only
    rw [hwritten]
    exact .sendHeader hc hlen

theorem move_readHeader (hs : s.server = .readingHeader) : Move set s (step set s .readHeader) := by
  rw [step, if_pos hs]
  rcases hread : readDestHeader [(s.up 1).incoming] with ⟨(e | n) | dest, rest⟩
  · dsimp only
    split_ifs with hfin
    · exact .noHeader hs hread (.inl hfin)
    · exact .stay
  · exact .noHeader hs hread (.inr ⟨n, rfl⟩)
  · exact .header hs hread

theorem move_write (hc : s.Writing c) (result : Option ℕ) :
    Move set s (step set s (.write c result)) := by
  rw [step, if_pos hc]
  by_cases hb : c = .streamToApp ∧ s.broken = true
  · rw [if_pos hb]
    exact .passFail hc fun _ _ => rfl
  · have hk : ∀ k, c = .streamToApp → s.broken = true → k = 0 :=
      fun _ happ hbroken => absurd ⟨happ, hbroken⟩ hb
    rw [if_neg hb]
    cases result with
    | none => exact .pass hc (hk _)
    | some k => exact .passFail hc (hk k)

variable (set s) in
/-- **What a step can do.** -/
theorem move_step (e : Event) : Move set s (step set s e) := by
  cases e with
  | appWrite b => rw [step]; split_ifs; exacts [.stay, .appWrite b]
  | appClose => exact .appClose
  | targetWrite b => rw [step]; split_ifs; exacts [.targetWrite b, .stay]
  | targetClose => rw [step]; split_ifs; exacts [.targetClose, .stay]
  | readGreeting k told =>
    by_cases hc : s.client = .greeting
    · exact move_readGreeting hc k told
    · rw [step, if_neg fun h => hc h.1]
      exact .stay
  | readRequest k =>
    cases hc : s.client with
    | request buf => exact move_readRequest hc k
    | _ => simp only [step, hc]; exact .stay
  | handshakeFail =>
    cases hc : s.client with
    | greeting | request buf => simp only [step, hc]; exact .giveUp (by rw [hc]; rfl)
    | _ => simp only [step, hc]; exact .stay
  | noStream told =>
    cases hc : s.client with
    | opening dest =>
      obtain ⟨k, failed, htell, htold⟩ := tell_cases s set.refusal told
      simp only [step, hc]
      rw [htell]
      exact .hangUp hc htold.1
    | _ => simp only [step, hc]; exact .stay
  | writeHeader result told =>
    cases hc : s.client with
    | opening dest => exact move_writeHeader hc result told
    | _ => simp only [step, hc]; exact .stay
  | writeReply told =>
    rw [step]
    split_ifs with hc
    · obtain ⟨k, failed, htell, htold⟩ := tell_cases s set.reply told
      rw [htell]
      exact .reply hc htold
    · exact .stay
  | readHeader =>
    by_cases hs : s.server = .readingHeader
    · exact move_readHeader hs
    · rw [step, if_neg hs]
      exact .stay
  | dial ok =>
    rcases hs : s.server with _ | dest | _ | _ <;> simp only [step, hs]
    case dialing => split_ifs; exacts [.dial hs, .dialFail hs]
    all_goals exact .stay
  | read c k => rw [step]; split_ifs with hc; exacts [.read hc _, .stay]
  | readEnd c => rw [step]; split_ifs with hc; exacts [.finish hc.1, .stay]
  | readFail c => rw [step]; split_ifs with hc; exacts [.finish hc, .stay]
  | write c result =>
    by_cases hc : s.Writing c
    · exact move_write hc result
    · rw [step, if_neg hc]
      exact .stay
  | clientReturn => rw [step]; split_ifs with hc; exacts [.clientReturn hc.1, .stay]
  | serverReturn => rw [step]; split_ifs with hs; exacts [.serverReturn hs.1, .stay]

/-! ## Up -/

/-- Where the header and the bytes of the application are; `P` is for the destinations that may
stand in a header. -/
inductive Upward (P : Bytes → Prop) (client : Client) (server : Server) (up : Line UInt8)
    (wrote : Bytes) : Prop where
  /-- there is no stream yet -/
  | early (hc : client.early = true) (hs : server = .readingHeader) (hfin : (up 1).fin = false)
      (hzero : (up 0).held = []) (hheld : (up 1).held = []) (hin : (up 1).incoming = [])
      (htwo : (up 2).incoming = []) (hflow : up.flow 2 = wrote)
  /-- the header is on the stream, and what comes behind it is the application's -/
  | header (hc : client.opened = true) (hs : server = .readingHeader) {d : Bytes} (hd : P d)
      (hlen : d.length ≤ maxDestLen) (hheld : (up 1).held = [])
      (hhead : head d <+: (up 1).incoming) (htwo : (up 2).incoming = [])
      (hflow : up.flow 2 = head d ++ wrote)
  /-- the server has read the header -/
  | relaying (hc : client.opened = true) (hs : server ≠ .readingHeader) (hflow : up.flow 2 = wrote)
  /-- the client has given up, with or without a part of the header on the stream -/
  | refused (hc : client = .refused) (hheld : (up 1).held = []) (htwo : (up 2).incoming = [])
      (hone : server = .returned ∨ (up 1).incoming = [] ∨
        (server = .readingHeader ∧ ∃ d, P d ∧ d.length ≤ maxDestLen ∧ (up 1).incoming <+: head d))
  /-- the server has given up, since there is no destination in the header -/
  | rejected (hc : client.opened = true) (hs : server = .returned) (htwo : (up 2).incoming = [])

/-- What the handshake has heard so far. -/
def Hears (set : Setting) (heard : Source) : Client → Prop
  | .greeting => set.handler = .handleSOCKS5 ∧ heard = []
  | .request buf =>
    set.handler = .handleSOCKS5 ∧
      ∃ a, heard = [a] ∧ a.length ≤ 258 ∧ Socks5.checkGreeting a = .ok buf
  | .opening dest => set.Asks heard dest
  | _ => True

/-- Nothing that is on the way to the target is out of order, and the server dials what the header
says. -/
structure UpInv (set : Setting) (s : State) : Prop where
  held : (s.up 2).held = []
  hears : Hears set s.heard s.client
  place : ∃ wrote, s.appWrote = s.heard.flatten ++ wrote ∧
    Upward (set.Asks s.heard) s.client s.server s.up wrote
  undialed : s.client.early = true → s.dialed = none
  dialing : ∀ d, s.server = .dialing d → set.Asks s.heard d
  dialed : ∀ d, s.dialed = some d → set.Asks s.heard d

section Upward

variable {P : Bytes → Prop} {client client' : Client} {server server' : Server}
variable {up up' : Line UInt8} {wrote : Bytes}

/-- What is on the stream and at the target stays there. -/
theorem Upward.same (h : Upward P client server up wrote) (hheld : (up' 1).held = (up 1).held)
    (hin : (up' 1).incoming = (up 1).incoming) (htwo : (up' 2).incoming = (up 2).incoming)
    (hflow : up'.flow 2 = up.flow 2)
    (hearly : client.early = true → (up' 1).fin = (up 1).fin ∧ (up' 0).held = (up 0).held) :
    Upward P client server up' wrote := by
  cases h with
  | early hc hs hfin hzero hheld' hin' htwo' hflow' =>
    obtain ⟨hfin', hzero'⟩ := hearly hc
    exact .early hc hs (hfin'.trans hfin) (hzero'.trans hzero) (hheld.trans hheld')
      (hin.trans hin') (htwo.trans htwo') (hflow.trans hflow')
  | header hc hs hd hlen hheld' hhead htwo' hflow' =>
    exact .header hc hs hd hlen (hheld.trans hheld') (hin ▸ hhead) (htwo.trans htwo')
      (hflow.trans hflow')
  | relaying hc hs hflow' => exact .relaying hc hs (hflow.trans hflow')
  | refused hc hheld' htwo' hone =>
    exact .refused hc (hheld.trans hheld') (htwo.trans htwo') (hin ▸ hone)
  | rejected hc hs htwo' => exact .rejected hc hs (htwo.trans htwo')

theorem Upward.of_same (h : Upward P client server up wrote) (hsame : Line.Same up' up)
    (hfin : client.early = true → (up' 1).fin = (up 1).fin) : Upward P client server up' wrote :=
  h.same (hsame 1).1 (hsame 1).2 (hsame 2).2 (hsame.flow 2) fun hc => ⟨hfin hc, (hsame 0).1⟩

/-- The application writes more. -/
theorem Upward.give (h : Upward P client server up wrote) (b : Bytes) :
    Upward P client server (up.give 0 b) (wrote ++ b) := by
  have hflow' := up.flow_give_zero b 2
  cases h with
  | early hc hs hfin hzero hheld hin htwo hflow =>
    exact .early hc hs hfin hzero hheld hin htwo (by rw [hflow', hflow])
  | header hc hs hd hlen hheld hhead htwo hflow =>
    exact .header hc hs hd hlen hheld hhead htwo (by rw [hflow', hflow, List.append_assoc])
  | relaying hc hs hflow => exact .relaying hc hs (by rw [hflow', hflow])
  | refused hc hheld htwo hone => exact .refused hc hheld htwo hone
  | rejected hc hs htwo => exact .rejected hc hs htwo

theorem Client.not_early_of_opened (h : client.opened = true) : client.early = false := by
  cases client <;> first | rfl | cases h

/-- The handler of the client goes on, with a stream. -/
theorem Upward.goesOn (h : Upward P client server up wrote) (hc : client.opened = true)
    (hc' : client'.opened = true) : Upward P client' server up wrote := by
  cases h with
  | early h' => exact absurd (h'.symm.trans (Client.not_early_of_opened hc)) (by decide)
  | header _ hs hd hlen hheld hhead htwo hflow =>
    exact .header hc' hs hd hlen hheld hhead htwo hflow
  | relaying _ hs hflow => exact .relaying hc' hs hflow
  | refused h' => rw [h'] at hc; cases hc
  | rejected _ hs htwo => exact .rejected hc' hs htwo

/-- The handler of the server goes on, past the header. -/
theorem Upward.served (h : Upward P client server up wrote) (hs : server ≠ .readingHeader)
    (hret : server ≠ .returned) (hs' : server' ≠ .readingHeader) :
    Upward P client server' up wrote := by
  cases h with
  | early _ h' => exact absurd h' hs
  | header _ h' => exact absurd h' hs
  | relaying hc _ hflow => exact .relaying hc hs' hflow
  | refused hc hheld htwo hone =>
    have hin : (up 1).incoming = [] :=
      (hone.resolve_left hret).resolve_right fun h' => hs h'.1
    exact .refused hc hheld htwo (.inr (.inl hin))
  | rejected _ h' => exact absurd h' hret

/-- Before there is a stream, all that the application has written waits for the handler. -/
theorem Upward.of_early (h : Upward P client server up wrote) (hc : client.early = true) :
    server = .readingHeader ∧ (up 1).fin = false ∧ (up 0).held = [] ∧ (up 1).held = [] ∧
      (up 1).incoming = [] ∧ (up 2).incoming = [] ∧ up.flow 2 = wrote := by
  cases h with
  | early _ hs hfin hzero hheld hin htwo hflow => exact ⟨hs, hfin, hzero, hheld, hin, htwo, hflow⟩
  | header h' => exact absurd (hc.symm.trans (Client.not_early_of_opened h')) (by decide)
  | relaying h' => exact absurd (hc.symm.trans (Client.not_early_of_opened h')) (by decide)
  | refused h' => rw [h'] at hc; cases hc
  | rejected h' => exact absurd (hc.symm.trans (Client.not_early_of_opened h')) (by decide)

/-- Once the server relays. -/
theorem Upward.of_relaying (h : Upward P client server up wrote) (hs : server = .relaying) :
    (client.opened = true ∧ up.flow 2 = wrote)
      ∨ (client = .refused ∧ (up 1).held = [] ∧ (up 1).incoming = [] ∧ (up 2).incoming = []) := by
  cases h with
  | early _ h' => exact nomatch hs.symm.trans h'
  | header _ h' => exact nomatch hs.symm.trans h'
  | relaying hc _ hflow => exact .inl ⟨hc, hflow⟩
  | refused hc hheld htwo hone =>
    rcases hone with h' | hin | ⟨h', -⟩
    · exact nomatch hs.symm.trans h'
    · exact .inr ⟨hc, hheld, hin, htwo⟩
    · exact nomatch hs.symm.trans h'
  | rejected _ h' => exact nomatch hs.symm.trans h'

end Upward

/-- While there is no stream, the server waits for one. -/
theorem UpInv.server_early (h : UpInv set s) (hc : s.client.early = true) :
    s.server = .readingHeader := by
  obtain ⟨wrote, -, hplace⟩ := h.place
  exact (hplace.of_early hc).1

/-- A copier runs when the client has opened the stream. -/
theorem UpInv.not_early (h : UpInv set s) (hc : s.Started c) : s.client.early = false := by
  rw [← Bool.not_eq_true]
  intro hearly
  have hs := h.server_early hearly
  cases c with
  | appToStream | streamToApp =>
    have hclient : s.client = .relaying := hc
    rw [hclient] at hearly
    cases hearly
  | streamToTarget | targetToStream => exact nomatch hs.symm.trans hc

/-- A change of the line alone, while there is a stream. -/
theorem UpInv.onUp (h : UpInv set s) (up : Line UInt8) (hheld : (up 2).held = [])
    (hplace : ∀ wrote, Upward (set.Asks s.heard) s.client s.server s.up wrote →
      Upward (set.Asks s.heard) s.client s.server up wrote) (down : Line UInt8) (n m : ℕ) :
    UpInv set { s with up := up, down := down, bytesReceived := n, bytesSent := m } := by
  obtain ⟨wrote, hwrote, hupward⟩ := h.place
  exact ⟨hheld, h.hears, ⟨wrote, hwrote, hplace wrote hupward⟩, h.undialed, h.dialing, h.dialed⟩

/-- Nothing moves when a copier ends. -/
theorem same_finish (set : Setting) (s : State) (c : Copier) :
    Line.Same (s.finish set c).up s.up ∧ Line.Same (s.finish set c).down s.down := by
  have hrefl : ∀ l : Line UInt8, Line.Same l l := fun _ _ => ⟨rfl, rfl⟩
  cases c with
  | appToStream =>
    refine ⟨?_, hrefl _⟩
    unfold State.finish
    dsimp only
    split_ifs
    · exact (Line.same_close _ 1).trans (Line.same_finish s.up 0)
    · exact Line.same_finish s.up 0
  | streamToTarget => exact ⟨Line.same_finish s.up 1, hrefl _⟩
  | targetToStream => exact ⟨hrefl _, Line.same_finish s.down 0⟩
  | streamToApp =>
    exact ⟨hrefl _, (Line.same_close _ 2).trans (Line.same_finish s.down 1)⟩

/-- A copier ends. -/
theorem UpInv.finish (h : UpInv set s) (c : Copier) (hc : s.client.early = false) :
    UpInv set (s.finish set c) := by
  have hsame := (same_finish set s c).1
  refine h.onUp _ ((hsame 2).1.trans h.held) (fun wrote hplace => ?_) _ _ _
  exact hplace.of_same hsame fun hearly => absurd (hearly.symm.trans hc) (by decide)

/-- A copier reads. -/
theorem UpInv.read (h : UpInv set s) (hc : s.Reading c) (k : ℕ) :
    UpInv set (s.onLine c.dir fun l => l.read c.stage k) := by
  cases c with
  | targetToStream | streamToApp => exact h.onUp s.up h.held (fun _ hplace => hplace) _ _ _
  | appToStream =>
    refine h.onUp (s.up.read 0 k) h.held (fun wrote hplace => ?_) _ _ _
    refine hplace.same rfl rfl rfl (s.up.flow_read 0 k 2) fun hearly => ?_
    exact absurd (hearly.symm.trans (h.not_early hc.1)) (by decide)
  | streamToTarget =>
    have hrun : s.server = .relaying := hc.1
    refine h.onUp (s.up.read 1 k) h.held (fun wrote hplace => ?_) _ _ _
    rcases hplace.of_relaying hrun with ⟨hc', hflow⟩ | ⟨hc', hheld, hin, htwo⟩
    · have hflow' := (s.up.flow_read 1 k 2).trans hflow
      exact .relaying hc' (fun hs => nomatch hs.symm.trans hrun) hflow'
    · refine .refused hc' ?_ htwo (.inr (.inl ?_))
      · show (s.up.read 1 k 1).held = []
        simp [hheld, hin]
      · show (s.up.read 1 k 1).incoming = []
        simp [hin]

/-- A copier writes. -/
theorem UpInv.pass (h : UpInv set s) (hc : s.Writing c) (k : ℕ) :
    UpInv set (s.onLine c.dir fun l => l.pass c.stage k) := by
  cases c with
  | targetToStream | streamToApp => exact h.onUp s.up h.held (fun _ hplace => hplace) _ _ _
  | appToStream =>
    have hrun : s.client = .relaying := hc.1
    have hone' : s.up.pass 0 k 1 = _ := Line.pass_succ s.up k
    have htwo' : s.up.pass 0 k 2 = s.up 2 := Line.pass_of_ne _ _ (by decide) (by decide)
    have hflow' : (s.up.pass 0 k).flow 2 = s.up.flow 2 := Line.flow_pass _ (by decide) k
    refine h.onUp (s.up.pass 0 k) (htwo' ▸ h.held) (fun wrote hplace => ?_) _ _ _
    cases hplace with
    | early hc' => rw [hrun] at hc'; cases hc'
    | header hc' hs hd hlen hheld hhead htwo hflow =>
      refine .header hc' hs hd hlen ?_ ?_ (htwo' ▸ htwo) (hflow'.trans hflow)
      · rw [hone']
        exact hheld
      · rw [hone']
        exact hhead.trans (List.prefix_append ..)
    | relaying hc' hs hflow => exact .relaying hc' hs (hflow'.trans hflow)
    | refused hc' => exact nomatch hc'.symm.trans hrun
    | rejected hc' hs htwo => exact .rejected hc' hs (htwo' ▸ htwo)
  | streamToTarget =>
    have hrun : s.server = .relaying := hc.1
    have hflow' : (s.up.pass 1 k).flow 2 = s.up.flow 2 := Line.flow_pass _ (by decide) k
    have htwo : (s.up.pass 1 k 2).held = [] := by
      rw [Line.pass_succ]
      exact h.held
    refine h.onUp (s.up.pass 1 k) htwo (fun wrote hplace => ?_) _ _ _
    rcases hplace.of_relaying hrun with ⟨hc', hflow⟩ | ⟨-, hheld, -⟩
    · exact .relaying hc' (fun hs => nomatch hs.symm.trans hrun) (hflow'.trans hflow)
    · exact absurd hheld hc.2.2

/-- The handshake takes something from the front of what the application has written. -/
theorem flow_hear (hb : b <+: (s.up 0).incoming) (hzero : (s.up 0).held = [])
    (hheld : (s.up 1).held = []) (hin : (s.up 1).incoming = []) (htwo : (s.up 2).content = []) :
    b ++ (s.hear b).up.flow 2 = s.up.flow 2 := by
  have hone : (s.up 1).content = [] := by rw [Stage.content, hheld, hin]; rfl
  have hrest : (s.hear b).up.flow 2 = (s.up 2).content ++ ((s.up 1).content ++
      ((s.up 0).held ++ (s.up 0).incoming.drop b.length)) := rfl
  obtain ⟨rest, hrest'⟩ := hb
  rw [hrest, htwo, hone, hzero, ← hrest', List.drop_left]
  show _ = (s.up 2).content ++ ((s.up 1).content ++ (s.up 0).content)
  rw [htwo, hone, Stage.content, hzero, ← hrest']
  rfl

/-- The handshake reads a message, and goes on or gives up. -/
theorem UpInv.hear (h : UpInv set s) (hc : s.client.early = true) (hb : b <+: (s.up 0).incoming)
    (client : Client) (hclient : client.early = true ∨ client = .refused)
    (hhears : Hears set (s.heard ++ [b]) client) (failed : Bool) (down : Line UInt8) :
    UpInv set { s.hear b with client := client, broken := failed, down := down } := by
  obtain ⟨wrote, hwrote, hplace⟩ := h.place
  obtain ⟨hs, hfin, hzero, hheld, hin, htwo, hflow⟩ := hplace.of_early hc
  have htwo' : (s.up 2).content = [] := by rw [Stage.content, h.held, htwo]; rfl
  have hrest := flow_hear hb hzero hheld hin htwo'
  refine ⟨h.held, hhears, ⟨(s.hear b).up.flow 2, ?_, ?_⟩, fun _ => h.undialed hc, ?_, ?_⟩
  · show s.appWrote = (s.heard ++ [b]).flatten ++ _
    rw [hwrote, ← hflow, ← hrest, List.flatten_append, List.flatten_singleton, List.append_assoc]
  · rcases hclient with hearly | hrefused
    · exact .early hearly hs hfin hzero hheld hin htwo rfl
    · exact .refused hrefused hheld htwo (.inr (.inl hin))
  · intro d hd
    cases hs.symm.trans hd
  · intro d hd
    cases (h.undialed hc).symm.trans hd

/-- The second message completes the handshake. -/
theorem asks_of_request {heard : Source} {buf b dest : Bytes} (h : Hears set heard (.request buf))
    (hlen : b.length ≤ 258) (hdest : Socks5.checkRequest buf b = .ok dest) :
    set.Asks (heard ++ [b]) dest := by
  obtain ⟨hsocks, a, rfl, ha, hbuf⟩ := h
  unfold Setting.Asks
  rw [hsocks]
  show Socks5.socks5Handshake [a, b] = _
  unfold Socks5.socks5Handshake
  rw [Source.read_cons_of_le ha]
  dsimp only
  rw [hbuf, Source.read_cons_of_le hlen]
  dsimp only
  rw [hdest]

/-- The client gives up before there is a stream. -/
theorem UpInv.hangUp (h : UpInv set s) (hc : s.client.early = true) (failed : Bool)
    (down : Line UInt8) :
    UpInv set { s with client := .refused, broken := failed, down := down } := by
  obtain ⟨wrote, hwrote, hplace⟩ := h.place
  obtain ⟨-, -, -, hheld, hin, htwo, -⟩ := hplace.of_early hc
  exact ⟨h.held, trivial, ⟨wrote, hwrote, .refused rfl hheld htwo (.inr (.inl hin))⟩, nofun,
    h.dialing, h.dialed⟩

/-- The client gives up before it has written anything, or in the header. -/
theorem UpInv.refuse (h : UpInv set s) (hc : s.client = .opening dest)
    (hb : b = [] ∨ (dest.length ≤ maxDestLen ∧ b <+: head dest)) (failed : Bool)
    (down : Line UInt8) : UpInv set
      ({ s with up := s.up.give 1 b, broken := failed, down := down }.closeClient .refused) := by
  obtain ⟨wrote, hwrote, hplace⟩ := h.place
  obtain ⟨hs, -, -, hheld, hin, htwo, -⟩ := hplace.of_early (by rw [hc]; rfl)
  have hasks : set.Asks s.heard dest := by
    have hhears := h.hears
    rwa [hc] at hhears
  have hgiven : Upward (set.Asks s.heard) .refused s.server (s.up.give 1 b) wrote := by
    refine .refused rfl hheld htwo (.inr ?_)
    rw [Line.give_self, hin]
    rcases hb with hnil | ⟨hlen, hpre⟩
    · exact .inl hnil
    · exact .inr ⟨hs, dest, hasks, hlen, hpre⟩
  exact ⟨h.held, trivial, ⟨wrote, hwrote, hgiven.of_same (Line.same_close _ 1) nofun⟩, nofun,
    h.dialing, h.dialed⟩

/-- The header is written. -/
theorem UpInv.sendHeader (h : UpInv set s) (hc : s.client = .opening dest)
    (hlen : dest.length ≤ maxDestLen) :
    UpInv set { s with client := .replying, up := s.up.give 1 (head dest) } := by
  obtain ⟨wrote, hwrote, hplace⟩ := h.place
  obtain ⟨hs, -, -, hheld, hin, htwo, hflow⟩ := hplace.of_early (by rw [hc]; rfl)
  have hasks : set.Asks s.heard dest := by
    have hhears := h.hears
    rwa [hc] at hhears
  have hone : (s.up 1).content = [] := by rw [Stage.content, hheld, hin]; rfl
  have htwo' : (s.up 2).content = [] := by rw [Stage.content, h.held, htwo]; rfl
  refine ⟨h.held, trivial, ⟨wrote, hwrote, .header rfl hs hasks hlen hheld ?_ htwo ?_⟩,
    fun hc => absurd hc Bool.false_ne_true, h.dialing, h.dialed⟩
  · show head dest <+: (s.up.give 1 (head dest) 1).incoming
    rw [Line.give_self, hin]
    exact List.prefix_refl _
  · show (s.up.give 1 (head dest)).flow 2 = head dest ++ wrote
    rw [Line.flow, Line.flow_give_succ, Line.give_of_ne _ _ (by decide), htwo', hone]
    rw [Line.flow, Line.flow, htwo', hone] at hflow
    rw [← hflow]
    rfl

/-- What is read from a stream that begins with a header. -/
theorem readDestHeader_head (hlen : dest.length ≤ maxDestLen) {q : Bytes} (hq : head dest <+: q) :
    (∃ rest, readDestHeader [q] = (.ok dest, rest) ∧ head dest ++ rest.flatten = q) ∨
      ∃ n rest, readDestHeader [q] = (.error (.invalidLength n), rest) := by
  obtain ⟨m, rfl⟩ := hq
  by_cases hpos : 0 < dest.length
  · have hstream : List.flatten [head dest ++ m] = beBytes 2 dest.length ++ dest ++ m :=
      List.flatten_singleton ..
    obtain ⟨rest, hread, hrest⟩ := readDestHeader_written hpos hlen hstream
    exact .inl ⟨rest, hread, by rw [hrest]⟩
  · have hdest : dest = [] := List.eq_nil_of_length_eq_zero (by omega)
    refine .inr ⟨0, ?_⟩
    have hstream : List.flatten [head dest ++ m] = [0, 0] ++ m := by simp [head, hdest, beBytes]
    obtain ⟨rest, hread, -⟩ := Source.readFull_append hstream
    refine ⟨rest, ?_⟩
    have hread : Source.readFull 2 [head dest ++ m] = (.ok [0, 0], rest) := hread
    have hzero : beNat [0, 0] = 0 := by decide
    rw [readDestHeader, hread]
    dsimp only
    rw [hzero, if_pos (.inl (Nat.le_refl 0))]

/-- The header is taken off the stream. -/
theorem flow_header {up : Line UInt8} {wrote rest : Bytes} (hheld : (up 1).held = [])
    (htwo : (up 2).content = []) (hrest : head dest ++ rest = (up 1).incoming)
    (hflow : up.flow 2 = head dest ++ wrote) :
    (up.modify 1 fun t => { t with incoming := rest }).flow 2 = wrote := by
  have hone : (up 1).content = head dest ++ rest := by rw [Stage.content, hheld, hrest]; rfl
  have htwo' : (up.modify 1 fun t => { t with incoming := rest }) 2 = up 2 :=
    Line.modify_of_ne _ (by decide) _
  have hone' : ((up.modify 1 fun t => { t with incoming := rest }) 1).content = rest := by
    rw [Line.modify_self, Stage.content, hheld, List.nil_append]
  rw [Line.flow, Line.flow, htwo, hone, List.nil_append, List.append_assoc] at hflow
  rw [Line.flow, Line.flow, htwo', htwo, hone', List.nil_append]
  exact List.append_cancel_left hflow

/-- The header is read. -/
theorem UpInv.header (h : UpInv set s) (hs : s.server = .readingHeader)
    (hread : readDestHeader [(s.up 1).incoming] = (.ok dest, rest)) :
    UpInv set { s with
      server := .dialing dest
      up := s.up.modify 1 fun t => { t with incoming := rest.flatten } } := by
  obtain ⟨wrote, hwrote, hplace⟩ := h.place
  have hfound : set.Asks s.heard dest ∧ Upward (set.Asks s.heard) s.client (.dialing dest)
      (s.up.modify 1 fun t => { t with incoming := rest.flatten }) wrote := by
    cases hplace with
    | early _ _ _ _ _ hin =>
      rw [hin] at hread
      cases hread
    | @header hc _ d hd hlen hheld hhead htwo hflow =>
      have htwo' : (s.up 2).content = [] := by rw [Stage.content, h.held, htwo]; rfl
      rcases readDestHeader_head hlen hhead with ⟨rest', hread', hrest⟩ | ⟨n, rest', hread'⟩
      · cases hread.symm.trans hread'
        exact ⟨hd, .relaying hc (by simp) (flow_header hheld htwo' hrest hflow)⟩
      · cases hread.symm.trans hread'
    | relaying _ hs' => exact absurd hs hs'
    | refused hc hheld htwo hone =>
      rcases hone with hs' | hin | ⟨-, d, hd, hlen, hpre⟩
      · exact absurd (hs'.symm.trans hs) (by decide)
      · rw [hin] at hread
        cases hread
      · obtain ⟨rfl, hrest⟩ := readDestHeader_of_prefix hlen hpre hread
        exact ⟨hd, .refused hc hheld htwo (.inr (.inl hrest))⟩
    | rejected _ hs' => exact absurd (hs'.symm.trans hs) (by decide)
  refine ⟨h.held, h.hears, ⟨wrote, hwrote, hfound.2⟩, h.undialed, fun d hd => ?_, h.dialed⟩
  cases hd
  exact hfound.1

/-- The server finds no header. -/
theorem UpInv.noHeader (h : UpInv set s) (hs : s.server = .readingHeader) {e : HeaderError}
    (hread : readDestHeader [(s.up 1).incoming] = (.error e, rest))
    (hend : (s.up 1).fin = true ∨ ∃ n, e = .invalidLength n) : UpInv set s.closeStream := by
  obtain ⟨wrote, hwrote, hplace⟩ := h.place
  refine ⟨h.held, h.hears, ⟨wrote, hwrote, ?_⟩, h.undialed, fun _ hd => ?_, h.dialed⟩
  swap
  · cases hd
  cases hplace with
  | early _ _ hfin _ _ hin =>
    rw [hin] at hread
    cases hread
    rcases hend with hfin' | ⟨n, hn⟩
    · exact absurd (hfin.symm.trans hfin') (by decide)
    · cases hn
  | header hc _ _ _ _ _ htwo => exact .rejected hc rfl htwo
  | relaying _ hs' => exact absurd hs hs'
  | refused hc hheld htwo => exact .refused hc hheld htwo (.inl rfl)
  | rejected _ hs' => exact absurd (hs'.symm.trans hs) (by decide)

/-- The server dials. -/
theorem UpInv.dial (h : UpInv set s) (hs : s.server = .dialing dest) {server : Server}
    (hserver : server = .relaying ∨ server = .returned) (down : Line UInt8) :
    UpInv set { s with server := server, dialed := some dest, down := down } := by
  obtain ⟨wrote, hwrote, hplace⟩ := h.place
  refine ⟨h.held, h.hears, ⟨wrote, hwrote, ?_⟩, fun hc => ?_, ?_, ?_⟩
  · refine hplace.served ?_ ?_ ?_
    · exact fun h' => nomatch hs.symm.trans h'
    · exact fun h' => nomatch hs.symm.trans h'
    · rcases hserver with rfl | rfl <;> exact nofun
  · exact nomatch hs.symm.trans (h.server_early hc)
  · rcases hserver with rfl | rfl <;> exact nofun
  · rintro d ⟨⟩
    exact h.dialing dest hs

/-- The handler of the client goes on, with a stream. -/
theorem UpInv.goesOn (h : UpInv set s) (hc : s.client.opened = true) {client : Client}
    (hc' : client.opened = true) (failed : Bool) (down : Line UInt8) :
    UpInv set { s with client := client, broken := failed, down := down } := by
  obtain ⟨wrote, hwrote, hplace⟩ := h.place
  refine ⟨h.held, ?_, ⟨wrote, hwrote, hplace.goesOn hc hc'⟩, fun hearly => ?_, h.dialing, h.dialed⟩
  · cases client <;> trivial
  · exact absurd (hearly.symm.trans (Client.not_early_of_opened hc')) (by decide)

/-- **A move keeps the way up in order.** -/
theorem UpInv.move (h : UpInv set s) (hmove : Move set s s') : UpInv set s' := by
  cases hmove with
  | stay => exact h
  | appWrite b =>
    obtain ⟨wrote, hwrote, hplace⟩ := h.place
    refine ⟨h.held, h.hears, ⟨wrote ++ b, ?_, hplace.give b⟩, h.undialed, h.dialing, h.dialed⟩
    rw [hwrote, List.append_assoc]
  | appClose =>
    refine h.onUp (s.up.close 0) h.held (fun wrote hplace => ?_) _ _ _
    exact hplace.of_same (s.up.same_close 0) fun _ => rfl
  | targetWrite b => exact ⟨h.held, h.hears, h.place, h.undialed, h.dialing, h.dialed⟩
  | targetClose => exact ⟨h.held, h.hears, h.place, h.undialed, h.dialing, h.dialed⟩
  | greet hc ha hlen hbuf hk =>
    have hhears := h.hears
    rw [hc] at hhears
    have hheard : Hears set (s.heard ++ [_]) (.request _) :=
      ⟨hhears.1, _, by rw [hhears.2]; rfl, hlen, hbuf⟩
    exact h.hear (by rw [hc]; rfl) ha (.request _) (.inl rfl) hheard _ _
  | ask hc hb hlen hdest =>
    have hhears := h.hears
    rw [hc] at hhears
    have hasks := asks_of_request hhears hlen hdest
    exact h.hear (by rw [hc]; rfl) hb (.opening _) (.inl rfl) hasks _ _
  | giveUp hc => exact h.hangUp hc _ _
  | mishear hc hb => exact h.hear hc hb .refused (.inr rfl) trivial _ _
  | hangUp hc hk => exact h.hangUp (by rw [hc]; rfl) _ _
  | refuse hc hb hk => exact h.refuse hc hb _ _
  | sendHeader hc hlen => exact h.sendHeader hc hlen
  | reply hc hk => exact h.goesOn (by rw [hc]; rfl) rfl _ _
  | header hs hread => exact h.header hs hread
  | noHeader hs hread hend => exact h.noHeader hs hread hend
  | dial hs => exact h.dial hs (.inl rfl) _
  | dialFail hs => exact h.dial hs (.inr rfl) _
  | read hc k => exact h.read hc k
  | @finish c hc => exact h.finish c (h.not_early hc.1)
  | pass hc hk => exact h.pass hc _
  | @passFail c hc k hk =>
    apply (h.pass hc k).finish
    cases c <;> exact h.not_early hc.1
  | clientReturn hc =>
    have hreturned := h.goesOn (by rw [hc]; rfl) (rfl : Client.returned.opened = true) s.broken
      (s.down.close 2)
    refine hreturned.onUp (s.up.close 1) h.held (fun wrote hplace => ?_) _ _ _
    exact hplace.of_same (Line.same_close _ 1) nofun
  | serverReturn hs =>
    obtain ⟨wrote, hwrote, hplace⟩ := h.place
    have hplace : Upward (set.Asks s.heard) s.client .returned s.up wrote := by
      refine hplace.served ?_ ?_ nofun <;> rw [hs] <;> exact nofun
    exact ⟨h.held, h.hears, ⟨wrote, hwrote, hplace.of_same (Line.same_close _ 2) fun _ => rfl⟩,
      h.undialed, nofun, h.dialed⟩

/-! ## Down -/

/-- Where the bytes of the target are, and what comes before them. -/
inductive Downward (set : Setting) (client : Client) (failed : Bool) (down : Line UInt8)
    (wrote : Bytes) : Prop where
  /-- nothing has been written to the application -/
  | silent (hc : client = .greeting) (hb : failed = false) (htwo : (down 2).incoming = [])
      (hflow : down.flow 2 = wrote)
  | greeted (hc : client.greeted = true) (hb : failed = false)
      (htwo : (down 2).incoming = set.method) (hflow : down.flow 2 = set.method ++ wrote)
  /-- the answer in the handshake was cut short -/
  | muted (hc : client.greeted = true) (hb : failed = true)
      (htwo : (down 2).incoming <+: set.method)
  | relaying (hc : client = .relaying ∨ client = .returned) (hb : failed = false)
      (hflow : down.flow 2 = set.method ++ set.reply ++ wrote)
  /-- the reply was cut short, or the answer before it -/
  | cut (hc : client = .relaying ∨ client = .returned) (hb : failed = true)
      (htwo : (down 2).incoming <+: set.method ++ set.reply)
  | refused (hc : client = .refused) (htwo : (down 2).incoming <+: set.method ++ set.refusal)

/-- What the application gets is in order. -/
structure DownInv (set : Setting) (s : State) : Prop where
  held : (s.down 2).held = []
  place : Downward set s.client s.broken s.down s.targetWrote

section Downward

variable {client client' : Client} {failed : Bool} {down down' : Line UInt8} {wrote : Bytes}

theorem Downward.same (h : Downward set client failed down wrote)
    (htwo : (down' 2).incoming = (down 2).incoming) (hflow : down'.flow 2 = down.flow 2) :
    Downward set client failed down' wrote := by
  cases h with
  | silent hc hb htwo' hflow' => exact .silent hc hb (htwo.trans htwo') (hflow.trans hflow')
  | greeted hc hb htwo' hflow' => exact .greeted hc hb (htwo.trans htwo') (hflow.trans hflow')
  | muted hc hb htwo' => exact .muted hc hb (htwo ▸ htwo')
  | relaying hc hb hflow' => exact .relaying hc hb (hflow.trans hflow')
  | cut hc hb htwo' => exact .cut hc hb (htwo ▸ htwo')
  | refused hc htwo' => exact .refused hc (htwo ▸ htwo')

/-- The target writes more. -/
theorem Downward.give (h : Downward set client failed down wrote) (b : Bytes) :
    Downward set client failed (down.give 0 b) (wrote ++ b) := by
  have hflow' := down.flow_give_zero b 2
  cases h with
  | silent hc hb htwo hflow => exact .silent hc hb htwo (by rw [hflow', hflow])
  | greeted hc hb htwo hflow =>
    exact .greeted hc hb htwo (by rw [hflow', hflow, List.append_assoc])
  | muted hc hb htwo => exact .muted hc hb htwo
  | relaying hc hb hflow => exact .relaying hc hb (by rw [hflow', hflow, List.append_assoc])
  | cut hc hb htwo => exact .cut hc hb htwo
  | refused hc htwo => exact .refused hc htwo

/-- Before the reply the application has the answer of the handshake, if that was not cut short. -/
theorem Downward.of_greeted (h : Downward set client failed down wrote)
    (hc : client.greeted = true) :
    (down 2).incoming <+: set.method ∧
      (failed = false → (down 2).incoming = set.method ∧ down.flow 2 = set.method ++ wrote) := by
  cases h with
  | silent h' => rw [h'] at hc; cases hc
  | greeted _ _ htwo hflow => exact ⟨htwo ▸ List.prefix_refl _, fun _ => ⟨htwo, hflow⟩⟩
  | muted _ hb htwo => exact ⟨htwo, fun hb' => absurd (hb.symm.trans hb') (by decide)⟩
  | relaying h' => rcases h' with rfl | rfl <;> cases hc
  | cut h' => rcases h' with rfl | rfl <;> cases hc
  | refused h' => rw [h'] at hc; cases hc

/-- Before there is a stream it has at most that. -/
theorem Downward.of_early (h : Downward set client failed down wrote)
    (hc : client.early = true) : (down 2).incoming <+: set.method := by
  by_cases hgreeted : client.greeted = true
  · exact (h.of_greeted hgreeted).1
  · cases h with
    | silent _ _ htwo => rw [htwo]; exact List.nil_prefix
    | greeted h' => exact absurd h' hgreeted
    | muted h' => exact absurd h' hgreeted
    | relaying h' => rcases h' with rfl | rfl <;> cases hc
    | cut h' => rcases h' with rfl | rfl <;> cases hc
    | refused h' => rw [h'] at hc; cases hc

/-- The handler of the client goes on without a word. -/
theorem Downward.goesOn (h : Downward set client failed down wrote) (hc : client.greeted = true)
    (hc' : client'.greeted = true) : Downward set client' failed down wrote := by
  obtain ⟨htwo, hall⟩ := h.of_greeted hc
  cases failed with
  | false => exact .greeted hc' rfl (hall rfl).1 (hall rfl).2
  | true => exact .muted hc' rfl htwo

/-- The handler of the client returns. -/
theorem Downward.returns (h : Downward set .relaying failed down wrote) :
    Downward set .returned failed down wrote := by
  cases h with
  | silent hc => cases hc
  | greeted hc => cases hc
  | muted hc => cases hc
  | relaying _ hb hflow => exact .relaying (.inr rfl) hb hflow
  | cut _ hb htwo => exact .cut (.inr rfl) hb htwo
  | refused hc => cases hc

/-- What the handler writes comes before what is on the way. -/
theorem flow_first {said : Bytes} (hheld : (down 2).held = []) (htwo : (down 2).incoming = said)
    (hflow : down.flow 2 = said ++ wrote) (b : Bytes) :
    (down.give 2 b).flow 2 = said ++ b ++ wrote := by
  have hcontent : (down 2).content = said := by rw [Stage.content, hheld, htwo]; rfl
  rw [Line.flow, hcontent] at hflow
  rw [Line.flow_give_succ, hcontent, List.append_cancel_left hflow, List.append_assoc]

/-- A part of what is to be written, behind what has been written in whole or in part. -/
theorem prefix_told {said b : Bytes} {broken : Bool} (htwo : (down 2).incoming <+: said)
    (hall : broken = false → (down 2).incoming = said) (hk : broken = true → k = 0) :
    (down.give 2 (b.take k) 2).incoming <+: said ++ b := by
  rw [Line.give_self]
  cases hb : broken with
  | true =>
    rw [hk hb, List.take_zero, List.append_nil]
    exact htwo.trans (List.prefix_append ..)
  | false =>
    rw [hall hb]
    exact (List.prefix_append_right_inj said).2 (List.take_prefix ..)

end Downward

/-- A stage is closed. -/
theorem DownInv.close (h : DownInv set s) (i : ℕ) (hdown : s'.down = s.down.close i)
    (hplace : Downward set s'.client s'.broken s.down s'.targetWrote) : DownInv set s' := by
  have hsame := s.down.same_close i
  refine ⟨?_, ?_⟩
  · rw [hdown]
    exact (hsame 2).1.trans h.held
  · rw [hdown]
    exact hplace.same (hsame 2).2 (hsame.flow 2)

/-- A copier ends. -/
theorem DownInv.finish (h : DownInv set s) (c : Copier) : DownInv set (s.finish set c) := by
  have hsame := (same_finish set s c).2
  exact ⟨(hsame 2).1.trans h.held, h.place.same (hsame 2).2 (hsame.flow 2)⟩

/-- A copier reads. -/
theorem DownInv.read (h : DownInv set s) (c : Copier) (k : ℕ) :
    DownInv set (s.onLine c.dir fun l => l.read c.stage k) := by
  cases c with
  | appToStream | streamToTarget => exact ⟨h.held, h.place⟩
  | targetToStream => exact ⟨h.held, h.place.same rfl (s.down.flow_read 0 k 2)⟩
  | streamToApp => exact ⟨h.held, h.place.same rfl (s.down.flow_read 1 k 2)⟩

/-- A copier writes. -/
theorem DownInv.pass (h : DownInv set s) (hc : s.Writing c)
    (hk : c = .streamToApp → s.broken = true → k = 0) :
    DownInv set (s.onLine c.dir fun l => l.pass c.stage k) := by
  cases c with
  | appToStream | streamToTarget => exact ⟨h.held, h.place⟩
  | targetToStream =>
    have htwo' : s.down.pass 0 k 2 = s.down 2 := Line.pass_of_ne _ _ (by decide) (by decide)
    have hplace := h.place.same (congrArg Stage.incoming htwo') (Line.flow_pass _ (by decide) k)
    exact ⟨htwo' ▸ h.held, hplace⟩
  | streamToApp =>
    have hrun : s.client = .relaying := hc.1
    have htwo' := s.down.pass_succ (i := 1) k
    have hflow' : (s.down.pass 1 k).flow 2 = s.down.flow 2 := Line.flow_pass _ (by decide) k
    refine ⟨?_, ?_⟩
    · show (s.down.pass 1 k 2).held = []
      rw [htwo']
      exact h.held
    show Downward set s.client s.broken (s.down.pass 1 k) s.targetWrote
    cases h.place with
    | silent hc' => exact nomatch hc'.symm.trans hrun
    | greeted hc' => rw [hrun] at hc'; cases hc'
    | muted hc' => rw [hrun] at hc'; cases hc'
    | relaying hc' hb hflow => exact .relaying hc' hb (hflow'.trans hflow)
    | cut hc' hb htwo =>
      refine .cut hc' hb ?_
      rw [htwo', hk rfl hb, List.take_zero, List.append_nil]
      exact htwo
    | refused hc' => exact nomatch hc'.symm.trans hrun

/-- The handler of the client gives up, with or without the refusal. -/
theorem DownInv.refuse (h : DownInv set s) (hdown : s'.down = (s.down.give 2 b).close 2)
    (hc : s'.client = .refused) (hb : (s.down.give 2 b 2).incoming <+: set.method ++ set.refusal) :
    DownInv set s' := by
  have hsame := Line.same_close (s.down.give 2 b) 2
  refine ⟨?_, .refused hc ?_⟩
  · rw [hdown]
    exact (hsame 2).1.trans h.held
  · rw [hdown, (hsame 2).2]
    exact hb

/-- The handler gives up in the handshake. -/
theorem DownInv.hangUp (h : DownInv set s) (hc : s.client.early = true)
    (hdown : s'.down = s.down.close 2) (hc' : s'.client = .refused) : DownInv set s' := by
  refine h.refuse (b := []) ?_ hc' ?_
  · rw [Line.give_nil, hdown]
  · rw [Line.give_nil]
    exact (h.place.of_early hc).trans (List.prefix_append ..)

/-- The handler answers the greeting. -/
theorem DownInv.greet (h : DownInv set s) (hc : s.client = .greeting) {failed : Bool}
    (hk : Told s.broken set.method k failed) (buf : Bytes) :
    Downward set (.request buf) failed (s.down.give 2 (set.method.take k)) s.targetWrote := by
  obtain ⟨htwo, hflow⟩ : (s.down 2).incoming = [] ∧ s.down.flow 2 = s.targetWrote := by
    cases h.place with
    | silent _ _ htwo hflow => exact ⟨htwo, hflow⟩
    | greeted h' => rw [hc] at h'; cases h'
    | muted h' => rw [hc] at h'; cases h'
    | relaying h' => rw [hc] at h'; simp at h'
    | cut h' => rw [hc] at h'; simp at h'
    | refused h' => exact nomatch hc.symm.trans h'
  cases failed with
  | false =>
    have hall : set.method.take k = set.method := List.take_of_length_le (hk.2 rfl).2
    refine .greeted rfl rfl ?_ ?_
    · rw [Line.give_self, htwo, hall]
      rfl
    · rw [flow_first h.held htwo hflow, hall]
      rfl
  | true =>
    refine .muted rfl rfl ?_
    rw [Line.give_self, htwo]
    exact List.take_prefix ..

/-- The handler replies. -/
theorem DownInv.reply (h : DownInv set s) (hc : s.client = .replying) {failed : Bool}
    (hk : Told s.broken set.reply k failed) :
    Downward set .relaying failed (s.down.give 2 (set.reply.take k)) s.targetWrote := by
  obtain ⟨htwo, hall⟩ := h.place.of_greeted (by rw [hc]; rfl)
  cases failed with
  | false =>
    obtain ⟨hb, hlen⟩ := hk.2 rfl
    refine .relaying (.inl rfl) rfl ?_
    rw [flow_first h.held (hall hb).1 (hall hb).2, List.take_of_length_le hlen]
  | true => exact .cut (.inl rfl) rfl (prefix_told htwo (fun hb => (hall hb).1) hk.1)

/-- **A move keeps the way down in order.** -/
theorem DownInv.move (h : DownInv set s) (hmove : Move set s s') : DownInv set s' := by
  cases hmove with
  | stay => exact h
  | appWrite b => exact ⟨h.held, h.place⟩
  | appClose => exact ⟨h.held, h.place⟩
  | targetWrite b => exact ⟨h.held, h.place.give b⟩
  | targetClose => exact h.close 0 rfl h.place
  | greet hc ha hlen hbuf hk => exact ⟨h.held, h.greet hc hk _⟩
  | ask hc hb hlen hdest => exact ⟨h.held, h.place.goesOn (by rw [hc]; rfl) rfl⟩
  | giveUp hc => exact h.hangUp hc rfl rfl
  | mishear hc hb => exact h.hangUp hc rfl rfl
  | hangUp hc hk =>
    obtain ⟨htwo, hall⟩ := h.place.of_greeted (by rw [hc]; rfl)
    exact h.refuse rfl rfl (prefix_told htwo (fun hb => (hall hb).1) hk)
  | refuse hc hb hk =>
    obtain ⟨htwo, hall⟩ := h.place.of_greeted (by rw [hc]; rfl)
    exact h.refuse rfl rfl (prefix_told htwo (fun hb => (hall hb).1) hk)
  | sendHeader hc hlen => exact ⟨h.held, h.place.goesOn (by rw [hc]; rfl) rfl⟩
  | reply hc hk => exact ⟨h.held, h.reply hc hk⟩
  | header hs hread => exact ⟨h.held, h.place⟩
  | noHeader hs hread hend => exact h.close 1 rfl h.place
  | dial hs => exact ⟨h.held, h.place⟩
  | dialFail hs => exact h.close 1 rfl h.place
  | @read c hc k => exact h.read c k
  | @finish c hc => exact h.finish c
  | pass hc hk => exact h.pass hc hk
  | @passFail c hc k hk => exact (h.pass hc hk).finish c
  | clientReturn hc => exact h.close 2 rfl (hc ▸ h.place : Downward set .relaying _ _ _).returns
  | serverReturn hs => exact h.close 1 rfl h.place

/-! ## What the server counts -/

/-- Nothing while a copy goes on, and then what it has written. -/
structure Counted (s : State) : Prop where
  received : s.bytesReceived = if (s.up 1).ended then (s.up 1).passed else 0
  toTarget : (s.up 2).incoming.length = (s.up 1).passed
  sent : s.bytesSent = if (s.down 0).ended then (s.down 0).passed else 0
  fromTarget : s.targetWrote.length = (s.down 0).content.length + (s.down 0).passed

/-- A copier reads. -/
theorem Counted.read (h : Counted s) (c : Copier) (k : ℕ) :
    Counted (s.onLine c.dir fun l => l.read c.stage k) := by
  cases c with
  | targetToStream =>
    have hcontent : (s.down.read 0 k 0).content = (s.down 0).content := by
      simp [Stage.content]
    refine ⟨h.received, h.toTarget, h.sent, ?_⟩
    show _ = (s.down.read 0 k 0).content.length + _
    rw [hcontent]
    exact h.fromTarget
  | _ => exact ⟨h.received, h.toTarget, h.sent, h.fromTarget⟩

/-- A copier writes. -/
theorem Counted.pass (h : Counted s) (hrun : (s.stage c).ended = false) (k : ℕ) :
    Counted (s.onLine c.dir fun l => l.pass c.stage k) := by
  cases c with
  | appToStream | streamToApp => exact ⟨h.received, h.toTarget, h.sent, h.fromTarget⟩
  | streamToTarget =>
    have hrun : (s.up 1).ended = false := hrun
    have htwo := s.up.pass_succ (i := 1) k
    refine ⟨?_, ?_, h.sent, h.fromTarget⟩
    · show s.bytesReceived = if (s.up.pass 1 k 1).ended then (s.up.pass 1 k 1).passed else 0
      rw [Line.pass_self, h.received, hrun]
      rfl
    · show (s.up.pass 1 k 2).incoming.length = (s.up.pass 1 k 1).passed
      rw [htwo, Line.pass_self, List.length_append, h.toTarget]
  | targetToStream =>
    have hrun : (s.down 0).ended = false := hrun
    refine ⟨h.received, h.toTarget, ?_, ?_⟩
    · show s.bytesSent = if (s.down.pass 0 k 0).ended then (s.down.pass 0 k 0).passed else 0
      rw [Line.pass_self, h.sent, hrun]
      rfl
    · show s.targetWrote.length = (s.down.pass 0 k 0).content.length + (s.down.pass 0 k 0).passed
      have hfrom := h.fromTarget
      simp only [Stage.content, Line.pass_self, List.length_append, List.length_drop,
        List.length_take] at hfrom ⊢
      omega

/-- A copier ends, and counts. -/
theorem Counted.finish (set : Setting) (h : Counted s) (hrun : (s.stage c).ended = false) :
    Counted (s.finish set c) := by
  cases c with
  | appToStream =>
    have hup : (s.finish set .appToStream).up = (s.up.finish 0).close 1 ∨
        (s.finish set .appToStream).up = s.up.finish 0 := ite_eq_or_eq ..
    rcases hup with hup | hup <;>
      exact ⟨by rw [hup]; exact h.received, by rw [hup]; exact h.toTarget, h.sent, h.fromTarget⟩
  | streamToTarget =>
    have hzero : s.bytesReceived = 0 := h.received.trans (if_neg (Bool.eq_false_iff.1 hrun))
    refine ⟨?_, h.toTarget, h.sent, h.fromTarget⟩
    show s.bytesReceived + (s.up 1).passed = (s.up 1).passed
    rw [hzero, Nat.zero_add]
  | targetToStream =>
    have hzero : s.bytesSent = 0 := h.sent.trans (if_neg (Bool.eq_false_iff.1 hrun))
    refine ⟨h.received, h.toTarget, ?_, h.fromTarget⟩
    show s.bytesSent + (s.down 0).passed = (s.down 0).passed
    rw [hzero, Nat.zero_add]
  | streamToApp => exact ⟨h.received, h.toTarget, h.sent, h.fromTarget⟩

/-- **A move keeps the count.** -/
theorem Counted.move (h : Counted s) (hmove : Move set s s') : Counted s' := by
  cases hmove with
  | targetWrite b =>
    refine ⟨h.received, h.toTarget, h.sent, ?_⟩
    show (s.targetWrote ++ b).length
      = (s.down.give 0 b 0).content.length + (s.down.give 0 b 0).passed
    have hfrom := h.fromTarget
    simp only [Stage.content, Line.give_self, List.length_append] at hfrom ⊢
    omega
  | @read c hc k => exact h.read c k
  | finish hc => exact h.finish set hc.2.1
  | pass hc hk => exact h.pass hc.2.1 _
  | @passFail c hc k hk =>
    apply (h.pass hc.2.1 k).finish
    cases c <;> exact hc.2.1
  | _ => exact ⟨h.received, h.toTarget, h.sent, h.fromTarget⟩

/-! ## Whole runs -/

/-- What has reached the target comes behind what the handshake has heard. -/
theorem UpInv.received (h : UpInv set s) : s.heard.flatten ++ (s.up 2).incoming <+: s.appWrote := by
  obtain ⟨wrote, hwrote, hplace⟩ := h.place
  rw [hwrote, List.prefix_append_right_inj]
  have hflow := Line.incoming_prefix_flow h.held
  cases hplace with
  | early _ _ _ _ _ _ htwo _ => rw [htwo]; exact List.nil_prefix
  | header _ _ _ _ _ _ htwo _ => rw [htwo]; exact List.nil_prefix
  | relaying _ _ hflow' => rw [← hflow']; exact hflow
  | refused _ _ htwo _ => rw [htwo]; exact List.nil_prefix
  | rejected _ _ htwo => rw [htwo]; exact List.nil_prefix

/-- **What the target gets.**  In every run of the two handlers and the four goroutines, in every
order and with any failures on the way: what the target has received is the beginning of what the
application has written, behind what the two `Read`s of the handshake have taken; and the only
address the server dials is that of the forward, or the one that these `Read`s ask for. -/
theorem run_toTarget (set : Setting) (es : List Event) :
    let s := run (step set) (.init set) es
    s.heard.flatten ++ (s.up 2).incoming <+: s.appWrote ∧
      ∀ d, s.dialed = some d → set.Asks s.heard d := by
  intro s
  have hup : UpInv set s := by
    refine run_invariant (fun _ e h => h.move (move_step _ _ e)) ?_ es
    obtain ⟨remote | _, halfClose⟩ := set <;>
      exact ⟨rfl, ⟨rfl, rfl⟩, ⟨[], rfl, .early rfl rfl rfl rfl rfl rfl rfl rfl⟩, fun _ => rfl,
        nofun, nofun⟩
  exact ⟨hup.received, hup.dialed⟩

/-- **What the application gets.**  In every run, what the application has received is the beginning
of the answer in the handshake, the reply and what the target has written, or of the answer and the
refusal if the client gave up.  When the answer or the reply was cut short, nothing of the target
follows. -/
theorem run_toApp (set : Setting) (es : List Event) :
    let s := run (step set) (.init set) es
    (s.client ≠ .refused → (s.down 2).incoming <+: set.method ++ set.reply ++ s.targetWrote)
      ∧ (s.client = .refused → (s.down 2).incoming <+: set.method ++ set.refusal)
      ∧ (s.client ≠ .refused → s.broken = true →
        (s.down 2).incoming <+: set.method ++ set.reply) := by
  intro s
  have hdown : DownInv set s := by
    refine run_invariant (fun _ e h => h.move (move_step _ _ e)) ?_ es
    obtain ⟨remote | _, halfClose⟩ := set
    · exact ⟨rfl, .greeted rfl rfl rfl rfl⟩
    · exact ⟨rfl, .silent rfl rfl rfl rfl⟩
  have hflow := Line.incoming_prefix_flow hdown.held
  have hwhole {b : Bytes} (hb : b <+: set.method ++ set.reply) :
      b <+: set.method ++ set.reply ++ s.targetWrote := hb.trans (List.prefix_append ..)
  cases hdown.place with
  | silent hc _ htwo _ =>
    rw [htwo]
    exact ⟨fun _ => List.nil_prefix, fun _ => List.nil_prefix, fun _ _ => List.nil_prefix⟩
  | greeted hc _ htwo _ =>
    have htwo : (s.down 2).incoming <+: set.method ++ set.reply := htwo ▸ List.prefix_append ..
    exact ⟨fun _ => hwhole htwo, fun hc' => (by rw [hc'] at hc; cases hc), fun _ _ => htwo⟩
  | muted hc _ htwo =>
    have htwo := htwo.trans (List.prefix_append set.method set.reply)
    exact ⟨fun _ => hwhole htwo, fun hc' => (by rw [hc'] at hc; cases hc), fun _ _ => htwo⟩
  | relaying hc hb hflow' =>
    refine ⟨fun _ => hflow' ▸ hflow, fun hc' => ?_, fun _ hb' => ?_⟩
    · simp [hc'] at hc
    · exact absurd (hb.symm.trans hb') (by decide)
  | cut hc _ htwo =>
    refine ⟨fun _ => hwhole htwo, fun hc' => ?_, fun _ _ => htwo⟩
    simp [hc'] at hc
  | refused hc htwo => exact ⟨fun hc' => absurd hc hc', fun _ => htwo, fun hc' => absurd hc hc'⟩

/-- **The counters of the server count what has arrived.**  Whatever fails, `BytesReceived` gets
what the target has been given, and `BytesSent` what has been taken from the target and put on the
stream, each when the copy ends. -/
theorem run_counted (set : Setting) (es : List Event) :
    let s := run (step set) (.init set) es
    s.bytesReceived = (if (s.up 1).ended then (s.up 2).incoming.length else 0)
      ∧ s.bytesSent
        = if (s.down 0).ended then s.targetWrote.length - (s.down 0).content.length else 0 := by
  intro s
  have h : Counted s :=
    run_invariant (fun _ e h => h.move (move_step set _ e)) ⟨rfl, rfl, rfl, rfl⟩ es
  refine ⟨by rw [h.received, h.toTarget], ?_⟩
  rw [h.sent, h.fromTarget, Nat.add_sub_cancel_left]

end Tunnel
