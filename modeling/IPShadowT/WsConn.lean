/-
# Byte streams over WebSocket messages

A WebSocket carries messages and a `net.Conn` carries bytes.  `WSConn` of
`internal/transport/wsmux.go` makes the one look like the other: a `Read` copies what it can
of a message and keeps the rest for the next call.  The CDN client has an adapter of its
own, `wsNetConn` of `internal/cdn/cdn.go`.

`WSConn.read_conserves` says what one `Read` does to the bytes that are still to come, and
`reads_conserve` what any sequence of them does, with the second adapter simulated by the
first (`WsNetConn.read_toWSConn`).
-/
import IPShadowT.Bytes
import IPShadowT.Runs

open Bytes

namespace WebSocket

/-- `ReadMessage` fails once the messages of the peer are used up. -/
inductive MessageError where
  | closed
  deriving DecidableEq, Repr

/-- `ReadMessage`: the next message of the peer, and those after it. -/
def readMessage : List Bytes → Except MessageError (Bytes × List Bytes)
  | [] => .error .closed
  | msg :: ws => .ok (msg, ws)

/-! ## The adapter of the transport -/

/-- `wsReader`. -/
structure WsReader where
  buf : Bytes
  pos : ℕ
  deriving DecidableEq, Repr

/-- `WSConn`; of the WebSocket, the messages that the peer has sent and nobody has read. -/
structure WSConn where
  ws : List Bytes
  reader : WsReader
  deriving DecidableEq, Repr

/-- `NewWSConn`. -/
def newWSConn (ws : List Bytes) : WSConn := ⟨ws, ⟨[], 0⟩⟩

/-- `WSConn.Read` into a buffer of `size` bytes: what it copies there, and the connection
afterwards. -/
def WSConn.read (c : WSConn) (size : ℕ) : Go MessageError Bytes × WSConn :=
  if c.reader.pos < c.reader.buf.length then
    match slice c.reader.buf c.reader.pos c.reader.buf.length with
    | .error e => (.error e, c)
    | .ok left =>
      let copied := left.take size
      (.ok copied, { c with reader := ⟨c.reader.buf, c.reader.pos + copied.length⟩ })
  else
    match readMessage c.ws with
    | .error e => (.error (.error e), c)
    | .ok (msg, ws) =>
      let copied := msg.take size
      if copied.length < msg.length then (.ok copied, ⟨ws, ⟨msg, copied.length⟩⟩)
      else (.ok copied, ⟨ws, ⟨[], 0⟩⟩)

/-- What the adapter has taken from a message and not returned. -/
def WSConn.buffered (c : WSConn) : Bytes := c.reader.buf.drop c.reader.pos

/-- The bytes that are still to come. -/
def WSConn.pending (c : WSConn) : Bytes := c.buffered ++ c.ws.flatten

/-- The bytes that a result stands for. -/
def bytesOf : Go MessageError Bytes → Bytes
  | .ok b => b
  | .error _ => []

/-- A `Read` from the buffer. -/
theorem WSConn.read_of_lt {c : WSConn} (h : c.reader.pos < c.reader.buf.length) (size : ℕ) :
    c.read size = (.ok (c.buffered.take size),
      ⟨c.ws, ⟨c.reader.buf, c.reader.pos + (c.buffered.take size).length⟩⟩) := by
  have hslice : (slice c.reader.buf c.reader.pos c.reader.buf.length : Go MessageError Bytes)
      = .ok c.buffered := by
    rw [slice, if_pos ⟨h.le, le_rfl⟩, List.take_length, WSConn.buffered]
  rw [WSConn.read, if_pos h, hslice]

theorem WSConn.buffered_of_le {c : WSConn} (h : c.reader.buf.length ≤ c.reader.pos) :
    c.buffered = [] :=
  List.drop_of_length_le h

/-- **One `Read`.**  It stays in range, what it returns comes off the front of the bytes to
come, and it fails only when there are none. -/
theorem WSConn.read_conserves (c : WSConn) (size : ℕ) :
    Go.NoPanic (c.read size).1
      ∧ bytesOf (c.read size).1 ++ (c.read size).2.pending = c.pending
      ∧ ((c.read size).1 = .error (.error .closed) → c.pending = []) := by
  by_cases hbuf : c.reader.pos < c.reader.buf.length
  · rw [WSConn.read_of_lt hbuf]
    refine ⟨Go.NoPanic.ok _, ?_, nofun⟩
    have hleft : WSConn.buffered
          ⟨c.ws, ⟨c.reader.buf, c.reader.pos + (c.buffered.take size).length⟩⟩
        = c.buffered.drop size := by
      rw [← drop_length_take, WSConn.buffered, WSConn.buffered, List.drop_drop]
    rw [bytesOf, WSConn.pending, WSConn.pending, hleft, ← List.append_assoc, List.take_append_drop]
  · have hpending : c.pending = c.ws.flatten := by
      rw [WSConn.pending, WSConn.buffered_of_le (Nat.not_lt.1 hbuf), List.nil_append]
    rw [hpending, WSConn.read, if_neg hbuf]
    cases hws : c.ws with
    | nil =>
      refine ⟨Go.NoPanic.error _, ?_, fun _ => rfl⟩
      show [] ++ c.pending = _
      rw [hpending, hws]
      rfl
    | cons msg ws =>
      rw [readMessage]
      dsimp only
      split_ifs with hshort
      · -- the rest of the message is kept
        refine ⟨Go.NoPanic.ok _, ?_, nofun⟩
        show msg.take size ++ (msg.drop (msg.take size).length ++ ws.flatten) = _
        rw [drop_length_take, ← List.append_assoc, List.take_append_drop, List.flatten_cons]
      · refine ⟨Go.NoPanic.ok _, ?_, nofun⟩
        have hall : msg.take size = msg :=
          List.IsPrefix.eq_of_length_le (List.take_prefix size msg) (Nat.not_lt.1 hshort)
        show msg.take size ++ ([] ++ ws.flatten) = _
        rw [hall, List.nil_append, List.flatten_cons]

/-! ## The adapter of the CDN client -/

/-- `wsNetReader`. -/
structure WsNetReader where
  buf : Bytes
  pos : ℕ
  deriving DecidableEq, Repr

/-- `wsNetConn`. -/
structure WsNetConn where
  ws : List Bytes
  reader : WsNetReader
  deriving DecidableEq, Repr

/-- `newWSNetConn`. -/
def newWSNetConn (ws : List Bytes) : WsNetConn := ⟨ws, ⟨[], 0⟩⟩

/-- `wsNetConn.Read` into a buffer of `size` bytes. -/
def WsNetConn.read (c : WsNetConn) (size : ℕ) : Go MessageError Bytes × WsNetConn :=
  if c.reader.pos < c.reader.buf.length then
    match slice c.reader.buf c.reader.pos c.reader.buf.length with
    | .error e => (.error e, c)
    | .ok left =>
      let copied := left.take size
      (.ok copied, { c with reader := ⟨c.reader.buf, c.reader.pos + copied.length⟩ })
  else
    match readMessage c.ws with
    | .error e => (.error (.error e), c)
    | .ok (msg, ws) =>
      let copied := msg.take size
      if copied.length < msg.length then (.ok copied, ⟨ws, ⟨msg, copied.length⟩⟩)
      else (.ok copied, ⟨ws, ⟨[], 0⟩⟩)

/-- The state of the one adapter as a state of the other. -/
def WsNetConn.toWSConn (c : WsNetConn) : WSConn := ⟨c.ws, ⟨c.reader.buf, c.reader.pos⟩⟩

/-- A `Read` of the one adapter is a `Read` of the other. -/
theorem WsNetConn.read_toWSConn (c : WsNetConn) (size : ℕ) :
    c.toWSConn.read size = ((c.read size).1, (c.read size).2.toWSConn) := by
  obtain ⟨ws, buf, pos⟩ := c
  unfold WSConn.read WsNetConn.read WsNetConn.toWSConn
  dsimp only
  split_ifs with hbuf
  · rw [slice, if_pos ⟨hbuf.le, le_rfl⟩]
  · cases ws with
    | nil => rfl
    | cons msg ws =>
      rw [readMessage]
      dsimp only
      split_ifs <;> rfl

/-! ## Whole runs -/

/-- A connection and the results of the `Read` calls made on it so far. -/
structure Reading (σ : Type) where
  conn : σ
  results : List (Go MessageError Bytes)
  deriving Repr

/-- One more `Read`. -/
def Reading.step {σ : Type} (read : σ → ℕ → Go MessageError Bytes × σ) (s : Reading σ)
    (size : ℕ) : Reading σ :=
  ⟨(read s.conn size).2, s.results ++ [(read s.conn size).1]⟩

/-- The `Read` calls of a run on a new `WSConn`, given by the sizes of their buffers. -/
def reads (ms : List Bytes) (sizes : List ℕ) : Reading WSConn :=
  Runs.run (Reading.step WSConn.read) ⟨newWSConn ms, []⟩ sizes

/-- The same on a new `wsNetConn`. -/
def netReads (ms : List Bytes) (sizes : List ℕ) : Reading WsNetConn :=
  Runs.run (Reading.step WsNetConn.read) ⟨newWSNetConn ms, []⟩ sizes

/-- The bytes returned so far. -/
def Reading.returned {σ : Type} (s : Reading σ) : Bytes := s.results.flatMap bytesOf

/-- Nothing of the messages `ms` has been lost, repeated or moved, no call has panicked, and
calls have failed only at the end. -/
structure Conserves (ms : List Bytes) (s : Reading WSConn) : Prop where
  noPanic : ∀ r ∈ s.results, Go.NoPanic r
  stream : s.returned ++ s.conn.pending = ms.flatten
  closed : .error (.error .closed) ∈ s.results → s.conn.pending = []

theorem conserves_step {ms : List Bytes} {s : Reading WSConn} (h : Conserves ms s) (size : ℕ) :
    Conserves ms (s.step WSConn.read size) := by
  obtain ⟨hsafe, hbytes, hclosed⟩ := s.conn.read_conserves size
  refine ⟨?_, ?_, ?_⟩
  · intro r hr
    rcases List.mem_append.1 hr with hr | hr
    · exact h.noPanic r hr
    · rw [List.mem_singleton.1 hr]
      exact hsafe
  · have hreturned : (s.step WSConn.read size).returned
        = s.returned ++ bytesOf (s.conn.read size).1 := by
      simp [Reading.step, Reading.returned]
    rw [hreturned, List.append_assoc]
    show s.returned ++ (bytesOf (s.conn.read size).1 ++ (s.conn.read size).2.pending) = _
    rw [hbytes, h.stream]
  · intro hr
    have hdone : s.conn.pending = [] := by
      rcases List.mem_append.1 hr with hr | hr
      · exact h.closed hr
      · exact hclosed (List.mem_singleton.1 hr).symm
    rw [hdone] at hbytes
    exact (List.append_eq_nil_iff.1 hbytes).2

/-- The two adapters have returned the same and are in the same state. -/
structure SameSoFar (s : Reading WSConn) (t : Reading WsNetConn) : Prop where
  conn : s.conn = t.conn.toWSConn
  results : s.results = t.results

theorem sameSoFar_step {s : Reading WSConn} {t : Reading WsNetConn} (h : SameSoFar s t)
    (size : ℕ) : SameSoFar (s.step WSConn.read size) (t.step WsNetConn.read size) := by
  have hread : s.conn.read size = ((t.conn.read size).1, (t.conn.read size).2.toWSConn) := by
    rw [h.conn, WsNetConn.read_toWSConn]
  refine ⟨?_, ?_⟩
  · rw [Reading.step, Reading.step, hread]
  · rw [Reading.step, Reading.step, hread, h.results]

/-- **A byte stream out of messages.**  For every sequence of messages and every sequence of
`Read` calls, what `WSConn` has returned, what it still buffers and the unread messages are
the messages, in order and each byte once; no call panics, and calls fail only when all has
been returned.  `wsNetConn` returns the same results. -/
theorem reads_conserve (ms : List Bytes) (sizes : List ℕ) :
    (reads ms sizes).returned
          ++ ((reads ms sizes).conn.buffered ++ (reads ms sizes).conn.ws.flatten) = ms.flatten
      ∧ (∀ r ∈ (reads ms sizes).results, Go.NoPanic r)
      ∧ (.error (.error .closed) ∈ (reads ms sizes).results →
          (reads ms sizes).returned = ms.flatten)
      ∧ (netReads ms sizes).results = (reads ms sizes).results := by
  have hstart : Conserves ms ⟨newWSConn ms, []⟩ := ⟨by simp, rfl, by simp⟩
  have hrun : Conserves ms (reads ms sizes) :=
    Runs.run_invariant (I := Conserves ms) (fun s size hs => conserves_step hs size) hstart sizes
  have hsame : SameSoFar (reads ms sizes) (netReads ms sizes) :=
    Runs.run_simulation (R := SameSoFar) (fun s t size hst => sameSoFar_step hst size)
      ⟨rfl, rfl⟩ sizes
  refine ⟨hrun.stream, hrun.noPanic, fun hclosed => ?_, hsame.results.symm⟩
  have hstream := hrun.stream
  rw [hrun.closed hclosed, List.append_nil] at hstream
  exact hstream

/-- An empty message, one that two calls take, and one of one byte. -/
example : (reads [[], [1, 2, 3], [4]] [2, 2, 2, 2, 2]).results
    = [.ok [], .ok [1, 2], .ok [3], .ok [4], .error (.error .closed)] := by decide

end WebSocket
