/-
# Messages over a fake TCP connection

`fakeTCPConn` of `internal/transport/faketcp.go`: each `Write` puts a length of two bytes
in front of its payload, and `Read` takes a message off the stream, hands out as much of it
as the caller has room for and keeps the rest for the calls that follow.

The rest is kept in a buffer that is used again for later messages: `readBuf` is the array
behind it, of which the bytes from `readPos` to `readLen` are still to be handed out.  What
`Read` is for is `Delivers`: the payloads in order, a call never going past the end of one.
`read_delivers` connects the two.
-/
import IPShadowT.Stream

open Bytes

namespace FakeTCP

/-! ## The connection -/

/-- The errors of `Write` and `Read`; `conn` stands for an error of the TCP connection. -/
inductive ConnError where
  | payloadTooLarge (n : ℕ)
  | conn
  | eof
  | invalidLength (n : ℕ)
  deriving DecidableEq, Repr

/-- The message of an error that `faketcp.go` makes itself. -/
def ConnError.message : ConnError → Option String
  | .payloadTooLarge n => some ("payload too large: " ++ toString n ++ " > 65535")
  | .invalidLength n => some ("invalid payload length: " ++ toString n)
  | .conn | .eof => none

/-- `fakeTCPConn`: the two directions of the TCP connection, the array behind `readBuf`,
and the counters. -/
structure Conn where
  out : Sink
  incoming : Source
  readBuf : Bytes
  readPos : ℕ
  readLen : ℕ
  bytesSent : ℕ
  bytesRecv : ℕ
  deriving DecidableEq, Repr

/-- A connection as `Dial` and `Accept` return it. -/
def newConn (out : Sink) (incoming : Source) : Conn := ⟨out, incoming, [], 0, 0, 0, 0⟩

/-- `Write`. -/
def write (c : Conn) (p : Bytes) : Except ConnError ℕ × Conn :=
  if p.length > 65535 then (.error (.payloadTooLarge p.length), c)
  else
    match c.out.write (beBytes 2 p.length ++ p) with
    | (false, out) => (.error .conn, { c with out := out })
    | (true, out) => (.ok p.length, { c with out := out, bytesSent := c.bytesSent + p.length })

/-- `readFull`: the loop of `io.ReadFull`, but an error is the one of the connection, and
the buffer keeps what has been read. -/
def readFull (n : ℕ) (incoming : Source) : Except Bytes Bytes × Source :=
  match incoming.readFull n with
  | (.ok b, rest) => (.ok b, rest)
  | (.error _, rest) => (.error incoming.flatten, rest)

/-- The array behind `readBuf`, a larger one where a message of `n` bytes needs it. -/
def grow (buf : Bytes) (n : ℕ) : Bytes :=
  if buf.length < n then List.replicate n 0 else buf

theorem length_grow (buf : Bytes) (n : ℕ) : (grow buf n).length = max buf.length n := by
  rw [grow]
  split_ifs with h
  · rw [List.length_replicate]
    omega
  · omega

/-- `Read` with a buffer of `n` bytes. -/
def read (c : Conn) (n : ℕ) : Go ConnError Bytes × Conn :=
  if c.readPos < c.readLen then
    match slice c.readBuf c.readPos c.readLen with
    | .error e => (.error e, c)
    | .ok data => (.ok (data.take n), { c with readPos := c.readPos + (data.take n).length })
  else
    match readFull 2 c.incoming with
    | (.error _, rest) => (.error (.error .eof), { c with incoming := rest })
    | (.ok header, rest) =>
      let payloadLen := beNat header
      if payloadLen = 0 then (.ok [], { c with incoming := rest })
      else if payloadLen > 65535 then
        (.error (.error (.invalidLength payloadLen)), { c with incoming := rest })
      else
        let buf := grow c.readBuf payloadLen
        match readFull payloadLen rest with
        | (.error got, rest) =>
          (.error (.error .eof), { c with incoming := rest, readBuf := overwrite buf got })
        | (.ok payload, rest) =>
          let buf := overwrite buf payload
          let b := (buf.take payloadLen).take n
          (.ok b, { c with
            incoming := rest
            readBuf := buf
            readPos := b.length
            readLen := payloadLen
            bytesRecv := c.bytesRecv + b.length })

/-- The results of calls of `Read` with buffers of these sizes. -/
def readAll (c : Conn) : List ℕ → List (Go ConnError Bytes) × Conn
  | [] => ([], c)
  | n :: sizes =>
    let (result, c) := read c n
    let (results, c) := readAll c sizes
    (result :: results, c)

/-- What the successful ones among some calls have returned. -/
def returned (results : List (Go ConnError Bytes)) : List Bytes :=
  results.filterMap fun
    | .ok b => some b
    | .error _ => none

/-! ## Messages -/

/-- A payload on the wire. -/
def frame (p : Bytes) : Bytes := beBytes 2 p.length ++ p

theorem beNat_header {p : Bytes} (hp : p.length ≤ 65535) :
    beNat (beBytes 2 p.length) = p.length := by
  rw [beNat_beBytes]
  exact Nat.mod_eq_of_lt (by omega)

variable {ps : List Bytes} {c : Conn} {incoming : Source}

/-- Calls of `Write` on a connection that takes everything. -/
theorem foldl_write (hout : c.out.Reliable) (hps : ∀ p ∈ ps, p.length ≤ 65535) :
    (ps.foldl (fun c p => (write c p).2) c).out = ⟨c.out.written ++ ps.flatMap frame, []⟩ := by
  induction ps generalizing c with
  | nil =>
    obtain ⟨⟨written, script⟩, _⟩ := c
    obtain rfl : script = [] := hout
    simp
  | cons p ps ih =>
    obtain ⟨hp, hps⟩ := List.forall_mem_cons.1 hps
    have hwrite : (write c p).2.out = ⟨c.out.written ++ frame p, []⟩ := by
      rw [write, if_neg (Nat.not_lt.2 hp), Sink.write_of_reliable hout]
      rfl
    have hreliable : (write c p).2.out.Reliable := by
      rw [hwrite]
      rfl
    rw [List.foldl_cons, ih hreliable hps, hwrite, List.flatMap_cons, List.append_assoc]

/-- Reading messages: with `b` left of the message at hand and the payloads `ps` to come,
the calls return `chunks`, and leave `b'` and `ps'`.  A call takes bytes of the message at
hand if there are any, and of the next one otherwise. -/
inductive Delivers : Bytes → List Bytes → List Bytes → Bytes → List Bytes → Prop
  | stop (b : Bytes) (ps : List Bytes) : Delivers b ps [] b ps
  | more {b b' : Bytes} {ps ps' chunks : List Bytes} (n : ℕ) (hb : b ≠ [])
      (h : Delivers (b.drop n) ps chunks b' ps') : Delivers b ps (b.take n :: chunks) b' ps'
  | next {p b' : Bytes} {ps ps' chunks : List Bytes} (n : ℕ)
      (h : Delivers (p.drop n) ps chunks b' ps') :
      Delivers [] (p :: ps) (p.take n :: chunks) b' ps'

namespace Delivers

variable {b b' : Bytes} {ps ps' chunks : List Bytes}

/-- Nothing is lost, added or moved. -/
theorem conserves (h : Delivers b ps chunks b' ps') :
    chunks.flatten ++ (b' ++ ps'.flatten) = b ++ ps.flatten := by
  induction h with
  | stop => rfl
  | more n _ _ ih => rw [List.flatten_cons, List.append_assoc, ih, ← List.append_assoc,
      List.take_append_drop]
  | next n _ ih => rw [List.flatten_cons, List.append_assoc, ih, ← List.append_assoc,
      List.take_append_drop, List.nil_append, List.flatten_cons]

/-- The bytes `x`, returned after the bytes `pre`, are bytes of one message: of `b`, the
message at hand, or of one of the payloads. -/
def OfOne (b : Bytes) (ps : List Bytes) (pre x : Bytes) : Prop :=
  (b ≠ [] ∧ ∃ off, pre = b.take off ∧ x <+: b.drop off) ∨
    ∃ (i : ℕ) (p : Bytes) (off : ℕ), ps[i]? = some p ∧
      pre = b ++ ((ps.take i).flatten ++ p.take off) ∧ x <+: p.drop off

/-- No call returns bytes of two messages. -/
theorem ofOne (h : Delivers b ps chunks b' ps') {k : ℕ} {x : Bytes}
    (hx : chunks[k]? = some x) : OfOne b ps (chunks.take k).flatten x := by
  induction h generalizing k with
  | stop => cases hx
  | @more b _ ps _ chunks n hb _ ih =>
    cases k with
    | zero =>
      obtain rfl : b.take n = x := Option.some.inj hx
      exact .inl ⟨hb, 0, rfl, List.take_prefix n b⟩
    | succ k =>
      rw [List.take_succ_cons, List.flatten_cons]
      rcases ih hx with ⟨-, off, hpre, hpx⟩ | ⟨i, p, off, hi, hpre, hpx⟩
      · rw [List.drop_drop] at hpx
        exact .inl ⟨hb, n + off, by rw [hpre, List.take_add], hpx⟩
      · exact .inr ⟨i, p, off, hi, by rw [hpre, ← List.append_assoc, List.take_append_drop], hpx⟩
  | @next p _ ps _ chunks n _ ih =>
    cases k with
    | zero =>
      obtain rfl : p.take n = x := Option.some.inj hx
      exact .inr ⟨0, p, 0, rfl, rfl, List.take_prefix n p⟩
    | succ k =>
      rw [List.take_succ_cons, List.flatten_cons]
      rcases ih hx with ⟨-, off, hpre, hpx⟩ | ⟨i, q, off, hi, hpre, hpx⟩
      · rw [List.drop_drop] at hpx
        exact .inr ⟨0, p, n + off, rfl, by rw [hpre, ← List.take_add]; rfl, hpx⟩
      · refine .inr ⟨i + 1, q, off, hi, ?_, hpx⟩
        rw [hpre, ← List.append_assoc, List.take_append_drop, List.take_succ_cons,
          List.flatten_cons, List.nil_append, List.append_assoc]

/-- One run of calls after the other. -/
theorem append {b₁ : Bytes} {ps₁ chunks₁ : List Bytes} (h : Delivers b ps chunks b₁ ps₁)
    (h₁ : Delivers b₁ ps₁ chunks₁ b' ps') : Delivers b ps (chunks ++ chunks₁) b' ps' := by
  induction h with
  | stop => exact h₁
  | more n hb _ ih => exact .more n hb (ih h₁)
  | next n _ ih => exact .next n (ih h₁)

theorem suffix (h : Delivers b ps chunks b' ps') : ps' <:+ ps := by
  induction h with
  | stop => exact List.suffix_refl _
  | more _ _ _ ih => exact ih
  | next _ _ ih => exact ih.trans (List.suffix_cons ..)

/-- Where nothing is left, nothing comes. -/
theorem of_nil (h : Delivers [] [] chunks b' ps') : b' = [] ∧ ps' = [] := by
  have hnil := h.conserves
  rw [List.flatten_nil, List.append_nil, List.append_eq_nil_iff, List.append_eq_nil_iff] at hnil
  exact ⟨hnil.2.1, List.suffix_nil.1 h.suffix⟩

end Delivers

/-- The number of calls that suffice: each takes a byte, or a message without bytes. -/
def todo (b : Bytes) (ps : List Bytes) : ℕ := b.length + (ps.length + ps.flatten.length)

/-! ## What `Read` returns -/

/-- The connection has `b` to hand out, and `ps` to come in its stream, of which the end
`missing` does not arrive. -/
structure Holds (c : Conn) (b : Bytes) (ps : List Bytes) (missing : Bytes) : Prop where
  pos_le : c.readPos ≤ c.readLen
  len_le : c.readLen ≤ c.readBuf.length
  pending : (c.readBuf.take c.readLen).drop c.readPos = b
  stream : c.incoming.flatten ++ missing = ps.flatMap frame

theorem holds_newConn (out : Sink) {missing : Bytes}
    (h : incoming.flatten ++ missing = ps.flatMap frame) :
    Holds (newConn out incoming) [] ps missing :=
  ⟨le_refl _, le_refl _, rfl, h⟩

theorem readFull_append {field later : Bytes} (h : incoming.flatten = field ++ later) :
    ∃ rest, readFull field.length incoming = (.ok field, rest) ∧ rest.flatten = later := by
  obtain ⟨rest, hread, hrest⟩ := Source.readFull_append h
  exact ⟨rest, by rw [readFull, hread], hrest⟩

theorem readFull_short {n : ℕ} (h : incoming.flatten.length < n) :
    readFull n incoming = (.error incoming.flatten, []) := by
  rcases hread : incoming.readFull n with ⟨e | b, rest⟩
  · obtain ⟨-, rfl⟩ := Source.readLoop_eq_error hread
    rw [readFull, hread]
  · exact absurd (Source.readFull_eq_ok hread).1 (Nat.not_le.2 h)

/-- A field at the front of a stream arrives, unless the stream ends before. -/
theorem field_arrives {got missing field later : Bytes} (h : got ++ missing = field ++ later) :
    (∃ later', got = field ++ later' ∧ later' ++ missing = later) ∨
      (got.length < field.length ∧ missing ≠ []) := by
  by_cases hlen : field.length ≤ got.length
  · refine .inl ⟨got.drop field.length, ?_, ?_⟩
    · have htake := congrArg (List.take field.length) h
      rw [List.take_append_of_le_length hlen, List.take_left] at htake
      rw [← htake, List.length_take_of_le hlen, List.take_append_drop]
    · have hdrop := congrArg (List.drop field.length) h
      rwa [List.drop_append_of_le_length hlen, List.drop_left] at hdrop
  · refine .inr ⟨Nat.not_le.1 hlen, ?_⟩
    rintro rfl
    have hlength := congrArg List.length h
    rw [List.append_nil, List.length_append] at hlength
    omega

section Read

variable {c : Conn} {b missing : Bytes} {ps : List Bytes} (h : Holds c b ps missing) (n : ℕ)
include h

/-- A call while there is something left of the message at hand. -/
theorem read_pending (hb : b ≠ []) :
    (read c n).1 = .ok (b.take n) ∧ Holds (read c n).2 (b.drop n) ps missing := by
  have hlt : c.readPos < c.readLen := by
    by_contra hle
    apply hb
    rw [← h.pending, List.drop_eq_nil_iff, List.length_take]
    have := h.len_le
    omega
  have hslice : (slice c.readBuf c.readPos c.readLen : Go ConnError Bytes) = .ok b :=
    slice_eq_ok.2 ⟨h.pos_le, h.len_le, h.pending⟩
  have hread : read c n
      = (.ok (b.take n), { c with readPos := c.readPos + (b.take n).length }) := by
    rw [read, if_pos hlt, hslice]
  have hlength : b.length = c.readLen - c.readPos := length_of_slice hslice
  rw [hread]
  refine ⟨rfl, ?_, h.len_le, ?_, h.stream⟩
  · show c.readPos + (b.take n).length ≤ c.readLen
    rw [List.length_take]
    omega
  · show (c.readBuf.take c.readLen).drop (c.readPos + (b.take n).length) = b.drop n
    rw [← List.drop_drop, h.pending, drop_length_take]

/-- Nothing is left of the message at hand. -/
theorem Holds.drained (hb : b = []) : ¬ c.readPos < c.readLen := by
  have hempty := h.pending
  rw [hb, List.drop_eq_nil_iff, List.length_take, Nat.min_eq_left h.len_le] at hempty
  omega

end Read

/-- A call that takes a message off the stream. -/
theorem read_message {p missing : Bytes} (h : Holds c [] (p :: ps) missing) (hp : p.length ≤ 65535)
    (n : ℕ) {later : Bytes} (harrives : c.incoming.flatten = frame p ++ later)
    (hlater : later ++ missing = ps.flatMap frame) :
    (read c n).1 = .ok (p.take n) ∧ Holds (read c n).2 (p.drop n) ps missing := by
  rw [frame, List.append_assoc] at harrives
  obtain ⟨rest, hheader, hrest⟩ := readFull_append harrives
  obtain ⟨rest', hpayload, hrest'⟩ := readFull_append hrest
  rw [length_beBytes] at hheader
  rw [read, if_neg (h.drained rfl), hheader]
  dsimp only
  rw [beNat_header hp]
  by_cases hzero : p.length = 0
  · obtain rfl := List.length_eq_zero_iff.1 hzero
    rw [if_pos List.length_nil]
    refine ⟨by rw [List.take_nil], h.pos_le, h.len_le, ?_, ?_⟩
    · rw [List.drop_nil]
      exact h.pending
    · show rest.flatten ++ missing = _
      rw [hrest, List.nil_append, hlater]
  · rw [if_neg hzero, if_neg (Nat.not_lt.2 hp), hpayload]
    dsimp only
    have hroom : p.length ≤ (grow c.readBuf p.length).length := by
      rw [length_grow]
      omega
    rw [take_overwrite]
    refine ⟨rfl, List.length_take_le' n p, ?_, ?_, ?_⟩
    · show p.length ≤ (overwrite (grow c.readBuf p.length) p).length
      rwa [length_overwrite hroom]
    · show ((overwrite (grow c.readBuf p.length) p).take p.length).drop (p.take n).length = p.drop n
      rw [take_overwrite, drop_length_take]
    · show rest'.flatten ++ missing = _
      rw [hrest', hlater]

/-- A call on a stream that ends before the next message is complete. -/
theorem read_short {missing : Bytes} (h : Holds c [] ps missing) (hps : ∀ p ∈ ps, p.length ≤ 65535)
    (n : ℕ) (hshort : ∀ p ∈ ps.head?, c.incoming.flatten.length < (frame p).length) :
    (read c n).1 = .error (.error .eof) ∧ Holds (read c n).2 [] ps (ps.flatMap frame) := by
  by_cases hheader : c.incoming.flatten.length < 2
  · rw [read, if_neg (h.drained rfl), readFull_short hheader]
    exact ⟨rfl, h.pos_le, h.len_le, h.pending, rfl⟩
  · cases ps with
    | nil =>
      have hempty := congrArg List.length h.stream
      rw [List.length_append, List.flatMap_nil, List.length_nil] at hempty
      omega
    | cons p ps =>
      have hp := hps p (List.mem_cons_self ..)
      have hlt := hshort p rfl
      rw [frame, List.length_append, length_beBytes] at hlt
      have hstream := h.stream
      rw [List.flatMap_cons, frame, List.append_assoc] at hstream
      rcases field_arrives hstream with ⟨later, hlater, -⟩ | ⟨hfew, -⟩
      · obtain ⟨rest, hread, hrest⟩ := readFull_append hlater
        rw [length_beBytes] at hread
        have hrest_lt : rest.flatten.length < p.length := by
          have := congrArg List.length hlater
          rw [List.length_append, length_beBytes] at this
          rw [hrest]
          omega
        rw [read, if_neg (h.drained rfl), hread]
        dsimp only
        rw [beNat_header hp, if_neg (by omega), if_neg (Nat.not_lt.2 hp), readFull_short hrest_lt]
        -- part of the message is in the buffer, and none of it is handed out
        have hbuf : c.readLen ≤ (overwrite (grow c.readBuf p.length) rest.flatten).length := by
          have hroom : rest.flatten.length ≤ (grow c.readBuf p.length).length := by
            rw [length_grow]
            omega
          rw [length_overwrite hroom, length_grow]
          exact le_trans h.len_le (Nat.le_max_left ..)
        refine ⟨rfl, h.pos_le, hbuf, ?_, rfl⟩
        rw [List.drop_eq_nil_iff, List.length_take_of_le hbuf]
        exact Nat.not_lt.1 (h.drained rfl)
      · rw [length_beBytes] at hfew
        exact absurd hfew hheader

theorem todo_more {b : Bytes} (hb : b ≠ []) (ps : List Bytes) {n : ℕ} (hn : 0 < n) :
    todo (b.drop n) ps < todo b ps := by
  have := List.length_pos_iff.2 hb
  rw [todo, todo, List.length_drop]
  omega

theorem todo_next (p : Bytes) (ps : List Bytes) (n : ℕ) :
    todo (p.drop n) ps < todo [] (p :: ps) := by
  rw [todo, todo, List.length_drop, List.flatten_cons, List.length_append, List.length_cons,
    List.length_nil]
  omega

/-- **What one call does.**  It hands out bytes of one message, or the stream has ended. -/
theorem read_delivers {b missing : Bytes} (h : Holds c b ps missing)
    (hps : ∀ p ∈ ps, p.length ≤ 65535) (n : ℕ) :
    (∃ x b' ps', (read c n).1 = .ok x ∧ Delivers b ps [x] b' ps' ∧
        Holds (read c n).2 b' ps' missing ∧ (0 < n → todo b' ps' < todo b ps)) ∨
      ((read c n).1 = .error (.error .eof) ∧ b = [] ∧ (missing = [] → ps = []) ∧
        Holds (read c n).2 [] ps (ps.flatMap frame)) := by
  by_cases hb : b = []
  · subst hb
    cases ps with
    | nil =>
      obtain ⟨hread, hholds⟩ := read_short h hps n (by simp)
      exact .inr ⟨hread, rfl, fun _ => rfl, hholds⟩
    | cons p ps =>
      have hstream := h.stream
      rw [List.flatMap_cons] at hstream
      rcases field_arrives hstream with ⟨later, harrives, hlater⟩ | ⟨hshort, hmissing⟩
      · obtain ⟨hread, hholds⟩ :=
          read_message h (hps p (List.mem_cons_self ..)) n harrives hlater
        exact .inl ⟨_, _, _, hread, .next n (.stop _ _), hholds, fun _ => todo_next p ps n⟩
      · obtain ⟨hread, hholds⟩ := read_short h hps n
          (by rintro _ ⟨⟩; exact hshort)
        exact .inr ⟨hread, rfl, fun hnone => absurd hnone hmissing, hholds⟩
  · obtain ⟨hread, hholds⟩ := read_pending h n hb
    exact .inl ⟨_, _, _, hread, .more n hb (.stop _ _), hholds, todo_more hb ps⟩

/-- **What any number of calls do.**  They deliver the payloads; if the stream is complete,
an end of stream means that nothing is left, and calls with room for a byte take at least
one step each. -/
theorem readAll_delivers {b missing : Bytes} (h : Holds c b ps missing)
    (hps : ∀ p ∈ ps, p.length ≤ 65535) (sizes : List ℕ) :
    ∃ b' ps', Delivers b ps (returned (readAll c sizes).1) b' ps' ∧
      (∀ r ∈ (readAll c sizes).1, (∃ x, r = .ok x) ∨ r = .error (.error .eof)) ∧
      (missing = [] → (b' = [] ∧ ps' = []) ∨
        (.error (.error .eof) ∉ (readAll c sizes).1 ∧
          ((∀ n ∈ sizes, 0 < n) → todo b' ps' + sizes.length ≤ todo b ps))) := by
  induction sizes generalizing c b ps missing with
  | nil => exact ⟨b, ps, .stop b ps, by simp [readAll], fun _ => .inr ⟨by simp [readAll], by simp⟩⟩
  | cons n sizes ih =>
    have hcons : (readAll c (n :: sizes)).1
        = (read c n).1 :: (readAll (read c n).2 sizes).1 := rfl
    rw [hcons]
    rcases read_delivers h hps n with ⟨x, b₁, ps₁, hread, hstep, hholds, hless⟩ |
      ⟨hread, rfl, hnone, hholds⟩
    · obtain ⟨b', ps', hrun, hresults, hdone⟩ :=
        ih hholds fun p hp => hps p (hstep.suffix.subset hp)
      rw [hread]
      refine ⟨b', ps', hstep.append hrun, ?_, fun hmissing => ?_⟩
      · exact List.forall_mem_cons.2 ⟨.inl ⟨x, rfl⟩, hresults⟩
      · rcases hdone hmissing with hend | ⟨hno, hcount⟩
        · exact .inl hend
        · refine .inr ⟨by simpa using hno, fun hpos => ?_⟩
          have hn := hless (hpos n (List.mem_cons_self ..))
          have hrest := hcount fun m hm => hpos m (List.mem_cons_of_mem n hm)
          rw [List.length_cons]
          omega
    · obtain ⟨b', ps', hrun, hresults, hdone⟩ := ih hholds hps
      rw [hread]
      refine ⟨b', ps', hrun, List.forall_mem_cons.2 ⟨.inr rfl, hresults⟩, fun hmissing => ?_⟩
      obtain rfl := hnone hmissing
      exact .inl hrun.of_nil

/-! ## Both ends -/

/-- **A faithful framed stream.**  One end writes `ps`; of what it has sent the other end gets
`incoming`, cut in any way, and calls `Read` with buffers of these `sizes`.  No call panics,
what they return is at the front of what was written, and no call returns bytes of two
payloads.  When the whole stream arrives, everything has been returned once a call reports
the end of the stream, and also after as many calls as there are payloads and bytes. -/
theorem readAll_of_write (src : Source) (out : Sink) (ps : List Bytes)
    (hps : ∀ p ∈ ps, p.length ≤ 65535) (incoming : Source)
    (hin : incoming.flatten <+:
      (ps.foldl (fun c p => (write c p).2) (newConn ⟨[], []⟩ src)).out.written)
    (sizes : List ℕ) (hsizes : ∀ n ∈ sizes, 0 < n) :
    let sent := (ps.foldl (fun c p => (write c p).2) (newConn ⟨[], []⟩ src)).out.written
    let results := (readAll (newConn out incoming) sizes).1
    (∀ r ∈ results, (∃ x, r = .ok x) ∨ r = .error (.error .eof)) ∧
      (returned results).flatten <+: ps.flatten ∧
      (∀ k x, (returned results)[k]? = some x → ∃ i p off, ps[i]? = some p ∧
        ((returned results).take k).flatten = (ps.take i).flatten ++ p.take off ∧
        x <+: p.drop off) ∧
      (incoming.flatten = sent →
        (.error (.error .eof) ∈ results ∨ ps.length + ps.flatten.length ≤ sizes.length) →
        (returned results).flatten = ps.flatten) := by
  intro sent results
  have hsent : sent = ps.flatMap frame := by
    have hout : (newConn ⟨[], []⟩ src).out.Reliable := rfl
    exact congrArg Sink.written (foldl_write hout hps)
  obtain ⟨missing, hmissing⟩ : incoming.flatten <+: sent := hin
  obtain ⟨b', ps', hrun, hresults, hdone⟩ :=
    readAll_delivers (holds_newConn out (hmissing.trans hsent)) hps sizes
  have hconserves := hrun.conserves
  rw [List.nil_append] at hconserves
  refine ⟨hresults, ⟨_, hconserves⟩, fun k x hx => ?_, fun hall hread => ?_⟩
  · rcases hrun.ofOne hx with ⟨hne, -⟩ | hone
    · exact absurd rfl hne
    · exact hone
  · have hnone : missing = [] := by
      have hlength := congrArg List.length hmissing
      rw [List.length_append, hall] at hlength
      exact List.length_eq_zero_iff.1 (by omega)
    obtain ⟨rfl, rfl⟩ : b' = [] ∧ ps' = [] := by
      rcases hdone hnone with hend | ⟨hno, hcount⟩
      · exact hend
      · have hlong := hread.resolve_left hno
        have htodo := hcount hsizes
        rw [todo, todo, List.length_nil] at htodo
        exact ⟨List.length_eq_zero_iff.1 (by omega), List.length_eq_zero_iff.1 (by omega)⟩
    rwa [List.flatten_nil, List.append_nil, List.append_nil] at hconserves

/-- Three payloads, one of them empty, read in pieces of two bytes from a stream cut inside
the first header. -/
theorem readAll_threePayloads :
    (returned (readAll (newConn ⟨[], []⟩ [[0], [3, 7, 8], [9, 0, 0, 0, 1], [5]])
      [2, 2, 2, 2, 2]).1).flatten = [7, 8, 9, 5] := by
  have h := (readAll_of_write [] ⟨[], []⟩ [[7, 8, 9], [], [5]] (by decide)
    [[0], [3, 7, 8], [9, 0, 0, 0, 1], [5]] (by decide) [2, 2, 2, 2, 2] (by decide)).2.2.2
  exact h (by decide) (.inl (by decide))

end FakeTCP
