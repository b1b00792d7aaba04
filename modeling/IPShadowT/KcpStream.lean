/-
# A KCP connection as a byte stream

Two ends of a KCP connection over a network that delivers every datagram once and in order.
`Write` cuts its buffer into packets, `readLoop` queues their payloads, and `Read` takes one
packet off the queue, copies what fits and lets go of the rest.

`always_lossless_iff` says when what has been returned at an end, followed by what is on the way
to it, is what has been written at the other.
-/
import Mathlib.Data.List.TakeDrop
import IPShadowT.Kcp
import IPShadowT.Runs

open Bytes Runs

namespace Kcp

/-! ## What `Write` sends -/

section Write

variable {x : Crypto}

/-- A round of the loop that sends a packet. -/
theorem writePackets_succ {p : Bytes} {stamps : ℕ → Stamp} {fuel : ℕ} {c : Conn} {offset stop : ℕ}
    (hoff : offset < p.length) (hlt : offset < stop)
    (hstop : min ((offset : ℤ) + (c.settings.mtu - kcpHdrSize - 16)) p.length = stop) :
    writePackets x p (fuel + 1) (fun k => (stamps k, true)) c offset =
      let r := writePackets x p fuel (fun k => (stamps (k + 1), true))
        { c with sndNxt := c.sndNxt + 1 } stop
      (r.1, r.2.1, datagram x c kcpCmdPush ((p.take stop).drop offset) (stamps 0) :: r.2.2) := by
  rw [writePackets, if_pos hoff]
  dsimp only
  rw [hstop, if_neg (by omega), Int.toNat_natCast, if_pos rfl]

variable (hx : x.Correct)
include hx

/-- One packet of the loop: its end lies behind its start, and it brings what it was cut from. -/
theorem received_fragment {c : Conn} (hs : c.settings.Usable) (hmtu : 36 < c.settings.mtu)
    (hmtu' : c.settings.mtu ≤ 65000) {p : Bytes} {offset : ℕ} (hoff : offset < p.length)
    (t : Stamp) :
    ∃ stop : ℕ, min ((offset : ℤ) + (c.settings.mtu - kcpHdrSize - 16)) p.length = stop ∧
      offset < stop ∧
      received x c.settings (datagram x c kcpCmdPush ((p.take stop).drop offset) t)
        = some ((p.take stop).drop offset) := by
  refine ⟨min (offset + (c.settings.mtu - 36)) p.length, ?_, by omega, ?_⟩
  · rw [kcpHdrSize]
    omega
  · have hlen : ((p.take (min (offset + (c.settings.mtu - 36)) p.length)).drop offset).length
        = min (offset + (c.settings.mtu - 36)) p.length - offset := by
      rw [List.length_drop, List.length_take_of_le (by omega)]
    rw [received_datagram hx hs kcpCmdPush (by omega), if_pos]
    refine ⟨rfl, ?_⟩
    rw [← List.length_pos_iff]
    omega

/-- The loop sends the rest of the buffer. -/
theorem writePackets_sent (p : Bytes) (stamps : ℕ → Stamp) (fuel : ℕ) {c : Conn}
    (hs : c.settings.Usable) (hmtu : 36 < c.settings.mtu) (hmtu' : c.settings.mtu ≤ 65000)
    {offset : ℕ} (hfuel : p.length < offset + fuel) :
    let r := writePackets x p fuel (fun k => (stamps k, true)) c offset
    (offset ≤ p.length → r.1 = .returned p.length none) ∧
      r.2.1 = { c with sndNxt := r.2.1.sndNxt } ∧
      (r.2.2.filterMap (received x c.settings)).flatten = p.drop offset := by
  induction fuel generalizing c offset stamps with
  | zero =>
    intro r
    refine ⟨fun hle => absurd hle (by omega), rfl, ?_⟩
    rw [List.drop_of_length_le (by omega)]
    rfl
  | succ fuel ih =>
    intro r
    by_cases hoff : offset < p.length
    · obtain ⟨stop, hstop, hlt, hreceived⟩ :=
        received_fragment hx hs hmtu hmtu' hoff (stamps 0)
      have hfuel' : p.length < stop + fuel := by omega
      have hle : stop ≤ p.length := by omega
      have hr : r = _ := writePackets_succ hoff hlt hstop
      obtain ⟨hret, hconn, hsent⟩ := ih (fun k => stamps (k + 1))
        (c := { c with sndNxt := c.sndNxt + 1 }) hs hmtu hmtu' hfuel'
      rw [hr]
      refine ⟨fun _ => hret hle, hconn, ?_⟩
      show (List.filterMap (received x c.settings) (_ :: _)).flatten = _
      rw [List.filterMap_cons_some hreceived, List.flatten_cons, hsent]
      rw [List.drop_take, show p.drop stop = (p.drop offset).drop (stop - offset) by
        rw [List.drop_drop, Nat.add_sub_cancel' hlt.le], List.take_append_drop]
    · have hr : r = (.returned p.length none, c, []) := by
        show writePackets x p (fuel + 1) (fun k => (stamps k, true)) c offset = _
        rw [writePackets, if_neg hoff]
      rw [hr, List.drop_of_length_le (by omega)]
      exact ⟨fun _ => rfl, rfl, rfl⟩

/-- **`Write` sends its buffer.** -/
theorem write_sent {password : Bytes} {c : Conn} (hs : c.settings = newKCP x password)
    (hopen : c.closed = false) (p : Bytes) (stamps : ℕ → Stamp) :
    let r := write x c p fun k => (stamps k, true)
    r.1 = .returned p.length none ∧ r.2.1 = { c with sndNxt := r.2.1.sndNxt } ∧
      (r.2.2.filterMap (received x c.settings)).flatten = p := by
  intro r
  have hr : r = writePackets x p (p.length + 1) (fun k => (stamps k, true)) c 0 := by
    show write x c p _ = _
    rw [write, hopen, if_neg Bool.false_ne_true]
  have husable : c.settings.Usable := hs ▸ newKCP_usable hx password
  have hmtu : c.settings.mtu = 1350 := hs ▸ rfl
  have hfuel : p.length < 0 + (p.length + 1) := by omega
  obtain ⟨hret, hconn, hsent⟩ :=
    writePackets_sent hx p stamps _ husable (by omega) (by omega) hfuel
  rw [hr]
  exact ⟨hret (Nat.zero_le _), hconn, hsent⟩

end Write

/-! ## What `readLoop` leaves alone and what it answers -/

section Receive

variable {x : Crypto}

/-- A connection as far as its packets and its calls depend on it. -/
def Conn.SameAs (c c' : Conn) : Prop := c'.settings = c.settings ∧ c'.closed = c.closed

theorem Conn.sameAs_enqueue (c : Conn) (payload : Bytes) : c.SameAs (c.enqueue payload) := by
  unfold Conn.enqueue
  split_ifs <;> exact ⟨rfl, rfl⟩

/-- A reply is an acknowledgement or a pong. -/
theorem handle_cases (x : Crypto) (c : Conn) (cmd : UInt8) (payload : Bytes) (t : Stamp) :
    c.SameAs (handle x c cmd payload t).1 ∧
      ∀ r ∈ (handle x c cmd payload t).2, ∃ c' cmd' payload', c.SameAs c' ∧
        r = datagram x c' cmd' payload' t ∧ cmd' ≠ kcpCmdPush ∧ payload'.length ≤ 4 := by
  unfold handle
  split_ifs with hpush hlen hack hping
  · refine ⟨c.sameAs_enqueue payload, fun r hr => ?_⟩
    exact ⟨_, kcpCmdAck, _, c.sameAs_enqueue payload, List.mem_singleton.1 hr, by decide,
      (length_beBytes ..).le⟩
  · refine ⟨⟨rfl, rfl⟩, fun r hr => ?_⟩
    exact ⟨c, kcpCmdAck, _, ⟨rfl, rfl⟩, List.mem_singleton.1 hr, by decide, (length_beBytes ..).le⟩
  · exact ⟨⟨rfl, rfl⟩, by simp⟩
  · exact ⟨⟨rfl, rfl⟩, by simp⟩
  · refine ⟨⟨rfl, rfl⟩, fun r hr => ?_⟩
    exact ⟨c, kcpCmdPing, [], ⟨rfl, rfl⟩, List.mem_singleton.1 hr, by decide, by simp⟩
  · exact ⟨⟨rfl, rfl⟩, by simp⟩

theorem receive_sameAs (c : Conn) (d : Bytes) (t : Stamp) : c.SameAs (receive x c d t).1 := by
  unfold receive
  split
  · exact ⟨rfl, rfl⟩
  · split_ifs
    · exact ⟨rfl, rfl⟩
    · exact ⟨rfl, rfl⟩
    · exact (handle_cases ..).1

/-- A reply brings nothing to the other end. -/
theorem receive_replies (hx : x.Correct) {c : Conn} (hs : c.settings.Usable) (d : Bytes)
    (t : Stamp) : (receive x c d t).2.filterMap (received x c.settings) = [] := by
  rw [List.filterMap_eq_nil_iff]
  intro r hr
  unfold receive at hr
  split at hr
  · cases hr
  · split_ifs at hr
    · cases hr
    · cases hr
    · obtain ⟨c', cmd', payload', hsame, rfl, hcmd, hlen⟩ := (handle_cases ..).2 r hr
      rw [← hsame.1] at hs ⊢
      rw [received_datagram hx hs cmd' (by omega), if_neg fun h => hcmd h.1]

end Receive

/-! ## Two ends -/

/-- An end of the connection: the `KCPConn`, the datagrams on the network to it, all bytes
given to `Write` and all bytes returned by `Read`. -/
structure End where
  conn : Conn
  inbox : List Bytes
  written : Bytes
  returned : Bytes

/-- What can happen at an end: a call of `Write`, a round of `readLoop` with the next
datagram, and a call of `Read` with a buffer of `n` bytes. -/
inductive Action where
  | write (p : Bytes) (stamps : ℕ → Stamp)
  | deliver (t : Stamp)
  | read (n : ℕ)

/-- The two ends. -/
abbrev Link := Bool → End

/-- Something happens at the end `e.1`.  A round of `readLoop` without a datagram and a
`Read` without a packet wait. -/
def step (x : Crypto) (s : Link) (e : Bool × Action) : Link :=
  match e.2 with
  | .write p stamps =>
    let r := write x (s e.1).conn p fun k => (stamps k, true)
    fun j =>
      if j = e.1 then { s j with conn := r.2.1, written := (s j).written ++ p }
      else { s j with inbox := (s j).inbox ++ r.2.2 }
  | .deliver t =>
    match (s e.1).inbox with
    | [] => s
    | d :: rest =>
      let r := receive x (s e.1).conn d t
      fun j =>
        if j = e.1 then { s j with conn := r.1, inbox := rest }
        else { s j with inbox := (s j).inbox ++ r.2 }
  | .read n =>
    match read (s e.1).conn n with
    | none => s
    | some (b, c) =>
      fun j =>
        if j = e.1 then { s j with conn := c, returned := (s j).returned ++ b }
        else s j

/-- A new connection between two ends with the same password, as `Dial` makes them.  The peer of a
client is a session of the listener, which reads and writes as such an end does. -/
def dialed (x : Crypto) (password : Bytes) : Link :=
  fun _ => ⟨newConn (newKCP x password), [], [], []⟩

/-- The bytes on the way to an end: in its queue, and behind them on the network. -/
def End.onTheWay (x : Crypto) (e : End) : Bytes :=
  e.conn.recvBuf.flatten ++ (e.inbox.filterMap (received x e.conn.settings)).flatten

/-- What an end has returned, followed by what is on the way to it, is what has been written at
the other end. -/
def Lossless (x : Crypto) (s : Link) : Prop :=
  ∀ i, (s i).returned ++ (s i).onTheWay x = (s !i).written

/-- There is room in the queue for what `readLoop` receives. -/
def Room (s : Link) (e : Bool × Action) : Prop :=
  match e.2 with
  | .deliver _ => (s e.1).conn.recvBuf.length < recvCap
  | _ => True

instance Room.decidable (s : Link) : (e : Bool × Action) → Decidable (Room s e)
  | (_, .deliver _) => inferInstanceAs (Decidable (_ < _))
  | (_, .write ..) | (_, .read _) => inferInstanceAs (Decidable True)

/-- A `Read` has room for the packet it takes. -/
def Fits (s : Link) (e : Bool × Action) : Prop :=
  match e.2 with
  | .read n => ∀ data ∈ (s e.1).conn.recvBuf.head?, data.length ≤ n
  | _ => True

instance Fits.decidable (s : Link) : (e : Bool × Action) → Decidable (Fits s e)
  | (i, .read n) =>
    inferInstanceAs (Decidable (∀ data ∈ (s i).conn.recvBuf.head?, data.length ≤ n))
  | (_, .write ..) | (_, .deliver _) => inferInstanceAs (Decidable True)

/-- Both ends are open, with the settings of the transport. -/
def Ready (x : Crypto) (password : Bytes) (s : Link) : Prop :=
  ∀ i, (s i).conn.settings = newKCP x password ∧ (s i).conn.closed = false

section Steps

variable {x : Crypto} {s : Link} (i : Bool)

theorem End.onTheWay_arrive (e : End) (sent : List Bytes) :
    ({ e with inbox := e.inbox ++ sent } : End).onTheWay x
      = e.onTheWay x ++ (sent.filterMap (received x e.conn.settings)).flatten := by
  simp [End.onTheWay, List.filterMap_append]

variable {password : Bytes}

/-- A call of `Write` keeps the streams whole. -/
theorem lossless_write (hx : x.Correct) (hready : Ready x password s) (h : Lossless x s)
    (p : Bytes) (stamps : ℕ → Stamp) : Lossless x (step x s (i, .write p stamps)) := by
  obtain ⟨-, hconn, hsent⟩ := write_sent hx (hready i).1 (hready i).2 p stamps
  refine forall_pair i ?_ ?_
  · have hi := h i
    simp only [step, if_true, Bool.not_eq_self, if_false, End.onTheWay] at hi ⊢
    rw [hconn]
    exact hi
  · have hother := h (!i)
    simp only [step, Bool.not_eq_self, if_false, Bool.not_not, if_true] at hother ⊢
    rw [End.onTheWay_arrive, ← List.append_assoc, hother, (hready !i).1, ← (hready i).1, hsent]

/-- A round of `readLoop` with room in the queue keeps the streams whole. -/
theorem lossless_deliver (hx : x.Correct) (hready : Ready x password s) (h : Lossless x s)
    (hroom : (s i).conn.recvBuf.length < recvCap) (t : Stamp) :
    Lossless x (step x s (i, .deliver t)) := by
  cases hinbox : (s i).inbox with
  | nil => simpa [step, hinbox] using h
  | cons d rest =>
    refine forall_pair i ?_ ?_
    · have hi := h i
      simp only [step, hinbox, if_true, Bool.not_eq_self, if_false, End.onTheWay] at hi ⊢
      rw [receive_recvBuf, (receive_sameAs ..).1, queued, if_pos hroom, ← hi, List.filterMap_cons]
      cases received x (s i).conn.settings d <;> simp
    · have hother := h (!i)
      have husable : (s i).conn.settings.Usable := (hready i).1 ▸ newKCP_usable hx password
      simp only [step, hinbox, Bool.not_eq_self, if_false, Bool.not_not, if_true] at hother ⊢
      rw [End.onTheWay_arrive, (hready !i).1, ← (hready i).1, receive_replies hx husable,
        List.flatten_nil, List.append_nil, hother]

/-- A call of `Read` keeps the streams whole if it has room for the packet it takes, and only
then. -/
theorem lossless_read_iff (h : Lossless x s) (n : ℕ) :
    Lossless x (step x s (i, .read n)) ↔ ∀ data ∈ (s i).conn.recvBuf.head?, data.length ≤ n := by
  cases hqueue : (s i).conn.recvBuf with
  | nil => simpa [step, read, hqueue] using h
  | cons data rest =>
    -- of the packet at the head of the queue, only the bytes that fit are returned
    have hself : (step x s (i, .read n) i).returned ++ (step x s (i, .read n) i).onTheWay x
          = (step x s (i, .read n) !i).written ↔ data.take n = data := by
      have hi := h i
      simp only [step, read, hqueue, if_true, Bool.not_eq_self, if_false, End.onTheWay,
        List.flatten_cons] at hi ⊢
      rw [← hi, List.append_assoc, List.append_cancel_left_eq, List.append_assoc,
        List.append_cancel_right_eq]
    have hother : (step x s (i, .read n) !i).returned ++ (step x s (i, .read n) !i).onTheWay x
          = (step x s (i, .read n) !(!i)).written := by
      have hi := h (!i)
      simp only [step, read, hqueue, if_true, Bool.not_eq_self, if_false, Bool.not_not] at hi ⊢
      exact hi
    rw [List.take_eq_self_iff] at hself
    constructor
    · rintro hnext _ ⟨⟩
      exact hself.1 (hnext i)
    · intro hfits
      exact forall_pair i (hself.2 (hfits data rfl)) hother

theorem ready_step (hx : x.Correct) (e : Bool × Action) (h : Ready x password s) :
    Ready x password (step x s e) := by
  obtain ⟨i, action⟩ := e
  intro j
  cases action with
  | write p stamps =>
    obtain ⟨-, hconn, -⟩ := write_sent hx (h i).1 (h i).2 p stamps
    by_cases hj : j = i
    · simp only [step, hj, if_true]
      rw [hconn]
      exact h i
    · simpa [step, hj] using h j
  | deliver t =>
    cases hinbox : (s i).inbox with
    | nil => simpa [step, hinbox] using h j
    | cons d rest =>
      obtain ⟨hsettings, hclosed⟩ := receive_sameAs (x := x) (s i).conn d t
      by_cases hj : j = i
      · simpa [step, hinbox, hj, hsettings, hclosed] using h i
      · simpa [step, hinbox, hj] using h j
  | read n =>
    cases hqueue : (s i).conn.recvBuf with
    | nil => simpa [step, read, hqueue] using h j
    | cons data rest =>
      by_cases hj : j = i
      · simpa [step, read, hqueue, hj] using h i
      · simpa [step, read, hqueue, hj] using h j

end Steps

/-- **When the stream is whole.**  Along a run with room in the queues, what is returned
followed by what is on the way is always what was written, exactly if every `Read` has room
for the packet it takes. -/
theorem always_lossless_iff {x : Crypto} (hx : x.Correct) (password : Bytes)
    (es : List (Bool × Action)) (hroom : EachStep (step x) Room (dialed x password) es) :
    Always (step x) (Lossless x) (dialed x password) es ↔
      EachStep (step x) Fits (dialed x password) es := by
  have hready : Ready x password (dialed x password) := fun _ => ⟨rfl, rfl⟩
  have hlossless : Lossless x (dialed x password) := fun _ => rfl
  refine always_iff_eachStep_of_guard (fun s e => ready_step hx e) ?_ hready hlossless hroom
  rintro s ⟨i, action⟩ hready hroom h
  cases action with
  | write p stamps => exact iff_of_true (lossless_write i hx hready h p stamps) trivial
  | deliver t => exact iff_of_true (lossless_deliver i hx hready h hroom t) trivial
  | read n => exact lossless_read_iff i h n

/-- Two writes at one end, each delivered and read at the other with a buffer of `n` bytes. -/
def twoReads (n : ℕ) : List (Bool × Action) :=
  [(false, .write [1, 2, 3] fun _ => ⟨0, 0⟩), (true, .deliver ⟨0, 0⟩), (true, .read n),
    (false, .write [4] fun _ => ⟨0, 0⟩), (true, .deliver ⟨0, 0⟩), (true, .read n)]

/-- Buffers of three bytes are large enough. -/
theorem lossless_twoReads :
    Always (step sampleCrypto) (Lossless sampleCrypto) (dialed sampleCrypto [112, 119])
      (twoReads 3) :=
  (always_lossless_iff sampleCrypto_correct [112, 119] (twoReads 3) (by decide)).2 (by decide)

/-- **Bytes in the middle of the stream are lost.**  With buffers of one byte, `Read` returns
the first byte of each packet and never the others. -/
theorem read_loses_bytes :
    let s := run (step sampleCrypto) (dialed sampleCrypto [112, 119]) (twoReads 1)
    EachStep (step sampleCrypto) Room (dialed sampleCrypto [112, 119]) (twoReads 1) ∧
      (s false).written = [1, 2, 3, 4] ∧ (s true).returned = [1, 4] ∧
      (s true).conn.recvBuf = [] ∧ (s true).inbox = [] := by
  decide

end Kcp
