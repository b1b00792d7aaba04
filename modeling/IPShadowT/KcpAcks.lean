/-
# Acknowledgements of the KCP transport

Two ends of a KCP connection whose `readLoop`s take datagrams from a network that loses, copies
and reorders.  `sendAck` acknowledges a PUSH packet with the count of those received before
(`rcvNxt`), not with the number in its header, and an ACK packet sets `sndUna` to the count in it.

`netStep_refines` says that the ends do what the nodes of `AckCounters` do, with the counters
modulo `2^32`.  `eachStep_acked_iff` carries over which deliveries keep the counters right.
`write_eq_run` connects the steps of this module with `Write`.
-/
import IPShadowT.AckCounters
import IPShadowT.KcpMtu

open Bytes Runs

namespace Kcp

/-! ## The packet in a datagram -/

/-- The command and the payload of an authentic packet. -/
def packetOf (x : Crypto) (s : Settings) (d : Bytes) : Option (UInt8 × Bytes) :=
  match decryptPacket x s (d.take bufSize) with
  | none => none
  | some data =>
    if data.length < kcpHdrSize ∨ beNat (data.take 2) ≠ kcpMagic then none
    else some (data.getD 2 0, data.drop kcpHdrSize)

section Packet

variable {x : Crypto} {c : Conn} {d payload : Bytes} (t : Stamp)

theorem packetOf_datagram (hx : x.Correct) (hs : c.settings.Usable) (cmd : UInt8)
    (hlen : payload.length ≤ 65000) :
    packetOf x c.settings (datagram x c cmd payload t) = some (cmd, payload) := by
  have hfits : (datagram x c cmd payload t).length ≤ bufSize := by
    refine (length_encryptPacket_le hx ..).trans ?_
    rw [length_buildPacket, bufSize]
    omega
  rw [packetOf, List.take_of_length_le hfits, datagram, decryptPacket_encryptPacket hx hs]
  dsimp only
  rw [if_neg, buildPacket_cmd, buildPacket_payload]
  rintro (hshort | hmagic)
  · rw [length_buildPacket, kcpHdrSize] at hshort
    omega
  · exact hmagic (buildPacket_magic ..)

/-- A round of `readLoop` handles the packet. -/
theorem receive_of_packetOf {cmd : UInt8} (h : packetOf x c.settings d = some (cmd, payload)) :
    receive x c d t = handle x c cmd payload t := by
  unfold packetOf at h
  unfold receive
  cases hdata : decryptPacket x c.settings (d.take bufSize) with
  | none =>
    rw [hdata] at h
    cases h
  | some data =>
    rw [hdata] at h
    dsimp only at h ⊢
    split_ifs at h with hbad
    obtain ⟨hshort, hmagic⟩ := not_or.1 hbad
    obtain ⟨rfl, rfl⟩ := Prod.mk.inj (Option.some.inj h)
    rw [if_neg hshort, if_neg hmagic]

/-- A PUSH packet is counted and acknowledged. -/
theorem receive_push (h : packetOf x c.settings d = some (kcpCmdPush, payload)) :
    ∃ recvBuf, receive x c d t =
      ({ c with recvBuf := recvBuf, rcvNxt := c.rcvNxt + 1 },
        [datagram x { c with recvBuf := recvBuf } kcpCmdAck (beBytes 4 c.rcvNxt.toNat) t]) := by
  rw [receive_of_packetOf t h, handle, if_pos rfl]
  split_ifs
  · unfold Conn.enqueue
    split_ifs
    · exact ⟨_, rfl⟩
    · exact ⟨c.recvBuf, rfl⟩
  · exact ⟨c.recvBuf, rfl⟩

/-- An ACK packet sets `sndUna`. -/
theorem receive_ack {n : UInt32}
    (h : packetOf x c.settings d = some (kcpCmdAck, beBytes 4 n.toNat)) :
    receive x c d t = ({ c with sndUna := n }, []) := by
  have hlen : (beBytes 4 n.toNat).length = 4 := length_beBytes ..
  have hnumber : UInt32.ofNat (beNat ((beBytes 4 n.toNat).take 4)) = n := by
    rw [List.take_of_length_le hlen.le, beNat_beBytes, Nat.mod_eq_of_lt (by exact n.toNat_lt)]
    exact UInt32.ofNat_toNat
  rw [receive_of_packetOf t h, handle, if_neg (by decide), if_pos rfl, if_pos hlen.ge, hnumber]

end Packet

/-! ## Two ends and the network -/

/-- An end of the connection.  Its `Write` is between handing a packet to the socket and
`c.sndNxt++` (`sending`).  `inbox` has every datagram ever sent to the end, and `arrived` the
places of those that `readLoop` took, in that order. -/
structure Peer where
  conn : Conn
  sending : Bool
  inbox : List Bytes
  arrived : List ℕ
  deriving DecidableEq, Repr

/-- Datagrams are sent to the end. -/
def Peer.addressed (v : Peer) (ds : List Bytes) : Peer := { v with inbox := v.inbox ++ ds }

theorem Peer.addressed_nil (v : Peer) : v.addressed [] = v := by
  rw [Peer.addressed, List.append_nil]

abbrev Ends := Bool → Peer

/-- What can happen at an end: `Write` hands a packet to the socket, and then counts it;
`readLoop` makes a round with the `k`-th datagram ever sent to the end; `Read` is called. -/
inductive NetAction where
  | send (payload : Bytes) (t : Stamp)
  | sent
  | deliver (k : ℕ) (t : Stamp)
  | read (n : ℕ)
  deriving DecidableEq, Repr

/-- Something happens at the end `e.1`.  `Write` holds the lock `mu` and sends one packet after
the other, none with more than `maxPayload` bytes. -/
def netStep (x : Crypto) (s : Ends) (e : Bool × NetAction) : Ends :=
  match e.2 with
  | .send payload t =>
    if (s e.1).sending ∨ (s e.1).conn.settings.mtu - 36 < payload.length then s
    else
      pair e.1 { s e.1 with sending := true }
        ((s !e.1).addressed [datagram x (s e.1).conn kcpCmdPush payload t])
  | .sent =>
    if (s e.1).sending then
      pair e.1
        { s e.1 with
          conn := { (s e.1).conn with sndNxt := (s e.1).conn.sndNxt + 1 }, sending := false }
        (s !e.1)
    else s
  | .deliver k t =>
    match (s e.1).inbox[k]? with
    | none => s
    | some d =>
      let r := receive x (s e.1).conn d t
      pair e.1 { s e.1 with conn := r.1, arrived := (s e.1).arrived ++ [k] }
        ((s !e.1).addressed r.2)
  | .read n =>
    match read (s e.1).conn n with
    | none => s
    | some (_, c) => pair e.1 { s e.1 with conn := c } (s !e.1)

/-- A new connection between two ends with the same password. -/
def connected (x : Crypto) (password : Bytes) : Ends :=
  fun _ => ⟨newConn (newKCP x password), false, [], []⟩

/-- The command of the `k`-th packet sent to the end. -/
def Peer.cmdAt (x : Crypto) (v : Peer) (k : ℕ) : Option UInt8 :=
  (v.inbox[k]?.bind (packetOf x v.conn.settings)).map Prod.fst

/-- The distinct PUSH packets that the end has received. -/
def Peer.pushesReceived (x : Crypto) (v : Peer) : List ℕ :=
  (v.arrived.filter fun k => v.cmdAt x k = some kcpCmdPush).dedup

/-- `sndUna` does not decrease in this step, and behind it `sndUna` is at most `sndNxt`, and
`rcvNxt` the number of distinct PUSH packets received. -/
def Acked (x : Crypto) (s : Ends) (e : Bool × NetAction) : Prop :=
  ∀ i, (s i).conn.sndUna ≤ (netStep x s e i).conn.sndUna ∧
    (netStep x s e i).conn.sndUna ≤ (netStep x s e i).conn.sndNxt ∧
    (netStep x s e i).conn.rcvNxt.toNat = ((netStep x s e i).pushesReceived x).length

/-- A PUSH packet is delivered for the first time; an ACK packet is delivered that was sent after
those delivered before. -/
def InOrder (x : Crypto) (s : Ends) (e : Bool × NetAction) : Prop :=
  match e.2 with
  | .deliver k _ =>
    ((s e.1).cmdAt x k = some kcpCmdPush → k ∉ (s e.1).arrived) ∧
      ((s e.1).cmdAt x k = some kcpCmdAck →
        ∀ m ∈ (s e.1).arrived, (s e.1).cmdAt x m = some kcpCmdAck → m ≤ k)
  | _ => True

instance InOrder.decidable (x : Crypto) (s : Ends) :
    (e : Bool × NetAction) → Decidable (InOrder x s e)
  | (_, .deliver ..) => inferInstanceAs (Decidable (_ ∧ _))
  | (_, .send ..) | (_, .sent) | (_, .read _) => inferInstanceAs (Decidable True)

/-! ## The counters of the ends are those of the nodes -/

/-- The datagram has the packet. -/
def Shows (x : Crypto) (s : Settings) (d : Bytes) : AckCounters.Packet → Prop
  | .data => ∃ payload, packetOf x s d = some (kcpCmdPush, payload)
  | .ack n => packetOf x s d = some (kcpCmdAck, beBytes 4 (UInt32.ofNat n).toNat)

/-- The command of the packet. -/
def cmdOf : AckCounters.Packet → UInt8
  | .data => kcpCmdPush
  | .ack _ => kcpCmdAck

variable {x : Crypto} {p : AckCounters.Packet} {i : Bool} {s : Ends}

theorem cmdOf_eq_push : cmdOf p = kcpCmdPush ↔ p = .data := by
  cases p <;> simp [cmdOf, kcpCmdAck, kcpCmdPush]

theorem cmdOf_eq_ack : cmdOf p = kcpCmdAck ↔ ∃ n, p = .ack n := by
  cases p <;> simp [cmdOf, kcpCmdAck, kcpCmdPush]

/-- An end of a connection with these settings is in the state of a node. -/
structure Peer.Refines (x : Crypto) (cfg : Settings) (v : Peer) (a : AckCounters.Node) : Prop where
  settings : v.conn.settings = cfg
  una : v.conn.sndUna = UInt32.ofNat a.una
  nxt : v.conn.sndNxt = UInt32.ofNat a.nxt
  rcv : v.conn.rcvNxt = UInt32.ofNat a.rcv
  sending : v.sending = a.sending
  inbox : List.Forall₂ (Shows x cfg) v.inbox a.inbox
  arrived : v.arrived = a.arrived

/-- What the event is for the nodes. -/
def NetAction.event (cfg : Settings) : NetAction → AckCounters.Event
  | send payload _ => if cfg.mtu - 36 < payload.length then .idle else .send
  | sent => .sent
  | deliver k _ => .deliver k
  | read _ => .idle

section Refines

variable {x : Crypto} {cfg : Settings} {v : Peer} {a : AckCounters.Node}

/-- The `k`-th datagram has the `k`-th packet. -/
theorem Peer.Refines.getElem? (h : v.Refines x cfg a) (k : ℕ) :
    (v.inbox[k]? = none ∧ a.inbox[k]? = none) ∨
      ∃ d p, v.inbox[k]? = some d ∧ a.inbox[k]? = some p ∧ Shows x cfg d p := by
  have hlen : v.inbox.length = a.inbox.length := h.inbox.length_eq
  by_cases hk : k < v.inbox.length
  · refine .inr ⟨_, _, List.getElem?_eq_getElem hk, List.getElem?_eq_getElem (hlen ▸ hk), ?_⟩
    exact List.forall₂_iff_get.1 h.inbox |>.2 k hk (hlen ▸ hk)
  · exact .inl ⟨List.getElem?_eq_none (by omega), List.getElem?_eq_none (by omega)⟩

theorem Peer.Refines.addressed (h : v.Refines x cfg a) {d : Bytes} (hp : Shows x cfg d p) :
    (v.addressed [d]).Refines x cfg (a.addressed p) :=
  { h with inbox := List.rel_append h.inbox (.cons hp .nil) }

/-- The commands are those of the packets. -/
theorem Peer.Refines.cmdAt (h : v.Refines x cfg a) (k : ℕ) :
    v.cmdAt x k = a.inbox[k]?.map cmdOf := by
  unfold Peer.cmdAt
  rw [h.settings]
  rcases h.getElem? k with ⟨hv, ha⟩ | ⟨d, p, hv, ha, hshows⟩
  · rw [hv, ha]
    rfl
  · rw [hv, ha, Option.bind_some, Option.map_some]
    cases p with
    | data =>
      obtain ⟨payload, hpacket⟩ := hshows
      rw [hpacket]
      rfl
    | ack n =>
      rw [show packetOf x cfg d = _ from hshows]
      rfl

theorem Peer.Refines.cmdAt_push (h : v.Refines x cfg a) (k : ℕ) :
    v.cmdAt x k = some kcpCmdPush ↔ a.inbox[k]? = some .data := by
  rw [h.cmdAt, Option.map_eq_some_iff]
  constructor
  · rintro ⟨p, hp, hcmd⟩
    rwa [cmdOf_eq_push.1 hcmd] at hp
  · exact fun hp => ⟨_, hp, rfl⟩

theorem Peer.Refines.cmdAt_ack (h : v.Refines x cfg a) (k : ℕ) :
    v.cmdAt x k = some kcpCmdAck ↔ ∃ n, a.inbox[k]? = some (.ack n) := by
  rw [h.cmdAt, Option.map_eq_some_iff]
  constructor
  · rintro ⟨p, hp, hcmd⟩
    obtain ⟨n, rfl⟩ := cmdOf_eq_ack.1 hcmd
    exact ⟨n, hp⟩
  · rintro ⟨n, hp⟩
    exact ⟨_, hp, rfl⟩

theorem Peer.Refines.pushesReceived (h : v.Refines x cfg a) :
    v.pushesReceived x = a.dataArrived.dedup := by
  rw [Peer.pushesReceived, AckCounters.Node.dataArrived, h.arrived]
  refine congrArg List.dedup (List.filter_congr fun k _ => ?_)
  rw [decide_eq_decide]
  exact h.cmdAt_push k

/-- A round of `readLoop` with a packet is the delivery of the packet. -/
theorem receive_refines (hx : x.Correct) (hs : cfg.Usable) (h : v.Refines x cfg a) {k : ℕ}
    {d : Bytes} (hp : Shows x cfg d p) (t : Stamp) :
    let r := receive x v.conn d t
    let v' : Peer := { v with conn := r.1, arrived := v.arrived ++ [k] }
    match p with
    | .data => v'.Refines x cfg (a.takeData k) ∧ ∃ ack, r.2 = [ack] ∧ Shows x cfg ack (.ack a.rcv)
    | .ack n => v'.Refines x cfg (a.takeAck k n) ∧ r.2 = [] := by
  have harrived : v.arrived ++ [k] = a.arrived ++ [k] := by rw [h.arrived]
  cases p with
  | data =>
    obtain ⟨payload, hpacket⟩ := hp
    rw [← h.settings] at hpacket
    obtain ⟨recvBuf, hreceive⟩ := receive_push t hpacket
    rw [hreceive]
    refine ⟨⟨h.settings, h.una, h.nxt, ?_, h.sending, h.inbox, harrived⟩, _, rfl, ?_⟩
    · show v.conn.rcvNxt + 1 = UInt32.ofNat (a.rcv + 1)
      rw [h.rcv, UInt32.ofNat_add]
      rfl
    · have hlen : (beBytes 4 v.conn.rcvNxt.toNat).length ≤ 65000 := by
        rw [length_beBytes]
        decide
      have hs' : ({ v.conn with recvBuf := recvBuf } : Conn).settings.Usable := h.settings ▸ hs
      show packetOf x cfg _ = some (kcpCmdAck, beBytes 4 (UInt32.ofNat a.rcv).toNat)
      rw [← h.rcv, ← h.settings]
      exact packetOf_datagram t hx hs' kcpCmdAck hlen
  | ack n =>
    have hpacket : packetOf x v.conn.settings d = _ := h.settings ▸ hp
    rw [receive_ack t hpacket]
    exact ⟨⟨h.settings, rfl, h.nxt, h.rcv, h.sending, h.inbox, harrived⟩, rfl⟩

end Refines

/-- The two ends are in the states of two nodes. -/
def Ends.Refines (x : Crypto) (cfg : Settings) (s : Ends) (a : AckCounters.Net) : Prop :=
  ∀ i, (s i).Refines x cfg (a i)

theorem refines_pair {cfg : Settings} {v w : Peer} {a b : AckCounters.Node} (hv : v.Refines x cfg a)
    (hw : w.Refines x cfg b) :
    Ends.Refines x cfg (pair i v w) (pair i a b) := by
  refine forall_pair i ?_ ?_
  · rwa [pair_self, pair_self]
  · rwa [pair_not, pair_not]

section Step

variable {x : Crypto} {cfg : Settings} {s : Ends} {a : AckCounters.Net} (h : s.Refines x cfg a)
  (i : Bool)
include h

/-- A packet is sent. -/
theorem send_refines (hx : x.Correct) (hs : cfg.Usable) (hmtu : cfg.mtu ≤ 65000) (payload : Bytes)
    (t : Stamp) :
    (netStep x s (i, .send payload t)).Refines x cfg
      (AckCounters.step a (i, (NetAction.send payload t).event cfg)) := by
  have hself := h i
  simp only [netStep, NetAction.event, hself.settings, hself.sending]
  by_cases hlong : cfg.mtu - 36 < payload.length
  · rw [if_pos (.inr hlong), if_pos hlong]
    exact h
  · by_cases hbusy : (a i).sending = true
    · simp only [hbusy, true_or, if_true, if_neg hlong, AckCounters.step]
      exact h
    · have hs' : (s i).conn.settings.Usable := hself.settings ▸ hs
      have hlen : payload.length ≤ 65000 := by omega
      have hshown := packetOf_datagram t hx hs' kcpCmdPush hlen
      rw [hself.settings] at hshown
      rw [if_neg (not_or.2 ⟨hbusy, hlong⟩), if_neg hlong, AckCounters.step, if_neg hbusy]
      exact refines_pair { hself with sending := rfl } ((h !i).addressed ⟨payload, hshown⟩)

/-- It is counted. -/
theorem sent_refines : (netStep x s (i, .sent)).Refines x cfg (AckCounters.step a (i, .sent)) := by
  have hself := h i
  simp only [netStep, hself.sending, AckCounters.step]
  by_cases hbusy : (a i).sending = true
  · rw [if_pos hbusy, if_pos hbusy]
    refine refines_pair { hself with nxt := ?_, sending := rfl } (h !i)
    show (s i).conn.sndNxt + 1 = UInt32.ofNat ((a i).nxt + 1)
    rw [hself.nxt, UInt32.ofNat_add]
    rfl
  · rw [if_neg hbusy, if_neg hbusy]
    exact h

/-- A datagram arrives. -/
theorem deliver_refines (hx : x.Correct) (hs : cfg.Usable) (k : ℕ) (t : Stamp) :
    (netStep x s (i, .deliver k t)).Refines x cfg (AckCounters.step a (i, .deliver k)) := by
  simp only [netStep, AckCounters.step]
  rcases (h i).getElem? k with ⟨hv, ha⟩ | ⟨d, p, hv, ha, hshows⟩
  · rw [hv, ha]
    exact h
  · rw [hv, ha]
    have hround := receive_refines hx hs (h i) (k := k) hshows t
    cases p with
    | data =>
      obtain ⟨hnext, ack, hack, hshown⟩ := hround
      dsimp only
      rw [hack]
      exact refines_pair hnext ((h !i).addressed hshown)
    | ack n =>
      obtain ⟨hnext, hnone⟩ := hround
      dsimp only
      rw [hnone, Peer.addressed_nil]
      exact refines_pair hnext (h !i)

/-- `Read` is called. -/
theorem read_refines (n : ℕ) : (netStep x s (i, .read n)).Refines x cfg a := by
  have hself := h i
  simp only [netStep, read]
  cases (s i).conn.recvBuf with
  | nil => exact h
  | cons data rest =>
    rw [← pair_eq a i]
    refine refines_pair ?_ (h !i)
    exact ⟨hself.settings, hself.una, hself.nxt, hself.rcv, hself.sending, hself.inbox,
      hself.arrived⟩

end Step

/-- **The ends do what the nodes do.** -/
theorem netStep_refines (hx : x.Correct) {cfg : Settings} (hs : cfg.Usable) (hmtu : cfg.mtu ≤ 65000)
    (s : Ends) (a : AckCounters.Net) (e : Bool × NetAction) (h : s.Refines x cfg a) :
    (netStep x s e).Refines x cfg (AckCounters.step a (e.1, e.2.event cfg)) := by
  obtain ⟨i, action⟩ := e
  cases action with
  | send payload t => exact send_refines h i hx hs hmtu payload t
  | sent => exact sent_refines h i
  | deliver k t => exact deliver_refines h i hx hs k t
  | read n => exact read_refines h i n

/-! ## Which deliveries keep the counters right -/

/-- The number of packets sent so far. -/
def Ends.packetsSent (s : Ends) : ℕ := (s false).inbox.length + (s true).inbox.length

theorem length_le_packetsSent (s : Ends) (i : Bool) : (s i).inbox.length ≤ s.packetsSent := by
  cases i
  · exact Nat.le_add_right ..
  · exact Nat.le_add_left ..

theorem packetsSent_pair (i : Bool) (v w : Peer) :
    Ends.packetsSent (pair i v w) = v.inbox.length + w.inbox.length := by
  cases i
  · rfl
  · exact Nat.add_comm ..

theorem packetsSent_le_netStep (x : Crypto) (s : Ends) (e : Bool × NetAction) :
    s.packetsSent ≤ (netStep x s e).packetsSent := by
  obtain ⟨i, action⟩ := e
  have hself : s.packetsSent = (s i).inbox.length + (s !i).inbox.length := by
    rw [← packetsSent_pair i, pair_eq]
  have hmore : ∀ ds, (s !i).inbox.length ≤ ((s !i).addressed ds).inbox.length := by
    intro ds
    rw [Peer.addressed, List.length_append]
    exact Nat.le_add_right ..
  cases action with
  | send payload t =>
    simp only [netStep]
    split_ifs
    · exact Nat.le_refl _
    · rw [hself, packetsSent_pair]
      exact Nat.add_le_add_left (hmore _) _
  | sent =>
    simp only [netStep]
    split_ifs
    · rw [hself, packetsSent_pair]
    · exact Nat.le_refl _
  | deliver k t =>
    simp only [netStep]
    split
    · exact Nat.le_refl _
    · rw [hself, packetsSent_pair]
      exact Nat.add_le_add_left (hmore _) _
  | read n =>
    simp only [netStep]
    split
    · exact Nat.le_refl _
    · rw [hself, packetsSent_pair]

section Transfer

variable {x : Crypto} {cfg : Settings} {s : Ends} {a : AckCounters.Net}

/-- The counters of a node that stands for an end are below the number of packets sent. -/
theorem Ends.Refines.counters_lt (h : s.Refines x cfg a) (hinv : AckCounters.Inv a)
    (hsent : s.packetsSent < 2 ^ 31) (i : Bool) :
    (a i).una < 2 ^ 31 ∧ (a i).nxt < 2 ^ 31 ∧ (a i).rcv < 2 ^ 31 := by
  obtain ⟨huna, hnxt, hrcv⟩ := AckCounters.counters_le hinv i
  have hlen : ∀ j, (a j).inbox.length ≤ s.packetsSent := by
    intro j
    rw [← (h j).inbox.length_eq]
    exact length_le_packetsSent s j
  have hself := hlen i
  have hother := hlen (!i)
  omega

/-- The two demands on the counters are the same below `2^31` packets. -/
theorem acked_iff_counted (h : s.Refines x cfg a) (hinv : AckCounters.Inv a) {e : Bool × NetAction}
    {e' : Bool × AckCounters.Event} (hnext : (netStep x s e).Refines x cfg (AckCounters.step a e'))
    (hsent : (netStep x s e).packetsSent < 2 ^ 31) : Acked x s e ↔ AckCounters.Counted a e' := by
  refine forall_congr' fun i => ?_
  have hsent' := (packetsSent_le_netStep x s e).trans_lt hsent
  obtain ⟨huna, -, -⟩ := h.counters_lt hinv hsent' i
  obtain ⟨huna', hnxt', hrcv'⟩ := hnext.counters_lt (AckCounters.inv_step a e' hinv) hsent i
  have hsize : 2 ^ 31 < UInt32.size := by decide
  rw [(h i).una, (hnext i).una, (hnext i).nxt, (hnext i).rcv, (hnext i).pushesReceived,
    UInt32.ofNat_le_iff_le (huna.trans hsize) (huna'.trans hsize),
    UInt32.ofNat_le_iff_le (huna'.trans hsize) (hnxt'.trans hsize),
    UInt32.toNat_ofNat_of_lt' (hrcv'.trans hsize)]
  exact Iff.rfl

/-- The two demands on the deliveries are the same. -/
theorem inOrder_iff (h : s.Refines x cfg a) (e : Bool × NetAction) :
    InOrder x s e ↔ AckCounters.InOrder a (e.1, e.2.event cfg) := by
  obtain ⟨i, action⟩ := e
  cases action with
  | send payload t =>
    simp only [NetAction.event]
    split_ifs <;> exact Iff.rfl
  | sent => exact Iff.rfl
  | read n => exact Iff.rfl
  | deliver k t =>
    simp only [InOrder, AckCounters.InOrder, NetAction.event]
    simp only [(h i).cmdAt_push, (h i).cmdAt_ack, (h i).arrived]
    constructor
    · rintro ⟨hdata, hack⟩
      exact ⟨hdata, fun n hn m hm n' hn' => hack ⟨n, hn⟩ m hm ⟨n', hn'⟩⟩
    · rintro ⟨hdata, hack⟩
      refine ⟨hdata, ?_⟩
      rintro ⟨n, hn⟩ m hm ⟨n', hn'⟩
      exact hack n hn m hm n' hn'

end Transfer

/-- A new connection. -/
theorem connected_refines (x : Crypto) (password : Bytes) :
    (connected x password).Refines x (newKCP x password) AckCounters.start :=
  fun _ => ⟨rfl, rfl, rfl, rfl, rfl, .nil, rfl⟩

/-- **When the acknowledgement state is right.**  In a run with fewer than `2^31` packets,
`sndUna` never decreases and stays at most `sndNxt`, and `rcvNxt` is the number of distinct PUSH
packets received, exactly if no PUSH packet is delivered twice and no ACK packet after a later
one. -/
theorem eachStep_acked_iff {x : Crypto} (hx : x.Correct) (password : Bytes)
    (es : List (Bool × NetAction))
    (hsent : (run (netStep x) (connected x password) es).packetsSent < 2 ^ 31) :
    EachStep (netStep x) (Acked x) (connected x password) es ↔
      EachStep (netStep x) (InOrder x) (connected x password) es := by
  have hs : (newKCP x password).Usable := newKCP_usable hx password
  have hmtu : (newKCP x password).mtu ≤ 65000 := show 1350 ≤ 65000 by decide
  have hbound := EachStep.of_run_lt (packetsSent_le_netStep x) hsent
  have hsim : ∀ s a e, (Ends.Refines x (newKCP x password) s a ∧ AckCounters.Inv a) →
      Ends.Refines x (newKCP x password) (netStep x s e)
        (AckCounters.step a (e.1, e.2.event (newKCP x password))) ∧
      AckCounters.Inv (AckCounters.step a (e.1, e.2.event (newKCP x password))) :=
    fun s a e h => ⟨netStep_refines hx hs hmtu s a e h.1, AckCounters.inv_step _ _ h.2⟩
  have hstart := And.intro (connected_refines x password) AckCounters.inv_start
  rw [eachStep_iff_of_simulation hsim
      (fun s a e h hlt => acked_iff_counted h.1 h.2 (hsim s a e h).1 hlt) hstart hbound,
    eachStep_iff_of_simulation hsim (fun s a e h _ => inOrder_iff h.1 e) hstart hbound]
  exact AckCounters.eachStep_counted_iff _

/-- One PUSH packet, delivered and acknowledged. -/
theorem acked_one_packet :
    EachStep (netStep sampleCrypto) (Acked sampleCrypto) (connected sampleCrypto [112, 119])
      [(false, .send [1] ⟨0, 0⟩), (false, .sent), (true, .deliver 0 ⟨0, 0⟩),
        (false, .deliver 0 ⟨0, 0⟩)] :=
  (eachStep_acked_iff sampleCrypto_correct [112, 119] _ (by decide)).2 (by decide)

/-- One PUSH packet, delivered three times; the last acknowledgement arrives first. -/
def copiedPush : List (Bool × NetAction) :=
  [(false, .send [1] ⟨0, 0⟩), (false, .sent), (true, .deliver 0 ⟨0, 0⟩),
    (true, .deliver 0 ⟨0, 0⟩), (true, .deliver 0 ⟨0, 0⟩), (false, .deliver 2 ⟨0, 0⟩)]

/-- **Copies and late acknowledgements mislead the counters.**  One PUSH packet is received, and
`rcvNxt` is three; `sndUna` is two where one packet was sent, and goes back to zero. -/
theorem acks_misled :
    let s := run (netStep sampleCrypto) (connected sampleCrypto [112, 119]) copiedPush
    let s' := netStep sampleCrypto s (false, .deliver 0 ⟨0, 0⟩)
    s'.packetsSent = 4 ∧
      (s true).pushesReceived sampleCrypto = [0] ∧ (s true).conn.rcvNxt = 3 ∧
      (s false).conn.sndNxt = 1 ∧ (s false).conn.sndUna = 2 ∧ (s' false).conn.sndUna = 0 := by
  decide

/-! ## `Write` in these steps -/

/-- The events of a `Write` that sends these payloads. -/
def sendAll (i : Bool) : (ℕ → Stamp) → List Bytes → List (Bool × NetAction)
  | _, [] => []
  | stamps, payload :: rest =>
    (i, .send payload (stamps 0)) :: (i, .sent) :: sendAll i (fun k => stamps (k + 1)) rest

/-- A packet of `Write`, sent and counted. -/
theorem run_send_sent (hidle : (s i).sending = false) {payload : Bytes}
    (hfits : payload.length ≤ (s i).conn.settings.mtu - 36) (t : Stamp) :
    netStep x (netStep x s (i, .send payload t)) (i, .sent) =
      pair i { s i with conn := { (s i).conn with sndNxt := (s i).conn.sndNxt + 1 } }
        ((s !i).addressed [datagram x (s i).conn kcpCmdPush payload t]) := by
  have hsend : netStep x s (i, .send payload t) =
      pair i { s i with sending := true }
        ((s !i).addressed [datagram x (s i).conn kcpCmdPush payload t]) := by
    simp only [netStep, hidle, Bool.false_eq_true, false_or]
    exact if_neg (Nat.not_lt.2 hfits)
  rw [hsend]
  simp only [netStep, pair_self, pair_not, if_true, ← hidle]

/-- All packets of a `Write`. -/
theorem run_sendAll (stamps : ℕ → Stamp) {payloads : List Bytes} (hidle : (s i).sending = false)
    (hfits : ∀ payload ∈ payloads, payload.length ≤ (s i).conn.settings.mtu - 36) :
    run (netStep x) s (sendAll i stamps payloads) =
      pair i
        { s i with
          conn := { (s i).conn with
            sndNxt := (s i).conn.sndNxt + UInt32.ofNat payloads.length } }
        ((s !i).addressed (pushes x (s i).conn stamps payloads)) := by
  induction payloads generalizing stamps s with
  | nil =>
    have hsame : (s i).conn.sndNxt + UInt32.ofNat 0 = (s i).conn.sndNxt := UInt32.add_zero _
    simp only [sendAll, pushes, run_nil, List.length_nil, Peer.addressed_nil, hsame]
    exact (pair_eq s i).symm
  | cons payload rest ih =>
    obtain ⟨hpayload, hrest⟩ := List.forall_mem_cons.1 hfits
    rw [sendAll, run_cons, run_cons, run_send_sent hidle hpayload]
    rw [ih (fun k => stamps (k + 1)) (by rwa [pair_self]) (by rwa [pair_self])]
    simp only [pair_self, pair_not, pushes, List.length_cons, ← sndNxt_succ]
    rw [Peer.addressed, Peer.addressed, Peer.addressed, List.append_assoc]
    rfl

/-- **A call of `Write` is a run of these steps.** -/
theorem write_eq_run (hidle : (s i).sending = false) (hopen : (s i).conn.closed = false)
    (hmtu : 36 < (s i).conn.settings.mtu) (p : Bytes) (env : ℕ → Stamp × Bool) :
    ∃ payloads, run (netStep x) s (sendAll i (fun k => (env k).1) payloads) =
      pair i { s i with conn := (write x (s i).conn p env).2.1 }
        ((s !i).addressed (write x (s i).conn p env).2.2) := by
  obtain ⟨n, err, payloads, hwrite, -, -, hfits⟩ := write_payloads (x := x) hopen hmtu p env
  refine ⟨payloads, ?_⟩
  have hfits' := fun payload hmem => (hfits payload hmem).trans (Nat.min_le_left ..)
  rw [run_sendAll _ hidle hfits', hwrite]

end Kcp
