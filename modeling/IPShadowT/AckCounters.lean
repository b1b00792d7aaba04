/-
# Acknowledging by a counter

Two nodes send each other numbered packets over a network that loses, copies and reorders.  A
node that receives a data packet acknowledges it with the number of data packets it has
received before, whichever packet it was, and a node that receives an acknowledgement takes over
the number in it.  Counters are natural numbers here.

The network keeps everything that was ever sent to a node, and an event delivers one of these
packets: never, again, or after later ones.

`eachStep_counted_iff` says which deliveries keep the counters right.
-/
import Mathlib.Data.List.Dedup
import Mathlib.Data.List.Induction
import IPShadowT.Runs

open Runs

namespace AckCounters

/-! ## The nodes and the network -/

inductive Packet where
  | data
  /-- acknowledges a data packet, `n` others having been received before -/
  | ack (n : ℕ)
  deriving DecidableEq, Repr

def Packet.isData : Packet → Bool
  | data => true
  | ack _ => false

def Packet.isAck : Packet → Bool
  | data => false
  | ack _ => true

/-- A node: the last number acknowledged to it, the number of data packets it has sent and of
those it has received.  A packet is on the network before it is counted (`sending`).  `inbox` has
all that was ever sent to the node, and `arrived` the places of what was delivered. -/
structure Node where
  una : ℕ
  nxt : ℕ
  rcv : ℕ
  sending : Bool
  inbox : List Packet
  arrived : List ℕ
  deriving DecidableEq, Repr

abbrev Net := Bool → Node

/-- A packet is sent to the node. -/
def Node.addressed (v : Node) (p : Packet) : Node := { v with inbox := v.inbox ++ [p] }

/-- The node sends a data packet. -/
def Node.send (v : Node) : Node := { v with sending := true }

/-- The node counts the data packet it has sent. -/
def Node.countSent (v : Node) : Node := { v with nxt := v.nxt + 1, sending := false }

/-- The node receives the data packet at the place `k`. -/
def Node.takeData (v : Node) (k : ℕ) : Node :=
  { v with rcv := v.rcv + 1, arrived := v.arrived ++ [k] }

/-- The node receives the acknowledgement at the place `k`, with the number `n`. -/
def Node.takeAck (v : Node) (k n : ℕ) : Node :=
  { v with una := n, arrived := v.arrived ++ [k] }

/-- What happens at a node: a data packet is sent, and then counted; the `k`-th packet ever sent
to the node is delivered. -/
inductive Event where
  | send
  | sent
  | deliver (k : ℕ)
  | idle
  deriving DecidableEq, Repr

/-- Something happens at the node `e.1`. -/
def step (s : Net) (e : Bool × Event) : Net :=
  match e.2 with
  | .send =>
    if (s e.1).sending then s
    else pair e.1 (s e.1).send ((s !e.1).addressed .data)
  | .sent => if (s e.1).sending then pair e.1 (s e.1).countSent (s !e.1) else s
  | .deliver k =>
    match (s e.1).inbox[k]? with
    | none => s
    | some .data => pair e.1 ((s e.1).takeData k) ((s !e.1).addressed (.ack (s e.1).rcv))
    | some (.ack n) => pair e.1 ((s e.1).takeAck k n) (s !e.1)
  | .idle => s

/-- Two nodes that have sent nothing. -/
def start : Net := fun _ => ⟨0, 0, 0, false, [], []⟩

/-! ## What is to hold, and which deliveries keep it -/

/-- The places of the data packets that were delivered, in the order of delivery. -/
def Node.dataArrived (v : Node) : List ℕ :=
  v.arrived.filter fun k => v.inbox[k]? = some .data

/-- No more is acknowledged than was sent, and each data packet is counted once. -/
def Node.Counted (v : Node) : Prop := v.una ≤ v.nxt ∧ v.rcv = v.dataArrived.dedup.length

/-- The number acknowledged does not go back in this step, and the counters are right behind
it. -/
def Counted (s : Net) (e : Bool × Event) : Prop :=
  ∀ i, (s i).una ≤ (step s e i).una ∧ (step s e i).Counted

/-- A data packet is delivered for the first time; an acknowledgement is delivered that was sent
after those delivered before. -/
def InOrder (s : Net) (e : Bool × Event) : Prop :=
  match e.2 with
  | .deliver k =>
    ((s e.1).inbox[k]? = some .data → k ∉ (s e.1).arrived) ∧
      ∀ n, (s e.1).inbox[k]? = some (.ack n) →
        ∀ m ∈ (s e.1).arrived, ∀ n', (s e.1).inbox[m]? = some (.ack n') → m ≤ k
  | _ => True

/-! ## The invariants -/

/-- What `w` has been sent is what `v` counts. -/
structure Sends (v w : Node) : Prop where
  data : w.inbox.countP Packet.isData = v.nxt + v.sending.toNat
  acks : w.inbox.countP Packet.isAck = v.rcv
  number : ∀ k n, w.inbox[k]? = some (.ack n) → n = (w.inbox.take k).countP Packet.isAck

/-- What was delivered is what was counted, and the number acknowledged is that of an
acknowledgement. -/
structure Node.Takes (v : Node) : Prop where
  rcv : v.dataArrived.length = v.rcv
  sent : ∀ k ∈ v.arrived, k < v.inbox.length
  delivered : v.una = 0 ∨ ∃ m ∈ v.arrived, v.inbox[m]? = some (.ack v.una)

/-- What holds in every state. -/
def Inv (s : Net) : Prop := ∀ i, Sends (s i) (s !i) ∧ (s i).Takes

/-- What holds as long as packets are delivered in order: no data packet twice, and the number
acknowledged is the largest delivered. -/
structure Node.Ordered (v : Node) : Prop where
  once : v.dataArrived.Nodup
  largest : ∀ m ∈ v.arrived, ∀ n, v.inbox[m]? = some (.ack n) → n ≤ v.una

/-! ## Counting in lists -/

section Lists

variable {α : Type*} {l : List α} {p : α → Bool} {a : α} {k m : ℕ}

/-- An entry that counts is counted from its place on. -/
theorem countP_take_lt (h : l[m]? = some a) (ha : p a = true) (hmk : m < k) :
    (l.take m).countP p < (l.take k).countP p := by
  have hsucc : (l.take (m + 1)).countP p = (l.take m).countP p + 1 := by
    rw [List.take_add_one, h, List.countP_append, Option.toList_some, List.countP_singleton,
      if_pos ha]
  have hle : (l.take (m + 1)).countP p ≤ (l.take k).countP p :=
    (List.take_sublist_take_left hmk).countP_le
  omega

/-- There are no more places of entries that count than such entries. -/
theorem length_le_countP {places : List ℕ} (hnodup : places.Nodup)
    (h : ∀ k ∈ places, ∃ a, l[k]? = some a ∧ p a = true) : places.length ≤ l.countP p := by
  induction l using List.reverseRecOn generalizing places with
  | nil =>
    cases places with
    | nil => exact Nat.zero_le _
    | cons k rest =>
      obtain ⟨a, ha, -⟩ := h k List.mem_cons_self
      cases ha
  | append_singleton l b ih =>
    -- without the place of `b`, all places are in `l`
    have hrest : (places.erase l.length).length ≤ l.countP p := by
      refine ih (hnodup.erase _) fun k hk => ?_
      obtain ⟨hne, hmem⟩ := hnodup.mem_erase_iff.1 hk
      obtain ⟨a, ha, hpa⟩ := h k hmem
      rcases getElem?_append_singleton_iff.1 ha with hl | ⟨hk', -⟩
      · exact ⟨a, hl, hpa⟩
      · exact absurd hk' hne
    rw [List.countP_append, List.countP_singleton]
    by_cases hmem : l.length ∈ places
    · obtain ⟨a, ha, hpa⟩ := h _ hmem
      rw [List.getElem?_concat_length] at ha
      obtain rfl := Option.some.inj ha
      have := List.length_erase_add_one hmem
      rw [if_pos hpa]
      omega
    · rw [List.erase_of_not_mem hmem] at hrest
      omega

end Lists

/-! ## One step -/

section Addressed

variable {v : Node} (h : v.Takes) (p : Packet)
include h

/-- What was delivered stays where it is. -/
theorem Node.getElem?_addressed {k : ℕ} (hk : k ∈ v.arrived) :
    (v.addressed p).inbox[k]? = v.inbox[k]? :=
  List.getElem?_append_left (h.sent k hk)

theorem Node.dataArrived_addressed : (v.addressed p).dataArrived = v.dataArrived :=
  List.filter_congr fun k hk => by rw [Node.getElem?_addressed h p hk]

theorem Node.Takes.addressed : (v.addressed p).Takes where
  rcv := (congrArg List.length (Node.dataArrived_addressed h p)).trans h.rcv
  sent := by
    intro k hk
    have := h.sent k hk
    rw [Node.addressed, List.length_append]
    omega
  delivered := by
    rcases h.delivered with hzero | ⟨m, hm, hn⟩
    · exact .inl hzero
    · exact .inr ⟨m, hm, (Node.getElem?_addressed h p hm).trans hn⟩

theorem Node.Ordered.addressed (ho : v.Ordered) : (v.addressed p).Ordered where
  once := by
    rw [Node.dataArrived_addressed h p]
    exact ho.once
  largest := by
    intro m hm n hn
    rw [Node.getElem?_addressed h p hm] at hn
    exact ho.largest m hm n hn

end Addressed

section Sends

variable {v w : Node} (h : Sends v w)
include h

/-- The numbers on the acknowledgements rise in the order they were sent. -/
theorem Sends.number_lt {k m n n' : ℕ} (hk : w.inbox[k]? = some (.ack n))
    (hm : w.inbox[m]? = some (.ack n')) (hlt : m < k) : n' < n := by
  rw [h.number k n hk, h.number m n' hm]
  exact countP_take_lt hm rfl hlt

/-- Fewer data packets were received before one was acknowledged than were received in all. -/
theorem Sends.number_lt_rcv {m n : ℕ} (hm : w.inbox[m]? = some (.ack n)) : n < v.rcv := by
  have hlen : m < w.inbox.length := (List.getElem?_eq_some_iff.1 hm).1
  have := countP_take_lt (p := Packet.isAck) hm rfl hlen
  rwa [List.take_length, ← h.number m n hm, h.acks] at this

/-- A packet behind the others leaves the numbers of the acknowledgements as they are. -/
theorem Sends.number_addressed {p : Packet} {k n : ℕ}
    (hk : (w.addressed p).inbox[k]? = some (.ack n)) :
    n = ((w.addressed p).inbox.take k).countP Packet.isAck ∨ (k = w.inbox.length ∧ p = .ack n) := by
  rcases getElem?_append_singleton_iff.1 hk with hk' | hlast
  · have hlt : k < w.inbox.length := (List.getElem?_eq_some_iff.1 hk').1
    rw [Node.addressed, List.take_append_of_le_length (Nat.le_of_lt hlt)]
    exact .inl (h.number k n hk')
  · exact .inr hlast

/-- A data packet is sent, but not yet counted. -/
theorem Sends.send (hidle : v.sending = false) : Sends v.send (w.addressed .data) where
  data := by
    have := h.data
    rw [hidle] at this
    simp only [Node.addressed, List.countP_append, this]
    rfl
  acks := by
    simp only [Node.addressed, List.countP_append, h.acks]
    rfl
  number := by
    intro k n hk
    rcases h.number_addressed hk with hn | ⟨-, hdata⟩
    · exact hn
    · cases hdata

/-- The data packet is counted. -/
theorem Sends.countSent (hbusy : v.sending = true) : Sends v.countSent w where
  data := by
    have := h.data
    rwa [hbusy] at this
  acks := h.acks
  number := h.number

/-- A data packet is received and acknowledged. -/
theorem Sends.acknowledge (k : ℕ) : Sends (v.takeData k) (w.addressed (.ack v.rcv)) where
  data := by
    simp only [Node.addressed, List.countP_append, h.data]
    rfl
  acks := by
    simp only [Node.addressed, List.countP_append, h.acks]
    rfl
  number := by
    intro k n hk
    rcases h.number_addressed hk with hn | ⟨rfl, hack⟩
    · exact hn
    · rw [Node.addressed, List.take_left, h.acks]
      exact (Packet.ack.inj hack).symm

end Sends

section Delivered

variable {v : Node} {k : ℕ}

theorem Node.mem_dataArrived {m : ℕ} :
    m ∈ v.dataArrived ↔ m ∈ v.arrived ∧ v.inbox[m]? = some .data := by
  rw [Node.dataArrived, List.mem_filter, decide_eq_true_iff]

theorem Node.dataArrived_takeData (hk : v.inbox[k]? = some .data) :
    (v.takeData k).dataArrived = v.dataArrived ++ [k] := by
  show (v.arrived ++ [k]).filter (fun m => v.inbox[m]? = some .data) = _
  rw [List.filter_append, List.filter_singleton, hk, decide_eq_true rfl]
  rfl

theorem Node.dataArrived_takeAck {n : ℕ} (hk : v.inbox[k]? = some (.ack n)) :
    (v.takeAck k n).dataArrived = v.dataArrived := by
  show (v.arrived ++ [k]).filter (fun m => v.inbox[m]? = some .data) = _
  rw [List.filter_append, List.filter_singleton, hk, decide_eq_false (by simp)]
  exact List.append_nil _

/-- Data arrive. -/
theorem Node.Takes.takeData (h : v.Takes) (hk : v.inbox[k]? = some .data) :
    (v.takeData k).Takes where
  rcv := by
    rw [Node.dataArrived_takeData hk, List.length_append, h.rcv]
    rfl
  sent := by
    refine List.forall_mem_append.2 ⟨h.sent, List.forall_mem_singleton.2 ?_⟩
    exact (List.getElem?_eq_some_iff.1 hk).1
  delivered := by
    rcases h.delivered with hzero | ⟨m, hm, hn⟩
    · exact .inl hzero
    · exact .inr ⟨m, List.mem_append_left _ hm, hn⟩

/-- An acknowledgement arrives. -/
theorem Node.Takes.takeAck (h : v.Takes) {n : ℕ} (hk : v.inbox[k]? = some (.ack n)) :
    (v.takeAck k n).Takes where
  rcv := by
    rw [Node.dataArrived_takeAck hk, h.rcv]
    rfl
  sent := by
    refine List.forall_mem_append.2 ⟨h.sent, List.forall_mem_singleton.2 ?_⟩
    exact (List.getElem?_eq_some_iff.1 hk).1
  delivered := .inr ⟨k, List.mem_append_right _ (List.mem_singleton_self k), hk⟩

/-- A data packet delivered again is the only way to have one twice. -/
theorem Node.nodup_takeData_iff (h : v.dataArrived.Nodup) (hk : v.inbox[k]? = some .data) :
    (v.takeData k).dataArrived.Nodup ↔ k ∉ v.arrived := by
  rw [Node.dataArrived_takeData hk, ← List.concat_eq_append, List.nodup_concat,
    Node.mem_dataArrived]
  constructor
  · rintro ⟨hnew, -⟩ hmem
    exact hnew ⟨hmem, hk⟩
  · intro hnew
    exact ⟨fun hmem => hnew hmem.1, h⟩

theorem Node.Ordered.takeData (h : v.Ordered) (hk : v.inbox[k]? = some .data)
    (hnew : k ∉ v.arrived) : (v.takeData k).Ordered where
  once := (Node.nodup_takeData_iff h.once hk).2 hnew
  largest := by
    refine List.forall_mem_append.2 ⟨h.largest, List.forall_mem_singleton.2 fun n hn => ?_⟩
    cases hk.symm.trans hn

theorem Node.Ordered.takeAck (h : v.Ordered) {n : ℕ} (hk : v.inbox[k]? = some (.ack n))
    (hlargest : ∀ m ∈ v.arrived, ∀ n', v.inbox[m]? = some (.ack n') → n' ≤ n) :
    (v.takeAck k n).Ordered where
  once := by
    rw [Node.dataArrived_takeAck hk]
    exact h.once
  largest := by
    refine List.forall_mem_append.2 ⟨hlargest, List.forall_mem_singleton.2 fun n' hn' => ?_⟩
    exact Nat.le_of_eq (Packet.ack.inj (Option.some.inj (hn'.symm.trans hk)))

end Delivered

/-! ## Runs -/

/-- What can happen in a step. -/
theorem step_cases (s : Net) (i : Bool) (event : Event) :
    (step s (i, event) = s ∧ InOrder s (i, event)) ∨
    (event = .send ∧ (s i).sending = false ∧
      step s (i, event) = pair i (s i).send ((s !i).addressed .data)) ∨
    (event = .sent ∧ (s i).sending = true ∧ step s (i, event) = pair i (s i).countSent (s !i)) ∨
    (∃ k, event = .deliver k ∧ (s i).inbox[k]? = some .data ∧
      step s (i, event) = pair i ((s i).takeData k) ((s !i).addressed (.ack (s i).rcv))) ∨
    (∃ k n, event = .deliver k ∧ (s i).inbox[k]? = some (.ack n) ∧
      step s (i, event) = pair i ((s i).takeAck k n) (s !i)) := by
  cases event with
  | send =>
    by_cases hbusy : (s i).sending = true
    · exact .inl ⟨if_pos hbusy, trivial⟩
    · exact .inr (.inl ⟨rfl, Bool.eq_false_iff.2 hbusy, if_neg hbusy⟩)
  | sent =>
    by_cases hbusy : (s i).sending = true
    · exact .inr (.inr (.inl ⟨rfl, hbusy, if_pos hbusy⟩))
    · exact .inl ⟨if_neg hbusy, trivial⟩
  | deliver k =>
    simp only [step, InOrder]
    cases hk : (s i).inbox[k]? with
    | none => simp
    | some p => cases p <;> simp [hk]
  | idle => exact .inl ⟨rfl, trivial⟩

theorem inv_pair {i : Bool} {v w : Node} (hvw : Sends v w) (hwv : Sends w v) (hv : v.Takes)
    (hw : w.Takes) : Inv (pair i v w) := by
  refine forall_pair i ?_ ?_
  · rw [pair_self, pair_not]
    exact ⟨hvw, hv⟩
  · rw [Bool.not_not, pair_self, pair_not]
    exact ⟨hwv, hw⟩

/-- What a node has been sent is what the other node counts. -/
theorem Inv.sendsBack {s : Net} (h : Inv s) (i : Bool) : Sends (s !i) (s i) := by
  have hsends := (h !i).1
  rwa [Bool.not_not] at hsends

/-- **Every step** keeps the books. -/
theorem inv_step (s : Net) (e : Bool × Event) (h : Inv s) : Inv (step s e) := by
  obtain ⟨i, event⟩ := e
  obtain ⟨hsends, htakes⟩ := h i
  have hsends' := h.sendsBack i
  have htakes' := (h !i).2
  rcases step_cases s i event with ⟨hstep, -⟩ | ⟨-, hidle, hstep⟩ | ⟨-, hbusy, hstep⟩ |
    ⟨k, -, hk, hstep⟩ | ⟨k, n, -, hk, hstep⟩ <;> rw [hstep]
  · exact h
  · exact inv_pair (hsends.send hidle) ⟨hsends'.data, hsends'.acks, hsends'.number⟩
      ⟨htakes.rcv, htakes.sent, htakes.delivered⟩ (htakes'.addressed _)
  · exact inv_pair (hsends.countSent hbusy) ⟨hsends'.data, hsends'.acks, hsends'.number⟩
      ⟨htakes.rcv, htakes.sent, htakes.delivered⟩ htakes'
  · exact inv_pair (hsends.acknowledge k) ⟨hsends'.data, hsends'.acks, hsends'.number⟩
      (htakes.takeData hk) (htakes'.addressed _)
  · exact inv_pair ⟨hsends.data, hsends.acks, hsends.number⟩
      ⟨hsends'.data, hsends'.acks, hsends'.number⟩ (htakes.takeAck hk) htakes'

theorem una_le_pair {s : Net} {i : Bool} {v w : Node} (hv : (s i).una ≤ v.una)
    (hw : (s !i).una ≤ w.una) (j : Bool) : (s j).una ≤ (pair i v w j).una := by
  by_cases hj : j = i
  · rwa [hj, pair_self]
  · rwa [Bool.eq_not_of_ne hj, pair_not]

/-- No counter exceeds the number of packets sent. -/
theorem counters_le {s : Net} (h : Inv s) (i : Bool) :
    (s i).una ≤ (s i).inbox.length ∧ (s i).nxt ≤ (s !i).inbox.length ∧
      (s i).rcv ≤ (s !i).inbox.length := by
  obtain ⟨hsends, htakes⟩ := h i
  have hdata := List.countP_le_length (p := Packet.isData) (l := (s !i).inbox)
  have hacks := List.countP_le_length (p := Packet.isAck) (l := (s !i).inbox)
  rw [hsends.data] at hdata
  rw [hsends.acks] at hacks
  refine ⟨?_, by omega, hacks⟩
  rcases htakes.delivered with hzero | ⟨m, -, hn⟩
  · omega
  · rw [(h.sendsBack i).number m _ hn]
    exact Nat.le_trans List.countP_le_length (List.length_take_le' ..)

section Ordered

variable {s : Net} (h : Inv s) (ho : ∀ i, (s i).Ordered)
include h ho

/-- An acknowledgement has at least the number acknowledged before exactly if it was sent after
all that were delivered before. -/
theorem una_le_iff {i : Bool} {k n : ℕ} (hk : (s i).inbox[k]? = some (.ack n)) :
    (s i).una ≤ n ↔ ∀ m ∈ (s i).arrived, ∀ n', (s i).inbox[m]? = some (.ack n') → m ≤ k := by
  have hsends := h.sendsBack i
  constructor
  · intro hle m hm n' hn'
    by_contra hlt
    have hnumber := hsends.number_lt hn' hk (Nat.not_le.1 hlt)
    have hlargest := (ho i).largest m hm n' hn'
    omega
  · intro hlast
    rcases (h i).2.delivered with hzero | ⟨m, hm, hn'⟩
    · omega
    · rcases Nat.lt_or_eq_of_le (hlast m hm _ hn') with hlt | rfl
      · exact Nat.le_of_lt (hsends.number_lt hk hn' hlt)
      · exact Nat.le_of_eq (Packet.ack.inj (Option.some.inj (hn'.symm.trans hk)))

/-- **A step in order.** -/
theorem ordered_step (e : Bool × Event) (he : InOrder s e) (j : Bool) : (step s e j).Ordered := by
  obtain ⟨i, event⟩ := e
  have hself := ho i
  have hother := ho (!i)
  rcases step_cases s i event with ⟨hstep, -⟩ | ⟨-, -, hstep⟩ | ⟨-, -, hstep⟩ |
    ⟨k, rfl, hk, hstep⟩ | ⟨k, n, rfl, hk, hstep⟩ <;> rw [hstep]
  · exact ho j
  · have hsend : (s i).send.Ordered := ⟨hself.once, hself.largest⟩
    exact pair_forall hsend (hother.addressed (h !i).2 _) i j
  · have hcount : (s i).countSent.Ordered := ⟨hself.once, hself.largest⟩
    exact pair_forall hcount hother i j
  · exact pair_forall (hself.takeData hk (he.1 hk)) (hother.addressed (h !i).2 _) i j
  · have hle := (una_le_iff h ho hk).2 (he.2 n hk)
    refine pair_forall (hself.takeAck hk fun m hm n' hn' => ?_) hother i j
    exact Nat.le_trans (hself.largest m hm n' hn') hle

/-- The number acknowledged does not go back. -/
theorem una_le_step (e : Bool × Event) (he : InOrder s e) (j : Bool) :
    (s j).una ≤ (step s e j).una := by
  obtain ⟨i, event⟩ := e
  rcases step_cases s i event with ⟨hstep, -⟩ | ⟨-, -, hstep⟩ | ⟨-, -, hstep⟩ |
    ⟨k, rfl, hk, hstep⟩ | ⟨k, n, rfl, hk, hstep⟩
  · exact Nat.le_of_eq (congrArg Node.una (congrFun hstep j)).symm
  · rw [hstep]
    refine una_le_pair ?_ ?_ j <;> exact Nat.le_refl _
  · rw [hstep]
    refine una_le_pair ?_ ?_ j <;> exact Nat.le_refl _
  · rw [hstep]
    refine una_le_pair ?_ ?_ j <;> exact Nat.le_refl _
  · rw [hstep]
    exact una_le_pair ((una_le_iff h ho hk).2 (he.2 n hk)) (Nat.le_refl _) j

/-- **Ordered deliveries keep the counters right.**  What is acknowledged to a node was received
before another packet of the node, so less was received than the node has sent. -/
theorem counted_of_ordered (i : Bool) : (s i).Counted := by
  obtain ⟨hsends, htakes⟩ := h i
  refine ⟨?_, ?_⟩
  · rcases htakes.delivered with hzero | ⟨m, -, hn⟩
    · omega
    · have hreceived := (h.sendsBack i).number_lt_rcv hn
      have hsent : (s !i).dataArrived.length ≤ (s !i).inbox.countP Packet.isData :=
        length_le_countP (ho !i).once fun k hk => ⟨_, (Node.mem_dataArrived.1 hk).2, rfl⟩
      have htoNat : (s i).sending.toNat ≤ 1 := Bool.toNat_le _
      rw [(h !i).2.rcv, hsends.data] at hsent
      omega
  · rw [(ho i).once.dedup, htakes.rcv]

/-- Of the demands on a step, those on the deliveries decide. -/
theorem counted_iff (e : Bool × Event) : Counted s e ↔ InOrder s e := by
  constructor
  · intro hcounted
    obtain ⟨i, event⟩ := e
    have hself := hcounted i
    rcases step_cases s i event with ⟨-, hin⟩ | ⟨rfl, -⟩ | ⟨rfl, -⟩ | ⟨k, rfl, hk, hstep⟩ |
      ⟨k, n, rfl, hk, hstep⟩
    · exact hin
    · trivial
    · trivial
    · refine ⟨fun _ => ?_, fun n hn => ?_⟩
      · rw [hstep, pair_self] at hself
        have htakes := ((h i).2.takeData hk).rcv
        rw [hself.2.2] at htakes
        refine (Node.nodup_takeData_iff (ho i).once hk).1 ?_
        exact List.dedup_eq_self.1 ((List.dedup_sublist _).eq_of_length htakes.symm)
      · cases hk.symm.trans hn
    · refine ⟨fun hdata => ?_, fun n' hn' => ?_⟩
      · cases hk.symm.trans hdata
      · rw [hstep, pair_self] at hself
        exact (una_le_iff h ho hk).1 hself.1
  · intro he j
    exact ⟨una_le_step h ho e he j, counted_of_ordered (inv_step s e h) (ordered_step h ho e he) j⟩

end Ordered

/-- At the start. -/
theorem inv_start : Inv start := fun _ =>
  ⟨⟨rfl, rfl, fun _ _ hk => by cases hk⟩, ⟨rfl, List.forall_mem_nil _, .inl rfl⟩⟩

theorem ordered_start (i : Bool) : (start i).Ordered :=
  ⟨List.nodup_nil, List.forall_mem_nil _⟩

/-- **Which runs keep the counters right**: those that deliver no data packet twice and no
acknowledgement after a later one. -/
theorem eachStep_counted_iff (es : List (Bool × Event)) :
    EachStep step Counted start es ↔ EachStep step InOrder start es := by
  refine eachStep_iff_of_invariant (I := fun s => Inv s ∧ ∀ i, (s i).Ordered) ?_ ?_
    ⟨inv_start, ordered_start⟩ es
  · rintro s e ⟨h, ho⟩ he
    exact ⟨inv_step s e h, ordered_step h ho e he⟩
  · rintro s e ⟨h, ho⟩
    exact counted_iff h ho e

end AckCounters
