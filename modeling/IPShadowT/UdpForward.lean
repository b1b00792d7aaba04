/-
# The receive buffer of the UDP forwarders

`UDPForwarder.readLoop` (`internal/tunnel/udp.go`) and `WireGuardForwarder.readLoop`
(`internal/tunnel/wireguard_fwd.go`) receive every datagram into one buffer.  The first starts a
goroutine for each datagram, the second for the first datagram of a client, and what the
goroutine is given is a slice of that buffer, which the loop goes on to receive into.

Here the loops and their goroutines are runs over an explicit buffer, a step at a time, with
datagrams of any clients and any order of steps.  A datagram that is received while goroutines
have yet to copy their slices overwrites these; `forwarded_of_undisturbed` says which ones may come
then.

A goroutine copies its slice into a message of its own and writes that; since nobody else sees
the message, the copy and the write are one step.  The map `sessions` of the UDP forwarder, which
no step reads, and the way back to the clients are left out.
-/
import Mathlib.Logic.Function.Basic
import IPShadowT.Runs
import IPShadowT.TunnelHeader

open Bytes Runs
open TunnelHeader (forwardPacket)

namespace UdpForward

/-! ## The buffer -/

/-- A datagram; its length is a number of 16 bits. -/
abbrev Datagram := { d : Bytes // d.length ≤ 65535 }

/-- The buffer of a loop, and what it has received so far. -/
structure Socket (α : Type*) where
  buf : Bytes
  received : List (α × Datagram)

variable {α : Type*}

namespace Socket

/-- `make([]byte, 65535)`. -/
def new : Socket α := ⟨List.replicate 65535 0, []⟩

/-- `ReadFromUDP(buf)`. -/
def receive (s : Socket α) (client : α) (d : Datagram) : Socket α :=
  ⟨overwrite s.buf d.1, s.received ++ [(client, d)]⟩

/-- `buf[:n]` is a datagram of this client. -/
def Holds (s : Socket α) (client : α) (n : ℕ) : Prop :=
  ∃ p ∈ s.received, p.1 = client ∧ p.2.1 = s.buf.take n

/-- Every message written for a client is the message for a datagram of that client. -/
def Carries (s : Socket α) (message : Bytes → Bytes) (written : List (α × Bytes)) : Prop :=
  ∀ w ∈ written, ∃ p ∈ s.received, p.1 = w.1 ∧ message p.2.1 = w.2

instance [DecidableEq α] (s : Socket α) (message : Bytes → Bytes) (written : List (α × Bytes)) :
    Decidable (s.Carries message written) :=
  inferInstanceAs (Decidable (∀ w ∈ written, ∃ p ∈ s.received, p.1 = w.1 ∧ message p.2.1 = w.2))

/-- A datagram that may be received over the slice `buf[:n]` of a client: one of the same client
and the same length, or one that begins as the buffer does, as far as the slice goes. -/
def Spares (s : Socket α) (sender : α) (d : Datagram) (slice : α × ℕ) : Prop :=
  (sender = slice.1 ∧ d.1.length = slice.2) ∨ d.1.take slice.2 <+: s.buf

instance [DecidableEq α] (s : Socket α) (sender : α) (d : Datagram) (slice : α × ℕ) :
    Decidable (s.Spares sender d slice) :=
  inferInstanceAs (Decidable (_ ∨ _))

/-- What has just been received is in the buffer. -/
theorem holds_receive (s : Socket α) (client : α) (d : Datagram) :
    (s.receive client d).Holds client d.1.length :=
  ⟨(client, d), List.mem_append_right _ (List.mem_singleton_self _), rfl,
    (take_overwrite s.buf d.1).symm⟩

/-- A slice that the next datagram spares is still a datagram of its client. -/
theorem Holds.receive {s : Socket α} {slice : α × ℕ} (h : s.Holds slice.1 slice.2) {sender : α}
    {d : Datagram} (hspares : s.Spares sender d slice) :
    (s.receive sender d).Holds slice.1 slice.2 := by
  rcases hspares with ⟨hsender, hlen⟩ | hbegins
  · rw [← hsender, ← hlen]
    exact s.holds_receive sender d
  · obtain ⟨p, hp, hclient, htake⟩ := h
    refine ⟨p, List.mem_append_left _ hp, hclient, htake.trans ?_⟩
    exact (take_overwrite_of_begins hbegins).symm

/-- The slices that have yet to be copied and the messages that have been written are right. -/
structure Right (s : Socket α) (message : Bytes → Bytes) (slices : List (α × ℕ))
    (written : List (α × Bytes)) : Prop where
  slices : ∀ slice ∈ slices, s.Holds slice.1 slice.2
  written : s.Carries message written

namespace Right

variable {s : Socket α} {message : Bytes → Bytes} {slices slices' : List (α × ℕ)}
  {written : List (α × Bytes)}

/-- Nothing is wrong at the start. -/
theorem nil : s.Right message [] [] := ⟨by simp, by intro w hw; cases hw⟩

/-- Slices may be given up. -/
theorem subset (h : s.Right message slices written) (hsub : slices' ⊆ slices) :
    s.Right message slices' written :=
  ⟨fun slice hslice => h.slices slice (hsub hslice), h.written⟩

/-- Goroutines may give up theirs, whatever the loop holds. -/
theorem fewer {held : List (α × ℕ)} (h : s.Right message (held ++ slices) written)
    (hsub : slices' ⊆ slices) : s.Right message (held ++ slices') written := by
  refine h.subset fun p hp => ?_
  rcases List.mem_append.1 hp with hheld | hslice
  · exact List.mem_append_left _ hheld
  · exact List.mem_append_right _ (hsub hslice)

/-- **Receiving a datagram** that spares every slice. -/
theorem receive (h : s.Right message slices written) {sender : α} {d : Datagram}
    (hspares : ∀ slice ∈ slices, s.Spares sender d slice) :
    (s.receive sender d).Right message ((sender, d.1.length) :: slices) written := by
  constructor
  · intro slice hslice
    rcases List.mem_cons.1 hslice with rfl | hold
    · exact s.holds_receive sender d
    · exact (h.slices slice hold).receive (hspares slice hold)
  · intro w hw
    obtain ⟨p, hp, hmessage⟩ := h.written w hw
    exact ⟨p, List.mem_append_left _ hp, hmessage⟩

/-- **Copying a slice** into a message, and writing that. -/
theorem copy (h : s.Right message slices written) {client : α} {n : ℕ}
    (hslice : (client, n) ∈ slices) :
    s.Right message slices (written ++ [(client, message (s.buf.take n))]) := by
  refine ⟨h.slices, fun w hw => ?_⟩
  rcases List.mem_append.1 hw with hold | hnew
  · exact h.written w hold
  · obtain rfl := List.mem_singleton.1 hnew
    obtain ⟨p, hp, hclient, htake⟩ := h.slices _ hslice
    exact ⟨p, hp, hclient, congrArg message htake⟩

end Right

end Socket

/-! ## The UDP forwarder -/

/-- What a goroutine of the UDP forwarder has yet to do: get a stream for `buf[:n]` and its
client, send it, or nothing. -/
inductive Udp.Task (α : Type*) where
  | started (client : α) (n : ℕ)
  | opened (client : α) (n : ℕ)
  | finished
  deriving DecidableEq, Repr

/-- A `UDPForwarder` that runs.  `packet` is what `ReadFromUDP` has returned, until the loop
starts a goroutine for it. -/
structure Udp (α : Type*) where
  socket : Socket α
  packet : Option (α × ℕ)
  tasks : List (Udp.Task α)
  written : List (α × Bytes)

namespace Udp

def start : Udp α := ⟨.new, none, [], []⟩

/-- A step of the loop (`receive`, `spawn`) or of a goroutine running `forwardPacket`. -/
inductive Event (α : Type*) where
  | receive (client : α) (d : Datagram)
  | spawn
  | getStream (k : ℕ) (ok : Bool)
  | send (k : ℕ)

variable (remoteAddr : Bytes)

def step (u : Udp α) : Event α → Udp α
  | .receive client d =>
    match u.packet with
    | none => { u with socket := u.socket.receive client d, packet := some (client, d.1.length) }
    | some _ => u
  | .spawn =>
    match u.packet with
    | some (client, n) => { u with packet := none, tasks := u.tasks ++ [.started client n] }
    | none => u
  | .getStream k ok =>
    match u.tasks[k]? with
    | some (.started client n) =>
      { u with tasks := u.tasks.set k (if ok then .opened client n else .finished) }
    | _ => u
  | .send k =>
    match u.tasks[k]? with
    | some (.opened client n) =>
      { u with
        tasks := u.tasks.set k .finished
        written := u.written ++ [(client, forwardPacket remoteAddr (u.socket.buf.take n))] }
    | _ => u

/-- What has been written for each client are its own datagrams. -/
def Forwarded (u : Udp α) : Prop := u.socket.Carries (forwardPacket remoteAddr) u.written

/-- The slice that a goroutine has yet to copy, with its client. -/
def Task.slice : Task α → Option (α × ℕ)
  | .started client n | .opened client n => some (client, n)
  | .finished => none

/-- The slices that goroutines have yet to copy. -/
def pending (u : Udp α) : List (α × ℕ) := u.tasks.filterMap Task.slice

/-- When the loop receives, the datagram spares what goroutines have yet to copy. -/
def Undisturbed (u : Udp α) : Event α → Prop
  | .receive sender d => u.packet = none → ∀ slice ∈ u.pending, u.socket.Spares sender d slice
  | .spawn | .getStream .. | .send .. => True

instance [DecidableEq α] (u : Udp α) : (e : Event α) → Decidable (Undisturbed u e)
  | .receive sender d => inferInstanceAs (Decidable (u.packet = none →
      ∀ slice ∈ u.pending, u.socket.Spares sender d slice))
  | .spawn | .getStream .. | .send .. => inferInstanceAs (Decidable True)

/-- All that waits for a step of the loop or of a goroutine is right, and so is all that has
been written. -/
def Sound (u : Udp α) : Prop :=
  u.socket.Right (forwardPacket remoteAddr) (u.packet.toList ++ u.pending) u.written

/-- A goroutine that goes on has no more to copy than before. -/
theorem pending_set {tasks : List (Task α)} {k : ℕ} {t t' : Task α} (htask : tasks[k]? = some t)
    (hslice : ∀ p ∈ t'.slice, p ∈ t.slice) :
    (tasks.set k t').filterMap Task.slice ⊆ tasks.filterMap Task.slice := by
  intro p hp
  obtain ⟨t'', ht'', hslice'⟩ := List.mem_filterMap.1 hp
  rcases List.mem_or_eq_of_mem_set ht'' with hold | rfl
  · exact List.mem_filterMap.2 ⟨t'', hold, hslice'⟩
  · exact List.mem_filterMap.2 ⟨t, List.mem_of_getElem? htask, hslice p hslice'⟩

theorem sound_step (u : Udp α) (e : Event α) (h : Sound remoteAddr u) (hok : Undisturbed u e) :
    Sound remoteAddr (step remoteAddr u e) := by
  cases e with
  | receive sender d =>
    simp only [step]
    split
    next hpacket =>
      rw [Sound, hpacket] at h
      exact h.receive (hok hpacket)
    next => exact h
  | spawn =>
    simp only [step]
    split
    next client n hpacket =>
      refine h.subset ?_
      simp only [pending, hpacket, List.filterMap_append]
      intro p hp
      simpa [Task.slice, or_comm] using hp
    next => exact h
  | getStream k ok =>
    simp only [step]
    split
    next client n htask =>
      refine h.fewer (pending_set htask ?_)
      intro p hp
      cases ok with
      | false => cases hp
      | true => exact hp
    next => exact h
  | send k =>
    simp only [step]
    split
    next client n htask =>
      have hslice : (client, n) ∈ u.packet.toList ++ u.pending :=
        List.mem_append_right _ (List.mem_filterMap.2 ⟨_, List.mem_of_getElem? htask, rfl⟩)
      refine (h.copy hslice).fewer (pending_set htask ?_)
      intro p hp
      cases hp
    next => exact h

/-- **Runs of the UDP forwarder.** -/
theorem always_forwarded {es : List (Event α)}
    (hes : EachStep (step remoteAddr) Undisturbed start es) :
    Always (step remoteAddr) (Forwarded remoteAddr) start es := by
  have hstart : Sound remoteAddr (start : Udp α) := Socket.Right.nil
  have hsound : Always (step remoteAddr) (Sound remoteAddr) start es :=
    .of_eachStep (sound_step remoteAddr) hstart hes
  exact hsound.mono fun _ h => h.written

end Udp

/-! ## The WireGuard forwarder -/

namespace WireGuard

/-- Where the goroutine of a client is: `setupClient` before `GetStream`, before
`writeDestHeader`, before the first packet and after it, then `tunnelToClient` once it has stored
the stream, and the end. -/
inductive Phase where
  | started
  | opened
  | headed
  | sent
  | serving
  | finished
  deriving DecidableEq, Repr

/-- A `wgClient` and its goroutine: its address, the length of the packet it was started with,
and whether `client.stream` has been stored. -/
structure Client (α : Type*) where
  addr : α
  firstPacket : ℕ
  phase : Phase
  stream : Bool
  deriving DecidableEq, Repr

/-- Where the loop is: before `ReadFromUDP`, after it, or in `forwardToTunnel` with a client. -/
inductive Loop (α : Type*) where
  | reading
  | received (client : α) (n : ℕ)
  | forwarding (k n : ℕ)
  deriving DecidableEq, Repr

end WireGuard

/-- A `WireGuardForwarder` that runs.  `made` are the clients made so far, and `clients` is the
map from addresses to them. -/
structure WireGuard (α : Type*) where
  socket : Socket α
  loop : WireGuard.Loop α
  made : List (WireGuard.Client α)
  clients : α → Option ℕ
  written : List (α × Bytes)

namespace WireGuard

def start : WireGuard α := ⟨.new, .reading, [], fun _ => none, []⟩

/-- A step of the loop (`receive`, `loadOrStore`, `forwardToTunnel`), of the goroutine of a
client, or a round of `cleanupLoop` that finds a client stale. -/
inductive Event (α : Type*) where
  | receive (client : α) (d : Datagram)
  | loadOrStore
  | forwardToTunnel
  | getStream (k : ℕ) (ok : Bool)
  | writeDestHeader (k : ℕ) (ok : Bool)
  | sendFirst (k : ℕ)
  | storeStream (k : ℕ)
  | tunnelEnds (k : ℕ)
  | cleanup (client : α)

/-- The frame that `sendToStream` writes. -/
def sendToStream (data : Bytes) : Bytes := beBytes 2 data.length ++ data

/-- The destination of the tunnel; without one it is `127.0.0.1:51820`. -/
def dest (remote : Bytes) : Bytes :=
  if remote = [] then [49, 50, 55, 46, 48, 46, 48, 46, 49, 58, 53, 49, 56, 50, 48] else remote

/-- A step of the goroutine of client `k`, if it has come to this phase. -/
def resume (w : WireGuard α) (k : ℕ) (phase : Phase) (next : Client α → WireGuard α) :
    WireGuard α :=
  match w.made[k]? with
  | some c => if c.phase = phase then next c else w
  | none => w

def goOn (w : WireGuard α) (k : ℕ) (phase : Phase) : WireGuard α :=
  { w with made := w.made.modify k fun c => { c with phase := phase } }

/-- `client.stream = ...`. -/
def store (w : WireGuard α) (k : ℕ) : WireGuard α :=
  { w with made := w.made.modify k fun c => { c with stream := true } }

/-- `wf.clients.Delete(...)`. -/
def delete [DecidableEq α] (w : WireGuard α) (addr : α) : WireGuard α :=
  { w with clients := Function.update w.clients addr none }

def step [DecidableEq α] (remote : Bytes) (w : WireGuard α) : Event α → WireGuard α
  | .receive client d =>
    match w.loop with
    | .reading =>
      { w with
        socket := w.socket.receive client d
        loop := .received client d.1.length }
    | _ => w
  | .loadOrStore =>
    match w.loop with
    | .received client n =>
      match w.clients client with
      | some k => { w with loop := .forwarding k n }
      | none =>
        { w with
          loop := .reading
          clients := Function.update w.clients client (some w.made.length)
          made := w.made ++ [⟨client, n, .started, false⟩] }
    | _ => w
  | .forwardToTunnel =>
    match w.loop with
    | .forwarding k n =>
      match w.made[k]? with
      | some c =>
        if c.stream then
          { w with
            loop := .reading
            written := w.written ++ [(c.addr, sendToStream (w.socket.buf.take n))] }
        else { w with loop := .reading }
      | none => { w with loop := .reading }
    | _ => w
  | .getStream k ok =>
    w.resume k .started fun c =>
      if ok then w.goOn k .opened else (w.goOn k .finished).delete c.addr
  | .writeDestHeader k ok =>
    w.resume k .opened fun c =>
      match (TunnelHeader.writeDestHeader ⟨[], if ok then [] else [some 0]⟩ (dest remote)).1 with
      | .ok _ => w.goOn k .headed
      | .error _ => (w.goOn k .finished).delete c.addr
  | .sendFirst k =>
    w.resume k .headed fun c =>
      { w.goOn k .sent with
        written := w.written ++ [(c.addr, sendToStream (w.socket.buf.take c.firstPacket))] }
  | .storeStream k => w.resume k .sent fun _ => (w.goOn k .serving).store k
  | .tunnelEnds k => w.resume k .serving fun c => (w.goOn k .finished).delete c.addr
  | .cleanup client => w.delete client

/-- What has been written for each client are its own datagrams. -/
def Forwarded (w : WireGuard α) : Prop := w.socket.Carries sendToStream w.written

/-- The address of a client. -/
def addrOf (w : WireGuard α) (k : ℕ) : Option α := w.made[k]?.map (·.addr)

/-- The first packet has yet to be copied. -/
def Phase.waits : Phase → Bool
  | .started | .opened | .headed => true
  | .sent | .serving | .finished => false

/-- The slice that the goroutine of a client has yet to copy. -/
def Client.slice (c : Client α) : Option (α × ℕ) :=
  if c.phase.waits then some (c.addr, c.firstPacket) else none

/-- The slices that goroutines have yet to copy. -/
def pending (w : WireGuard α) : List (α × ℕ) := w.made.filterMap Client.slice

/-- The slice that the loop holds. -/
def loopSlice (w : WireGuard α) : List (α × ℕ) :=
  match w.loop with
  | .reading => []
  | .received client n => [(client, n)]
  | .forwarding k n => (w.addrOf k).toList.map (·, n)

/-- When the loop receives, the datagram spares what goroutines have yet to copy. -/
def Undisturbed (w : WireGuard α) : Event α → Prop
  | .receive sender d => w.loop = .reading → ∀ slice ∈ w.pending, w.socket.Spares sender d slice
  | .loadOrStore | .forwardToTunnel | .getStream .. | .writeDestHeader .. | .sendFirst ..
  | .storeStream .. | .tunnelEnds .. | .cleanup .. => True

instance [DecidableEq α] (w : WireGuard α) : (e : Event α) → Decidable (Undisturbed w e)
  | .receive sender d => inferInstanceAs (Decidable (w.loop = .reading →
      ∀ slice ∈ w.pending, w.socket.Spares sender d slice))
  | .loadOrStore | .forwardToTunnel | .getStream .. | .writeDestHeader .. | .sendFirst ..
  | .storeStream .. | .tunnelEnds .. | .cleanup .. => inferInstanceAs (Decidable True)

/-- The map is right about addresses, and so are the slices of the loop and of the goroutines
and all that has been written. -/
structure Sound (w : WireGuard α) : Prop where
  clients : ∀ a k, w.clients a = some k → w.addrOf k = some a
  right : w.socket.Right sendToStream (w.loopSlice ++ w.pending) w.written

/-! ### Steps of goroutines -/

/-- What a goroutine leaves alone when it does not write. -/
structure Quiet (w w' : WireGuard α) : Prop where
  socket : w'.socket = w.socket
  loop : w'.loop = w.loop
  written : w'.written = w.written
  addr : ∀ k, w'.addrOf k = w.addrOf k
  clients : ∀ a k, w'.clients a = some k → w.clients a = some k
  pending : w'.pending ⊆ w.pending

/-- Clients keep their addresses. -/
theorem addrOf_modify (w : WireGuard α) {f : Client α → Client α}
    (hf : ∀ c, (f c).addr = c.addr) (i k : ℕ) :
    addrOf { w with made := w.made.modify i f } k = w.addrOf k := by
  unfold addrOf
  dsimp only
  rw [List.getElem?_modify]
  split_ifs
  · cases w.made[k]? with
    | none => rfl
    | some c => exact congrArg some (hf c)
  · cases w.made[k]? <;> rfl

/-- A goroutine that goes on has no more to copy than before. -/
theorem pending_modify {made : List (Client α)} {k : ℕ} {f : Client α → Client α}
    (hf : ∀ c, made[k]? = some c → ∀ p ∈ (f c).slice, p ∈ c.slice) :
    (made.modify k f).filterMap Client.slice ⊆ made.filterMap Client.slice := by
  intro p hp
  obtain ⟨c', hc', hp⟩ := List.mem_filterMap.1 hp
  obtain ⟨i, hi⟩ := List.mem_iff_getElem?.1 hc'
  rw [List.getElem?_modify] at hi
  obtain ⟨c, hc, rfl⟩ := Option.map_eq_some_iff.1 hi
  refine List.mem_filterMap.2 ⟨c, List.mem_of_getElem? hc, ?_⟩
  split_ifs at hp with hik
  · subst hik
    exact hf c hc p hp
  · exact hp

namespace Quiet

variable {w w' w'' : WireGuard α}

theorem refl (w : WireGuard α) : Quiet w w :=
  ⟨rfl, rfl, rfl, fun _ => rfl, fun _ _ => id, List.Subset.refl _⟩

theorem trans (h : Quiet w w') (h' : Quiet w' w'') : Quiet w w'' where
  socket := h'.socket.trans h.socket
  loop := h'.loop.trans h.loop
  written := h'.written.trans h.written
  addr := fun k => (h'.addr k).trans (h.addr k)
  clients := fun a k hk => h.clients a k (h'.clients a k hk)
  pending := List.Subset.trans h'.pending h.pending

/-- A goroutine that goes on, from a phase before the first packet if to one. -/
theorem goOn {c : Client α} {k : ℕ} (hc : w.made[k]? = some c) {phase : Phase}
    (hphase : phase.waits = false ∨ c.phase.waits = true) : Quiet w (w.goOn k phase) := by
  refine ⟨rfl, rfl, rfl, ?_, fun _ _ => id, pending_modify fun c' hc' p hp => ?_⟩
  · apply addrOf_modify
    exact fun _ => rfl
  obtain rfl : c = c' := Option.some.inj (hc.symm.trans hc')
  unfold Client.slice at hp ⊢
  rcases hphase with hno | hyes
  · rw [if_neg (by simp [hno])] at hp
    cases hp
  · rw [if_pos hyes]
    split_ifs at hp
    · exact hp
    · cases hp

theorem store (w : WireGuard α) (k : ℕ) : Quiet w (w.store k) := by
  refine ⟨rfl, rfl, rfl, ?_, fun _ _ => id, pending_modify fun _ _ _ => id⟩
  apply addrOf_modify
  exact fun _ => rfl

theorem delete [DecidableEq α] (w : WireGuard α) (addr : α) : Quiet w (w.delete addr) := by
  refine ⟨rfl, rfl, rfl, fun _ => rfl, fun a k hk => ?_, List.Subset.refl _⟩
  have hupdate : Function.update w.clients addr none a = some k := hk
  by_cases ha : a = addr
  · rw [ha, Function.update_self] at hupdate
    cases hupdate
  · rwa [Function.update_of_ne ha] at hupdate

/-- The loop holds the same slice. -/
theorem loopSlice (h : Quiet w w') : w'.loopSlice = w.loopSlice := by
  simp only [WireGuard.loopSlice, h.loop, h.addr]

theorem sound (h : Quiet w w') (hw : Sound w) : Sound w' where
  clients := fun a k hk => (h.addr k).trans (hw.clients a k (h.clients a k hk))
  right := by
    rw [h.socket, h.written, h.loopSlice]
    exact hw.right.fewer h.pending

end Quiet

/-- A new client is at the end. -/
theorem addrOf_append (w : WireGuard α) (c : Client α) {k : ℕ} {a : α} :
    (w.made ++ [c])[k]?.map (·.addr) = some a ↔
      w.addrOf k = some a ∨ (k = w.made.length ∧ c.addr = a) := by
  rw [addrOf, ← List.getElem?_map, ← List.getElem?_map, List.map_append, List.map_singleton,
    getElem?_append_singleton_iff, List.length_map]

/-- A step of a goroutine is taken in its phase, or not at all. -/
theorem resume_cases (w : WireGuard α) (k : ℕ) (phase : Phase) (next : Client α → WireGuard α) :
    (∃ c, w.made[k]? = some c ∧ c.phase = phase ∧ w.resume k phase next = next c) ∨
      w.resume k phase next = w := by
  unfold resume
  split
  next c hc =>
    split_ifs with hphase
    · exact .inl ⟨c, hc, hphase, rfl⟩
    · exact .inr rfl
  next => exact .inr rfl

theorem Quiet.resume {w : WireGuard α} {next : Client α → WireGuard α} {k : ℕ} {phase : Phase}
    (h : ∀ c, w.made[k]? = some c → c.phase = phase → Quiet w (next c)) :
    Quiet w (w.resume k phase next) := by
  rcases resume_cases w k phase next with ⟨c, hc, hphase, hstep⟩ | hstep
  · rw [hstep]
    exact h c hc hphase
  · rw [hstep]
    exact .refl w

/-- The steps in which neither the loop nor the first packet has a part. -/
def Event.Silent : Event α → Prop
  | .getStream .. | .writeDestHeader .. | .storeStream .. | .tunnelEnds .. | .cleanup .. => True
  | .receive .. | .loadOrStore | .forwardToTunnel | .sendFirst .. => False

variable [DecidableEq α] (remote : Bytes)

theorem quiet_step (w : WireGuard α) {e : Event α} (he : e.Silent) : Quiet w (step remote w e) := by
  have hend : ∀ k (c : Client α), w.made[k]? = some c →
      Quiet w ((w.goOn k .finished).delete c.addr) :=
    fun k c hc => (Quiet.goOn hc (.inl rfl)).trans (.delete _ c.addr)
  cases e with
  | getStream k ok =>
    refine Quiet.resume fun c hc hphase => ?_
    split_ifs
    · exact .goOn hc (.inr (congrArg Phase.waits hphase))
    · exact hend k c hc
  | writeDestHeader k ok =>
    refine Quiet.resume fun c hc hphase => ?_
    split
    · exact .goOn hc (.inr (congrArg Phase.waits hphase))
    · exact hend k c hc
  | storeStream k =>
    exact Quiet.resume fun c hc _ => (Quiet.goOn hc (.inl rfl)).trans (.store _ k)
  | tunnelEnds k => exact Quiet.resume fun c hc _ => hend k c hc
  | cleanup client => exact .delete w client
  | receive | loadOrStore | forwardToTunnel | sendFirst => cases he

/-! ### Steps of the loop -/

/-- **One step of the WireGuard forwarder.** -/
theorem sound_step (w : WireGuard α) (e : Event α) (h : Sound w) (hok : Undisturbed w e) :
    Sound (step remote w e) := by
  cases e with
  | receive sender d =>
    simp only [step]
    split
    next hloop =>
      have hright : w.socket.Right sendToStream w.pending w.written :=
        h.right.subset (List.subset_append_right _ _)
      exact ⟨h.clients, hright.receive (hok hloop)⟩
    next => exact h
  | loadOrStore =>
    simp only [step]
    split
    next client n hloop =>
      have hright := h.right
      simp only [loopSlice, hloop] at hright
      split
      next k hk =>
        refine ⟨h.clients, ?_⟩
        have haddr : w.addrOf k = some client := h.clients client k hk
        have hslice : loopSlice { w with loop := .forwarding k n } = [(client, n)] :=
          congrArg (fun a => a.toList.map (·, n)) haddr
        rwa [hslice]
      next =>
        refine ⟨fun a k hk => (addrOf_append w _).2 ?_, hright.subset ?_⟩
        · dsimp only at hk
          by_cases ha : a = client
          · rw [ha, Function.update_self] at hk
            exact .inr ⟨(Option.some.inj hk).symm, ha.symm⟩
          · rw [Function.update_of_ne ha] at hk
            exact .inl (h.clients a k hk)
        · simp only [loopSlice, pending, List.filterMap_append]
          intro p hp
          simpa [Client.slice, Phase.waits, or_comm] using hp
    next => exact h
  | forwardToTunnel =>
    -- the loop has not gone on to receive, so its own slice is still what it received
    have hdone : w.pending ⊆ w.loopSlice ++ w.pending := List.subset_append_right _ _
    simp only [step]
    split
    next k n hloop =>
      split
      next c hc =>
        split_ifs
        · have hslice : (c.addr, n) ∈ w.loopSlice ++ w.pending :=
            List.mem_append_left _ (by simp [loopSlice, hloop, addrOf, hc])
          exact ⟨h.clients, (h.right.copy hslice).subset hdone⟩
        · exact ⟨h.clients, h.right.subset hdone⟩
      next => exact ⟨h.clients, h.right.subset hdone⟩
    next => exact h
  | sendFirst k =>
    rcases resume_cases w k .headed _ with ⟨c, hc, hphase, hstep⟩ | hstep
    · have hquiet : Quiet w (w.goOn k .sent) := .goOn hc (.inl rfl)
      have hslice : (c.addr, c.firstPacket) ∈ w.loopSlice ++ w.pending := by
        refine List.mem_append_right _ (List.mem_filterMap.2 ⟨c, List.mem_of_getElem? hc, ?_⟩)
        rw [Client.slice, hphase]
        rfl
      rw [step, hstep]
      have hright := (h.right.copy hslice).fewer hquiet.pending
      rw [← hquiet.loopSlice] at hright
      exact ⟨(hquiet.sound h).clients, hright⟩
    · rwa [step, hstep]
  | _ =>
    refine (quiet_step remote w ?_).sound h
    trivial

/-- **Runs of the WireGuard forwarder.** -/
theorem always_forwarded {es : List (Event α)}
    (hes : EachStep (step remote) Undisturbed start es) :
    Always (step remote) Forwarded start es := by
  have hstart : Sound (start : WireGuard α) := ⟨nofun, Socket.Right.nil⟩
  have hsound : Always (step remote) Sound start es :=
    .of_eachStep (sound_step remote) hstart hes
  exact hsound.mono fun _ h => h.right.written

end WireGuard

/-! ## Both -/

/-- **What is written for a client is always a datagram of that client**, in every order of steps
in which each datagram that is received spares the slices that goroutines have yet to copy.  When
there are none, it may be any datagram. -/
theorem forwarded_of_undisturbed [DecidableEq α] (remote : Bytes) :
    (∀ es : List (Udp.Event α), EachStep (Udp.step remote) Udp.Undisturbed Udp.start es →
      Always (Udp.step remote) (Udp.Forwarded remote) Udp.start es) ∧
    ∀ es : List (WireGuard.Event α),
      EachStep (WireGuard.step remote) WireGuard.Undisturbed WireGuard.start es →
        Always (WireGuard.step remote) WireGuard.Forwarded WireGuard.start es :=
  ⟨fun _ => Udp.always_forwarded remote, fun _ => WireGuard.always_forwarded remote⟩

/-- A client sends two datagrams of a byte before the goroutine of the first has copied its slice,
and another client sends after that. -/
theorem forwarded_of_undisturbed_sameClient :
    Always (Udp.step [1]) (Udp.Forwarded [1]) (Udp.start : Udp ℕ)
      [.receive 0 ⟨[10], by decide⟩, .spawn, .receive 0 ⟨[20], by decide⟩, .spawn,
        .getStream 0 true, .getStream 1 true, .send 0, .send 1, .receive 1 ⟨[30], by decide⟩] ∧
    Always (WireGuard.step [1]) WireGuard.Forwarded (WireGuard.start : WireGuard ℕ)
      [.receive 0 ⟨[10], by decide⟩, .loadOrStore, .receive 0 ⟨[20], by decide⟩, .loadOrStore,
        .forwardToTunnel, .getStream 0 true, .writeDestHeader 0 true, .sendFirst 0,
        .receive 1 ⟨[30], by decide⟩] := by
  refine ⟨(forwarded_of_undisturbed [1]).1 _ ?_, (forwarded_of_undisturbed [1]).2 _ ?_⟩
  · decide
  · decide

/-- Two clients send a byte each.  Both datagrams have been received before the goroutine of the
first one sends: what it sends for the client 0 is what the client 1 has sent. -/
theorem forwarded_to_wrong_client :
    (let u := run (Udp.step [1]) Udp.start
      [.receive 0 ⟨[10], by decide⟩, .spawn, .getStream 0 true, .receive 1 ⟨[20], by decide⟩,
        .send 0]
    u.written = [((0 : ℕ), forwardPacket [1] [20])] ∧ ¬ Udp.Forwarded [1] u) ∧
    let w := run (WireGuard.step [1]) WireGuard.start
      [.receive 0 ⟨[10], by decide⟩, .loadOrStore, .getStream 0 true, .writeDestHeader 0 true,
        .receive 1 ⟨[20], by decide⟩, .sendFirst 0]
    w.written = [((0 : ℕ), WireGuard.sendToStream [20])] ∧ ¬ WireGuard.Forwarded w := by
  refine ⟨⟨rfl, ?_⟩, rfl, ?_⟩
  · rw [Udp.Forwarded]
    decide
  · rw [WireGuard.Forwarded]
    decide

end UdpForward
