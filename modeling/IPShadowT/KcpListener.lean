/-
# The sessions of a KCP listener

The sessions of a `KCPListener` have one UDP socket, and one table in which `acceptLoop` looks up
the session of a datagram.  A datagram from an address that is not in the table makes a session
and offers it to the channel `connCh`, which has room for 256; only then is the datagram
decrypted.

The first part follows the table and the channel over a run of `acceptLoop` and `Accept`
(`always_announced_iff`).  The second is about `KCPConn.Close`, which closes the socket
(`isolated_iff`).
-/
import IPShadowT.Kcp
import IPShadowT.Runs

open Bytes Runs

namespace Kcp

variable {α : Type} [DecidableEq α]

/-! ## The table and the channel -/

/-- A listener as `Listen` makes it. -/
def listen (s : Settings) : Listener α := ⟨s, fun _ => none, []⟩

/-- A listener and its history: all sessions that were put in `connCh`, and the datagrams that
made a session. -/
structure Intake (α : Type) where
  listener : Listener α
  announced : List α
  creators : List Bytes

/-- A round of `acceptLoop` with a datagram, and a call of `Accept`. -/
inductive IntakeEvent (α : Type) where
  | datagram (addr : α) (d : Bytes)
  | accept
  deriving DecidableEq, Repr

/-- What happens to the listener.  `Accept` waits while `connCh` is empty. -/
def Listener.next (x : Crypto) (l : Listener α) : IntakeEvent α → Listener α
  | .datagram addr d => acceptRound x l addr d
  | .accept => { l with connCh := l.connCh.tail }

/-- A step, and what can be seen of it: a datagram makes a session if its address had none and
has one now, and puts in `connCh` what is behind the elements that were there. -/
def Intake.step (x : Crypto) (s : Intake α) (e : IntakeEvent α) : Intake α :=
  let l := s.listener.next x e
  match e with
  | .datagram addr d =>
    { listener := l
      announced := s.announced ++ l.connCh.drop s.listener.connCh.length
      creators := if (s.listener.sessions addr).isNone ∧ (l.sessions addr).isSome then
        d :: s.creators else s.creators }
  | .accept => { s with listener := l }

/-- The state of `Listen`. -/
def Intake.start (s : Settings) : Intake α := ⟨listen s, [], []⟩

/-- The datagram passes `decryptPacket`. -/
def Listener.Authentic (x : Crypto) (l : Listener α) (d : Bytes) : Prop :=
  (decryptPacket x l.settings (d.take bufSize)).isSome

instance (x : Crypto) (l : Listener α) (d : Bytes) : Decidable (l.Authentic x d) :=
  inferInstanceAs (Decidable (_ = true))

/-- Every session of the table was put in `connCh` once, and no session was made by a datagram
that fails decryption. -/
def Intake.Announced (x : Crypto) (s : Intake α) : Prop :=
  (∀ addr, (s.listener.sessions addr).isSome → s.announced.count addr = 1) ∧
    ∀ d ∈ s.creators, s.listener.Authentic x d

/-- A datagram from a new address finds room in `connCh` and passes decryption. -/
def Intake.Welcome (x : Crypto) (s : Intake α) : IntakeEvent α → Prop
  | .datagram addr d =>
    s.listener.sessions addr = none → s.listener.connCh.length < 256 ∧ s.listener.Authentic x d
  | .accept => True

instance (x : Crypto) (s : Intake α) (e : IntakeEvent α) : Decidable (s.Welcome x e) := by
  cases e <;> unfold Intake.Welcome <;> infer_instance

/-- What was put in `connCh` is in the table. -/
def Intake.Recorded (s : Intake α) : Prop :=
  ∀ addr ∈ s.announced, (s.listener.sessions addr).isSome

section Intake

variable {x : Crypto} {s : Intake α}

/-- The elements that a round adds to `connCh`. -/
theorem acceptRound_announced (l : Listener α) (addr : α) (d : Bytes) :
    (acceptRound x l addr d).connCh.drop l.connCh.length =
      if l.sessions addr = none ∧ l.connCh.length < 256 then [addr] else [] := by
  rw [acceptRound]
  dsimp only
  simp only [Option.isNone_iff_eq_none]
  split_ifs
  · exact List.drop_left
  · exact List.drop_length

/-- After a round, the table has the address of the datagram besides what it had. -/
theorem acceptRound_isSome (l : Listener α) (addr b : α) (d : Bytes) :
    ((acceptRound x l addr d).sessions b).isSome ↔ b = addr ∨ (l.sessions b).isSome := by
  rw [acceptRound]
  dsimp only
  by_cases hb : b = addr
  · subst hb
    simp
  · rw [Function.update_of_ne hb]
    simp [hb]

/-- A datagram for a session of the table. -/
theorem Intake.step_known {addr : α} {d : Bytes} {c : Conn}
    (hc : s.listener.sessions addr = some c) :
    s.step x (.datagram addr d) = { s with listener := acceptRound x s.listener addr d } := by
  simp only [Intake.step, Listener.next, acceptRound_announced, hc, reduceCtorEq, false_and,
    if_false, List.append_nil, Option.isNone_some, Bool.false_eq_true]

/-- A datagram from a new address. -/
theorem Intake.step_new {addr : α} {d : Bytes} (hnew : s.listener.sessions addr = none) :
    s.step x (.datagram addr d) =
      ⟨acceptRound x s.listener addr d,
        s.announced ++ if s.listener.connCh.length < 256 then [addr] else [], d :: s.creators⟩ := by
  have hsome : ((acceptRound x s.listener addr d).sessions addr).isSome :=
    (acceptRound_isSome ..).2 (.inl rfl)
  simp only [Intake.step, Listener.next, acceptRound_announced, hnew, true_and, hsome,
    Option.isNone_none, and_self, if_true]

theorem Intake.recorded_step (e : IntakeEvent α) (hs : s.Recorded) : (s.step x e).Recorded := by
  cases e with
  | accept => exact hs
  | datagram addr d =>
    intro b hb
    have hlistener : (s.step x (.datagram addr d)).listener = acceptRound x s.listener addr d :=
      rfl
    rw [hlistener, acceptRound_isSome]
    cases hc : s.listener.sessions addr with
    | some c =>
      rw [Intake.step_known hc] at hb
      exact .inr (hs b hb)
    | none =>
      rw [Intake.step_new hc] at hb
      rcases List.mem_append.1 hb with hold | hadded
      · exact .inr (hs b hold)
      · split_ifs at hadded
        · exact .inl (List.mem_singleton.1 hadded)
        · cases hadded

/-- The step from a new address: it was not announced before, so it is now announced once if
there was room and never if there was none. -/
theorem Intake.announced_step_new (hrec : s.Recorded) (hs : s.Announced x) {addr : α} {d : Bytes}
    (hnew : s.listener.sessions addr = none) :
    (s.step x (.datagram addr d)).Announced x ↔
      s.listener.connCh.length < 256 ∧ s.listener.Authentic x d := by
  have hcount : s.announced.count addr = 0 := by
    refine List.count_eq_zero.2 fun hmem => ?_
    have := hrec addr hmem
    rw [hnew] at this
    cases this
  rw [Intake.step_new hnew]
  constructor
  · rintro ⟨honce, hauth⟩
    refine ⟨?_, hauth d List.mem_cons_self⟩
    have := honce addr ((acceptRound_isSome ..).2 (.inl rfl))
    by_contra hfull
    rw [List.count_append, hcount, if_neg hfull] at this
    cases this
  · rintro ⟨hroom, hauth⟩
    refine ⟨fun b hb => ?_, fun d' hd' => ?_⟩
    · dsimp only
      rw [if_pos hroom, List.count_append]
      rcases (acceptRound_isSome ..).1 hb with rfl | hb
      · rw [hcount, List.count_singleton_self]
      · have hne : addr ≠ b := by
          rintro rfl
          rw [hnew] at hb
          cases hb
        rw [hs.1 b hb, List.count_singleton, if_neg (by simpa using hne)]
    · rcases List.mem_cons.1 hd' with rfl | hd'
      · exact hauth
      · exact hs.2 d' hd'

theorem Intake.announced_step_iff (e : IntakeEvent α) (hrec : s.Recorded) (hs : s.Announced x) :
    (s.step x e).Announced x ↔ s.Welcome x e := by
  cases e with
  | accept => exact iff_of_true hs trivial
  | datagram addr d =>
    rw [Intake.Welcome]
    cases hc : s.listener.sessions addr with
    | none =>
      rw [Intake.announced_step_new hrec hs hc]
      exact ⟨fun h _ => h, fun h => h rfl⟩
    | some c =>
      rw [Intake.step_known hc]
      refine iff_of_true ⟨fun b hb => hs.1 b ?_, hs.2⟩ nofun
      rcases (acceptRound_isSome ..).1 hb with rfl | hb
      · rw [hc]
        rfl
      · exact hb

end Intake

/-- **The table and the channel agree** over a run of `acceptLoop` and `Accept`, and only
authentic datagrams make sessions, exactly if each datagram from a new address is authentic and
comes while `connCh` has room. -/
theorem always_announced_iff (x : Crypto) (settings : Settings) (es : List (IntakeEvent α)) :
    Always (Intake.step x) (Intake.Announced x) (Intake.start settings) es ↔
      EachStep (Intake.step x) (Intake.Welcome x) (Intake.start settings) es := by
  refine always_iff_eachStep_of_invariant (J := Intake.Recorded)
    (fun s e => Intake.recorded_step e) (fun s e => Intake.announced_step_iff e) ?_ ?_ es
  · intro addr hmem
    cases hmem
  · constructor
    · intro addr hsome
      cases hsome
    · intro d hmem
      cases hmem

/-- A stranger's datagram fails decryption, and the stranger has a session. -/
theorem stranger_gets_session :
    let s := newKCP sampleCrypto [112, 119]
    ¬ Always (Intake.step sampleCrypto) (Intake.Announced sampleCrypto) (Intake.start s)
      [.datagram 7 [1, 2, 3]] := by
  intro s h
  have hauth : (listen s : Listener ℕ).Authentic sampleCrypto [1, 2, 3] :=
    h.last.2 [1, 2, 3] (by decide)
  exact absurd hauth (by decide)

/-! ## Closing a session -/

/-- A listener with its socket; `done` says whether `KCPListener.Close` was called. -/
structure Shared (α : Type) where
  listener : Listener α
  done : Bool
  socketOpen : Bool
  closes_socket : done = true → socketOpen = false

/-- The same socket with another state of the table and the channel. -/
def Shared.withListener (h : Shared α) (l : Listener α) : Shared α := { h with listener := l }

/-- What a call of `Read` comes to. -/
inductive ReadResult where
  | returned (data : Bytes)
  | closed
  | waits
  deriving DecidableEq, Repr

/-- The message of the error. -/
def ReadResult.message : ReadResult → Option String
  | closed => some "connection closed"
  | _ => none

/-- `KCPConn.Read` with a buffer of `n` bytes.  If a packet is there and the connection is
closed, `pickDone` says which case of the `select` is taken. -/
def Conn.readOrDone (c : Conn) (n : ℕ) (pickDone : Bool) : ReadResult × Conn :=
  match read c n with
  | some (data, c') => if c.closed ∧ pickDone then (.closed, c) else (.returned data, c')
  | none => (if c.closed then .closed else .waits, c)

/-- What a call of `Accept` comes to. -/
inductive AcceptResult (α : Type) where
  | session (addr : α)
  | closed
  | waits
  deriving DecidableEq, Repr

/-- The message of the error. -/
def AcceptResult.message : AcceptResult α → Option String
  | closed => some "listener closed"
  | _ => none

/-- `KCPListener.Accept`; `pickDone` is as for `Read`. -/
def Shared.accept (h : Shared α) (pickDone : Bool) : AcceptResult α × Shared α :=
  match h.listener.connCh with
  | addr :: rest =>
    if h.done ∧ pickDone then (.closed, h)
    else (.session addr, h.withListener { h.listener with connCh := rest })
  | [] => (if h.done then .closed else .waits, h)

/-- The listener with another state of the session of `addr`. -/
def Shared.setSession (h : Shared α) (addr : α) (c : Conn) : Shared α :=
  h.withListener
    { h.listener with sessions := Function.update h.listener.sessions addr (some c) }

/-- `KCPConn.Close` of the session of `addr`: it closes the socket too. -/
def Shared.close (h : Shared α) (addr : α) : Shared α :=
  match h.listener.sessions addr with
  | none => h
  | some c =>
    { h.setSession addr { c with closed := true } with
      socketOpen := false
      closes_socket := fun _ => rfl }

/-- The users of a listener: a peer that sends a datagram, a call of `Accept`, and calls of
`Read` and `Write` on the session of an address. -/
inductive Use (α : Type) where
  | datagram (addr : α) (d : Bytes)
  | accept (pickDone : Bool)
  | read (addr : α) (n : ℕ) (pickDone : Bool)
  | write (addr : α) (p : Bytes) (env : ℕ → Stamp × Bool)

/-- What a user sees. -/
inductive Seen (α : Type) where
  | datagram (received : Bool)
  | accept (r : AcceptResult α)
  | read (r : ReadResult)
  | write (r : Outcome) (sent : List Bytes)
  | noSession
  deriving DecidableEq, Repr

/-- One use of the listener.  A socket that is closed gives `acceptLoop` no datagram and takes
none from `Write`; `acceptLoop` ends when the listener is closed. -/
def Shared.use (x : Crypto) (h : Shared α) : Use α → Seen α × Shared α
  | .datagram addr d =>
    -- after an error `acceptLoop` reads again, and a closed socket gives an error each time
    if h.socketOpen ∧ ¬ h.done then
      (.datagram true, h.withListener (acceptRound x h.listener addr d))
    else (.datagram false, h)
  | .accept pickDone =>
    let (r, h) := h.accept pickDone
    (.accept r, h)
  | .read addr n pickDone =>
    match h.listener.sessions addr with
    | none => (.noSession, h)
    | some c =>
      let (r, c) := c.readOrDone n pickDone
      (.read r, h.setSession addr c)
  | .write addr p env =>
    match h.listener.sessions addr with
    | none => (.noSession, h)
    | some c =>
      -- the socket takes no packet after it is closed
      let (r, c, sent) := write x c p fun i => ((env i).1, (env i).2 && h.socketOpen)
      (.write r sent, h.setSession addr c)

/-- What the users see, one after the other. -/
def Shared.seen (x : Crypto) : Shared α → List (Use α) → List (Seen α)
  | _, [] => []
  | h, u :: us => (h.use x u).1 :: Shared.seen x (h.use x u).2 us

/-- The use is not a call of `Read` or `Write` on the session of `addr`. -/
def Use.Avoids (addr : α) : Use α → Prop
  | .read b .. => b ≠ addr
  | .write b .. => b ≠ addr
  | _ => True

/-- No use of the listener and of the other sessions tells whether the session of `addr` has
been closed. -/
def Shared.Isolated (x : Crypto) (h : Shared α) (addr : α) : Prop :=
  ∀ us : List (Use α), (∀ u ∈ us, u.Avoids addr) → (h.close addr).seen x us = h.seen x us

/-- Two states with a closed socket that differ in the session of `addr` at most. -/
structure Shared.AgreeBut (addr : α) (h h' : Shared α) : Prop where
  socket : h.socketOpen = false
  socket_eq : h'.socketOpen = false
  done_eq : h'.done = h.done
  connCh_eq : h'.listener.connCh = h.listener.connCh
  sessions_eq : ∀ b, b ≠ addr → h'.listener.sessions b = h.listener.sessions b

section Isolation

variable {x : Crypto} {h h' : Shared α} {addr : α}

/-- The same change of another session keeps the agreement. -/
theorem Shared.AgreeBut.setSession (hagree : h.AgreeBut addr h') (b : α) (c : Conn) :
    (h.setSession b c).AgreeBut addr (h'.setSession b c) := by
  refine ⟨hagree.socket, hagree.socket_eq, hagree.done_eq, hagree.connCh_eq, fun b' hb' => ?_⟩
  show Function.update h'.listener.sessions b (some c) b' =
    Function.update h.listener.sessions b (some c) b'
  rw [Function.update_apply, Function.update_apply, hagree.sessions_eq b' hb']

omit [DecidableEq α] in
theorem Shared.AgreeBut.accept (hagree : h.AgreeBut addr h') (pickDone : Bool) :
    (h'.accept pickDone).1 = (h.accept pickDone).1 ∧
      (h.accept pickDone).2.AgreeBut addr (h'.accept pickDone).2 := by
  unfold Shared.accept
  rw [hagree.connCh_eq, hagree.done_eq]
  cases h.listener.connCh with
  | nil => exact ⟨rfl, hagree⟩
  | cons b rest =>
    dsimp only
    split_ifs
    · exact ⟨rfl, hagree⟩
    · exact ⟨rfl, hagree.socket, hagree.socket_eq, hagree.done_eq, rfl, hagree.sessions_eq⟩

/-- **A use sees the same in both states, and they still agree.** -/
theorem Shared.AgreeBut.use (hagree : h.AgreeBut addr h') {u : Use α} (hu : u.Avoids addr) :
    (h'.use x u).1 = (h.use x u).1 ∧ (h.use x u).2.AgreeBut addr (h'.use x u).2 := by
  cases u with
  | datagram b d =>
    simp only [Shared.use, hagree.socket, hagree.socket_eq, Bool.false_eq_true, false_and,
      if_false, true_and]
    exact hagree
  | accept pickDone =>
    obtain ⟨hseen, hnext⟩ := hagree.accept pickDone
    exact ⟨congrArg Seen.accept hseen, hnext⟩
  | read b n pickDone =>
    simp only [Shared.use, hagree.sessions_eq b hu]
    cases h.listener.sessions b with
    | none => exact ⟨rfl, hagree⟩
    | some c => exact ⟨rfl, hagree.setSession b _⟩
  | write b p env =>
    simp only [Shared.use, hagree.sessions_eq b hu, hagree.socket, hagree.socket_eq]
    cases h.listener.sessions b with
    | none => exact ⟨rfl, hagree⟩
    | some c => exact ⟨rfl, hagree.setSession b _⟩

theorem Shared.AgreeBut.seen (hagree : h.AgreeBut addr h') {us : List (Use α)}
    (hus : ∀ u ∈ us, u.Avoids addr) : h'.seen x us = h.seen x us := by
  induction us generalizing h h' with
  | nil => rfl
  | cons u us ih =>
    obtain ⟨hseen, hnext⟩ := hagree.use (x := x) (hus u List.mem_cons_self)
    rw [Shared.seen, Shared.seen, hseen, ih hnext fun v hv => hus v (List.mem_cons_of_mem u hv)]

/-- With a closed socket, `Close` changes nothing but the session. -/
theorem Shared.agreeBut_close (hsocket : h.socketOpen = false) :
    h.AgreeBut addr (h.close addr) := by
  unfold Shared.close
  cases h.listener.sessions addr with
  | none => exact ⟨hsocket, hsocket, rfl, rfl, fun _ _ => rfl⟩
  | some c =>
    exact ⟨hsocket, rfl, rfl, rfl, fun b hb => Function.update_of_ne hb _ _⟩

/-- **Closing a session is noticed by nobody else** exactly if the socket of the listener was
closed already. -/
theorem isolated_iff {c : Conn} (hc : h.listener.sessions addr = some c) :
    h.Isolated x addr ↔ h.socketOpen = false := by
  constructor
  · intro hisolated
    by_contra hopen
    rw [Bool.not_eq_false] at hopen
    have hdone : h.done = false := by
      by_contra hdone
      rw [h.closes_socket (Bool.not_eq_false _ ▸ hdone)] at hopen
      cases hopen
    -- the next datagram, from anyone, tells the difference
    have hsame := hisolated [.datagram addr []] (by simp [Use.Avoids])
    simp [Shared.seen, Shared.use, Shared.close, hc, hopen, hdone] at hsame
  · intro hsocket us hus
    exact (Shared.agreeBut_close hsocket).seen hus

end Isolation

/-- A listener that two peers have sent a datagram to. -/
def twoPeers : Shared ℕ :=
  let s := newKCP sampleCrypto [112, 119]
  let d := datagram sampleCrypto (newConn s) kcpCmdPush [104, 105] ⟨0, 0⟩
  ⟨acceptRound sampleCrypto (acceptRound sampleCrypto (listen s) 1 d) 2 d, false, true,
    fun hdone => absurd hdone Bool.false_ne_true⟩

/-- The second session to be closed does no more harm. -/
theorem isolated_second_close :
    ∃ c, (twoPeers.close 1).listener.sessions 2 = some c ∧
      (twoPeers.close 1).Isolated sampleCrypto 2 :=
  ⟨_, rfl, (isolated_iff rfl).2 rfl⟩

/-- After the session of the first peer is closed, the third is not heard. -/
theorem close_stops_listener :
    ¬ twoPeers.Isolated sampleCrypto 1 ∧
      (twoPeers.use sampleCrypto (.datagram 3 [])).1 = .datagram true ∧
      ((twoPeers.close 1).use sampleCrypto (.datagram 3 [])).1 = .datagram false := by
  refine ⟨fun hisolated => ?_, by decide, by decide⟩
  have hsame := hisolated [.datagram 3 []] (by simp [Use.Avoids])
  exact absurd hsame (by decide)

end Kcp
