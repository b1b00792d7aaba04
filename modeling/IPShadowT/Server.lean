/-
# `Server.handleConnection`

Model of `handleConnection` in `internal/server/server.go`, in the two parts that
the handshake separates: `checkAddr` is the check before it, `afterHandshake` all
that follows.  Connections are handled by one goroutine each, so a run
interleaves the two parts of many connections; the outcome of a handshake and of
the plugin filters are inputs.

* `never_blocked`: failed handshakes never block an address.  They are filed under
  the peer's address with its port, and looked up without it.
* `flowsAgree_applyDefaults_iff`: for which settings the two ends of a tunnel agree on
  whether a connection is one flow or a mux session.
-/
import IPShadowT.Config
import IPShadowT.Runs
import IPShadowT.Security

open HostPort Runs Security

namespace Server

/-! ## One connection -/

/-- How a connection ends up. -/
inductive Served where
  | rejected
  | handshakeFailed (blocked : Bool)
  | filtered
  | direct
  | muxSession
  deriving DecidableEq, Repr

/-- `handleConnection` up to the handshake: the address lists. -/
def checkAddr (m : Manager) (remoteAddr : Bytes) (now : Int) : Bool × Manager :=
  if m.isAllowed remoteAddr then (true, m)
  else (false, m.audit ⟨now, "connection_rejected", remoteAddr, "", "IP blacklisted", false⟩)

/-- `handleConnection` from the handshake on. -/
def afterHandshake (cfg : Config) (m : Manager) (remoteAddr : Bytes) (now : Int)
    (handshake filters : Bool) : Served × Manager :=
  if handshake then
    let m₁ := (m.resetFailedLogins remoteAddr).audit
      ⟨now, "connection_accepted", remoteAddr, "", "Handshake OK", true⟩
    if ¬ filters then (.filtered, m₁)
    else if ¬ cfg.mux.enabled then (.direct, m₁)
    else (.muxSession, m₁)
  else
    let (blocked, m₁) := m.recordFailedLogin now remoteAddr
    (.handshakeFailed blocked, m₁)

/-- `handleConnection` without another connection in between. -/
def handleConnection (cfg : Config) (m : Manager) (remoteAddr : Bytes) (now : Int)
    (handshake filters : Bool) : Served × Manager :=
  let (ok, m₁) := checkAddr m remoteAddr now
  if ok then afterHandshake cfg m₁ remoteAddr now handshake filters else (.rejected, m₁)

/-! ## Runs -/

/-- The server between two steps of its goroutines. -/
structure State where
  security : Manager
  /-- admitted, handshake not finished -/
  inFlight : List Peer
  /-- the handshakes that have finished, in order, and whether they succeeded -/
  handshakes : List (Peer × Bool)

/-- A step of some goroutine. -/
inductive Event where
  | arrive (peer : Peer) (now : Int)
  | handshake (peer : Peer) (ok filters : Bool) (now : Int)

/-- A handshake can only finish on a connection that is in flight. -/
def step (cfg : Config) (s : State) : Event → State
  | .arrive peer now =>
    let (ok, m) := checkAddr s.security peer.addr now
    { s with
      security := m
      inFlight := if ok then peer :: s.inFlight else s.inFlight }
  | .handshake peer ok filters now =>
    if peer ∈ s.inFlight then
      { security := (afterHandshake cfg s.security peer.addr now ok filters).2
        inFlight := s.inFlight.erase peer
        handshakes := s.handshakes ++ [(peer, ok)] }
    else s

/-- A server that has seen no connection yet. -/
def State.init (m : Manager) : State := ⟨m, [], []⟩

/-- The two steps of a connection, one right after the other, are `handleConnection`. -/
theorem run_handleConnection (cfg : Config) (s : State) (peer : Peer) (now : Int)
    (ok filters : Bool) (hpeer : peer ∉ s.inFlight) :
    (run (step cfg) s [.arrive peer now, .handshake peer ok filters now]).security
      = (handleConnection cfg s.security peer.addr now ok filters).2 := by
  by_cases hallowed : s.security.isAllowed peer.addr = true
  · simp [run, step, handleConnection, checkAddr, hallowed]
  · simp [run, step, handleConnection, checkAddr, hallowed, hpeer]

/-- Five handshakes from `ip` have failed with no successful one in between. -/
def FiveFailures (handshakes : List (Peer × Bool)) (ip : IPText) : Prop :=
  List.replicate 5 false <:+: (handshakes.filter (·.1.ip = ip)).map (·.2)

/-! ## Admission does not change -/

section Admission

variable (cfg : Config) (m : Manager) (peer : Peer) (now : Int) (ip : IPText)

theorem hostAllowed_checkAddr :
    (checkAddr m peer.addr now).2.HostAllowed ip.text ↔ m.HostAllowed ip.text := by
  unfold checkAddr
  split_ifs <;> exact Iff.rfl

/-- Neither a failed nor a successful handshake changes the admission of an IP
address: what `RecordFailedLogin` blacklists has a port in it. -/
theorem hostAllowed_afterHandshake (ok filters : Bool) :
    (afterHandshake cfg m peer.addr now ok filters).2.HostAllowed ip.text
      ↔ m.HostAllowed ip.text := by
  unfold afterHandshake
  cases ok with
  | true =>
    simp only [if_true]
    split_ifs <;> exact Iff.rfl
  | false =>
    -- the blacklist entry is `peer.addr`, which is no IP address
    exact m.hostAllowed_recordFailedLogin now (peer.addr_ne_text ip)

theorem hostAllowed_step (s : State) (e : Event) :
    (step cfg s e).security.HostAllowed ip.text ↔ s.security.HostAllowed ip.text := by
  cases e with
  | arrive peer now => exact hostAllowed_checkAddr s.security peer now ip
  | handshake peer ok filters now =>
    unfold step
    dsimp only
    split_ifs
    · exact hostAllowed_afterHandshake cfg s.security peer now ip ok filters
    · exact Iff.rfl

end Admission

/-- Whoever is in flight after a step was so before, or has just passed the check. -/
theorem mem_inFlight_step {cfg : Config} {s : State} {e : Event} {peer : Peer}
    (h : peer ∈ (step cfg s e).inFlight) :
    peer ∈ s.inFlight ∨ s.security.isAllowed peer.addr = true := by
  cases e with
  | arrive q now =>
    by_cases hok : s.security.isAllowed q.addr = true
    · rcases List.mem_cons.mp (by simpa [step, checkAddr, hok] using h) with rfl | hmem
      · exact Or.inr hok
      · exact Or.inl hmem
    · exact Or.inl (by simpa [step, checkAddr, hok] using h)
  | handshake q ok filters now =>
    left
    simp only [step] at h
    split_ifs at h
    · exact List.mem_of_mem_erase h
    · exact h

/-- A handshake that has finished after a step had done so before, or was in flight. -/
theorem mem_handshakes_step {cfg : Config} {s : State} {e : Event} {h : Peer × Bool}
    (hh : h ∈ (step cfg s e).handshakes) : h ∈ s.handshakes ∨ h.1 ∈ s.inFlight := by
  cases e with
  | arrive q now => exact Or.inl hh
  | handshake q ok filters now =>
    simp only [step] at hh
    split_ifs at hh with hq
    · rcases List.mem_append.mp hh with hmem | hmem
      · exact Or.inl hmem
      · obtain rfl := List.mem_singleton.mp hmem
        exact Or.inr hq
    · exact Or.inl hh

/-- Every peer that was let in is still let in. -/
def Inv (s : State) : Prop :=
  (∀ peer ∈ s.inFlight, s.security.HostAllowed peer.ip.text)
    ∧ ∀ h ∈ s.handshakes, s.security.HostAllowed h.1.ip.text

theorem inv_step (cfg : Config) (s : State) (e : Event) (h : Inv s) : Inv (step cfg s e) := by
  obtain ⟨hflight, hdone⟩ := h
  refine ⟨fun peer hpeer => ?_, fun h hh => ?_⟩ <;> rw [hostAllowed_step]
  · rcases mem_inFlight_step hpeer with hmem | hok
    · exact hflight peer hmem
    · exact (s.security.isAllowed_addr peer).mp hok
  · rcases mem_handshakes_step hh with hmem | hmem
    · exact hdone h hmem
    · exact hflight h.1 hmem

/-! ## Brute-force protection -/

/-- **Failed handshakes never block an address.**  In every run, from any address
lists, after five handshakes from an IP address have failed with none succeeding
in between, a connection from that address passes `IsAllowed`, whatever its port. -/
theorem never_blocked (cfg : Config) (m : Manager) (es : List Event) (ip : IPText)
    (hfive : FiveFailures (run (step cfg) (State.init m) es).handshakes ip)
    (peer : Peer) (hpeer : peer.ip = ip) :
    (run (step cfg) (State.init m) es).security.isAllowed peer.addr = true := by
  have hinv : Inv (run (step cfg) (State.init m) es) :=
    run_invariant (inv_step cfg) ⟨by simp [State.init], by simp [State.init]⟩ es
  -- one finished handshake from the address is enough
  have hmem : false ∈ ((run (step cfg) (State.init m) es).handshakes.filter
      (·.1.ip = ip)).map (·.2) :=
    hfive.subset (by decide)
  obtain ⟨h, hh, -⟩ := List.mem_map.mp hmem
  obtain ⟨hh, hip⟩ := List.mem_filter.mp hh
  have hallowed := hinv.2 h hh
  rw [of_decide_eq_true hip, ← hpeer] at hallowed
  exact (Manager.isAllowed_addr _ peer).mpr hallowed

/-- The address `1.2.3.4`. -/
def exampleIP : IPText where
  text := [49, 46, 50, 46, 51, 46, 52]
  nonempty := by decide
  bracketless := ⟨by decide, by decide⟩
  colons := by decide

/-- `1.2.3.4:8080`. -/
def examplePeer : Peer where
  ip := exampleIP
  port := [56, 48, 56, 48]
  digits := by simp

/-- `1.2.3.4:9090`. -/
def otherPeer : Peer where
  ip := exampleIP
  port := [57, 48, 57, 48]
  digits := by simp

/-- A configuration file with nothing in it but the mode, mux and the profile. -/
def bareConfig (mode : String) (muxEnabled : Bool) (bufferProfile : String) : Config where
  mode := mode
  logLevel := ""
  transport := ""
  logFormat := ""
  mux := ⟨muxEnabled, 0, 0, 0, 0, 0⟩
  pool := ⟨0, 0, 0⟩
  heartbeat := ⟨false, 0, 0⟩
  performance := ⟨false, 0, 0, 0, bufferProfile, 0⟩
  antiDPI := ⟨"", "", ""⟩
  metrics := ⟨false, ""⟩

/-- Five connections from one address, each failing its handshake. -/
def fiveFailed : List Event :=
  (List.replicate 5 [Event.arrive examplePeer 0, .handshake examplePeer false true 0]).flatten

theorem fiveFailed_fiveFailures :
    FiveFailures (run (step (bareConfig "server" true "")) (State.init newManager)
      fiveFailed).handshakes exampleIP :=
  ⟨[], [], by decide⟩

/-- After five failures from `1.2.3.4:8080`, a connection from `1.2.3.4:9090` passes. -/
theorem never_blocked_example :
    (run (step (bareConfig "server" true "")) (State.init newManager) fiveFailed).security.isAllowed
      otherPeer.addr = true :=
  never_blocked _ _ _ exampleIP fiveFailed_fiveFailures otherPeer rfl

/-- **Brute-force protection fails on five failed handshakes from one address.** -/
theorem fiveFailures_do_not_block :
    ¬ ∀ (cfg : Config) (es : List Event) (ip : IPText),
        FiveFailures (run (step cfg) (State.init newManager) es).handshakes ip →
        ∀ peer : Peer, peer.ip = ip →
          (run (step cfg) (State.init newManager) es).security.isAllowed peer.addr = false := by
  intro hall
  have hblocked := hall (bareConfig "server" true "") fiveFailed exampleIP
    fiveFailed_fiveFailures otherPeer rfl
  revert hblocked
  decide

/-! ## Direct flows and mux sessions -/

/-- What `Client.Start` opens: mux sessions, or a pool of connections that carry one
flow each. -/
inductive Flow where
  | direct
  | muxSession
  deriving DecidableEq, Repr

/-- The branch of `Client.Start` (and of `startForwarders`) on `cfg.Mux.Enabled`. -/
def clientFlow (cfg : Config) : Flow :=
  if cfg.mux.enabled then .muxSession else .direct

/-- The two ends agree: the flags are equal, and the server takes a connection that
passed the handshake and the filters for a single flow exactly when the client uses it
as one. -/
def FlowsAgree (client server : Config) : Prop :=
  client.mux.enabled = server.mux.enabled
    ∧ ∀ m remoteAddr now,
        (afterHandshake server m remoteAddr now true true).1 = .direct
          ↔ clientFlow client = .direct

theorem afterHandshake_direct_iff (cfg : Config) (m : Manager) (remoteAddr : Bytes) (now : Int) :
    (afterHandshake cfg m remoteAddr now true true).1 = .direct ↔ cfg.mux.enabled = false := by
  unfold afterHandshake
  cases h : cfg.mux.enabled <;> simp

theorem flowsAgree_iff (client server : Config) :
    FlowsAgree client server ↔ client.mux.enabled = server.mux.enabled := by
  constructor
  · exact fun h => h.1
  · intro h
    refine ⟨h, fun m remoteAddr now => ?_⟩
    rw [afterHandshake_direct_iff, ← h, clientFlow]
    cases client.mux.enabled <;> simp

/-- **Agreement after `applyDefaults`.**  A client and a server with the same
`mux.enabled` and the same buffer profile agree exactly when mux is off, or the
profile is `low_cpu` or `upload_boost`: every other profile turns mux off at the
client only. -/
theorem flowsAgree_applyDefaults_iff (client server : Config) (hclient : client.mode = "client")
    (hserver : server.mode = "server") (hmux : client.mux.enabled = server.mux.enabled)
    (hprofile : client.performance.bufferProfile = server.performance.bufferProfile) :
    FlowsAgree client.applyDefaults server.applyDefaults ↔
      client.mux.enabled = false
        ∨ client.performance.bufferProfile = "low_cpu"
        ∨ client.performance.bufferProfile = "upload_boost" := by
  rw [flowsAgree_iff, Config.muxEnabled_client hclient, Config.muxEnabled_server hserver,
    ← hmux, ← hprofile]
  -- with mux on, the profile decides: two profiles treat both ends alike
  cases client.mux.enabled with
  | false => simp
  | true =>
    by_cases hlow : client.performance.bufferProfile = "low_cpu"
    · simp [hlow]
    · by_cases hboost : client.performance.bufferProfile = "upload_boost"
      · simp [hboost]
      · simp [hlow, hboost]

/-- With `upload_boost` at both ends, mux is off at both. -/
theorem flowsAgree_upload_boost :
    FlowsAgree (bareConfig "client" true "upload_boost").applyDefaults
      (bareConfig "server" true "upload_boost").applyDefaults :=
  (flowsAgree_applyDefaults_iff (bareConfig "client" true "upload_boost")
    (bareConfig "server" true "upload_boost") rfl rfl rfl rfl).mpr (Or.inr (Or.inr rfl))

/-- **The ends disagree** when both files say `mux.enabled = true` and set no profile. -/
theorem flows_disagree_on_balanced :
    ¬ ∀ client server : Config, client.mode = "client" → server.mode = "server" →
        client.mux.enabled = server.mux.enabled →
        client.performance.bufferProfile = server.performance.bufferProfile →
        FlowsAgree client.applyDefaults server.applyDefaults := by
  intro hall
  have h := hall (bareConfig "client" true "") (bareConfig "server" true "") rfl rfl rfl rfl
  have hflag := h.1
  revert hflag
  decide

end Server
