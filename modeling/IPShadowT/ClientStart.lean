/-
# What a client starts with

After `Load` has accepted a configuration, `Client.Start` starts a forwarder for each forward,
which looks at the type once more, and, if mux is enabled, the goroutine `maintainSessions`, which
makes a ticker from the interval of the heartbeat.

`startsUp_iff` says for which of the accepted configurations both succeed.
-/
import IPShadowT.Transports

open Config (File ForwardConfig)
open Go (int64)

namespace ClientStart

/-! ## The forwarders -/

/-- The functions that `Forwarder.Start` can call. -/
inductive Handler where
  | tcp
  | udp
  | socks5
  | httpProxy
  | wireGuard
  deriving DecidableEq, Repr

/-- The `switch` of `Forwarder.Start`. -/
def handlerOf (type : String) : Option Handler :=
  if type = "tcp" then some .tcp
  else if type = "udp" then some .udp
  else if type = "socks5" then some .socks5
  else if type = "http" then some .httpProxy
  else if type = "wireguard" ∨ type = "wg" then some .wireGuard
  else none

/-- `Forwarder.Start`, with `run` for the result of the function that it calls. -/
def forwarderStart (run : Handler → Except String Unit) (fwd : ForwardConfig) :
    Except String Unit :=
  match handlerOf fwd.type with
  | some handler => run handler
  | none => .error ("unsupported forward type: " ++ fwd.type)

/-- The loop of `startForwarders`, with `quote` for the verb `%q`. -/
def startForwarders (quote : String → String) (run : Handler → Except String Unit) :
    List ForwardConfig → Except String Unit
  | [] => .ok ()
  | fwd :: fwds =>
    match forwarderStart run fwd with
    | .error err => .error ("failed to start forwarder " ++ quote fwd.name ++ ": " ++ err)
    | .ok () => startForwarders quote run fwds

/-! ## The ticker -/

/-- The interval that `maintainSessions` gives to `time.NewTicker`, in nanoseconds. -/
def maintainInterval (cfg : File) : ℤ := int64 (cfg.heartbeat.interval * 1000000000)

/-- `time.NewTicker`. -/
def newTicker (d : ℤ) : Go Empty ℤ := if d ≤ 0 then .error .panic else .ok d

/-- The calls of `NewTicker` that `maintainSessions` makes: none if mux is off, because
`Client.Start` does not start it. -/
def tickers (cfg : File) : List (Go Empty ℤ) :=
  if cfg.mux.enabled then [newTicker (maintainInterval cfg)] else []

/-! ## Which configurations start up -/

/-- `Forwarder.Start` handles the type of every forward, and no ticker panics. -/
structure StartsUp (cfg : File) : Prop where
  forwards : ∀ fwd ∈ cfg.forwards, handlerOf fwd.type ≠ none
  tickers : ∀ t ∈ tickers cfg, Go.NoPanic t

theorem newTicker_noPanic {d : ℤ} : Go.NoPanic (newTicker d) ↔ 0 < d := by
  unfold newTicker
  split_ifs with h
  · exact iff_of_false (fun hno => hno rfl) (Int.not_lt.2 h)
  · exact iff_of_true (Go.NoPanic.ok d) (Int.not_le.1 h)

/-- If all functions succeed, the forwarders start exactly if every type is handled. -/
theorem startForwarders_eq_ok (quote : String → String) {fwds : List ForwardConfig} :
    startForwarders quote (fun _ => .ok ()) fwds = .ok () ↔
      ∀ fwd ∈ fwds, handlerOf fwd.type ≠ none := by
  induction fwds with
  | nil => simp [startForwarders]
  | cons fwd fwds ih =>
    rw [startForwarders, List.forall_mem_cons, ← ih, forwarderStart]
    cases handlerOf fwd.type with
    | none => exact iff_of_false nofun fun h => h.1 rfl
    | some handler => exact ⟨fun h => ⟨nofun, h⟩, fun h => h.2⟩

/-- Of the types that `validate` lets pass, `Forwarder.Start` handles all but the empty one. -/
theorem handlerOf_valid {type : String} (h : type ∈ Config.validForwardTypes) :
    handlerOf type ≠ none ↔ type ≠ "" := by
  revert type
  decide

/-- The stages after the first leave the heartbeat alone. -/
theorem applyDefaults_interval (f : File) :
    f.applyDefaults.heartbeat.interval = Config.intDefault 20 f.heartbeat.interval := by
  show f.toConfig.applyDefaults.heartbeat.interval = _
  rw [Config.applyDefaults_eq]
  rfl

/-- **An accepted client starts up** exactly if no forward is without a type and, if mux stays
enabled, which takes the profile `low_cpu`, the interval of the heartbeat in nanoseconds is
positive as a number of 64 bits. -/
theorem startsUp_iff (f : File) (hmode : f.mode = "client")
    (hvalid : Config.validate f.applyDefaults = .ok ()) :
    StartsUp f.applyDefaults ↔
      (∀ fwd ∈ f.forwards, fwd.type ≠ "") ∧
        (f.mux.enabled → f.performance.bufferProfile = "low_cpu" →
          0 < int64 (Config.intDefault 20 f.heartbeat.interval * 1000000000)) := by
  have hforwards : (∀ fwd ∈ f.forwards, handlerOf fwd.type ≠ none) ↔
      ∀ fwd ∈ f.forwards, fwd.type ≠ "" := by
    refine forall₂_congr fun fwd hfwd => handlerOf_valid ?_
    exact ((Config.validate_eq_ok.1 hvalid).forwards fwd hfwd).type
  have htickers : (∀ t ∈ tickers f.applyDefaults, Go.NoPanic t) ↔
      (f.mux.enabled → f.performance.bufferProfile = "low_cpu" →
        0 < int64 (Config.intDefault 20 f.heartbeat.interval * 1000000000)) := by
    have hmux : f.applyDefaults.mux.enabled = true ↔
        f.mux.enabled = true ∧ f.performance.bufferProfile = "low_cpu" := by
      show f.toConfig.applyDefaults.mux.enabled = true ↔ _
      rw [Config.muxEnabled_client hmode, Bool.and_eq_true, decide_eq_true_iff]
    rw [tickers, ← and_imp, ← hmux]
    split_ifs with henabled
    · rw [List.forall_mem_singleton, newTicker_noPanic, maintainInterval, applyDefaults_interval]
      exact ⟨fun h _ => h, fun h => h henabled⟩
    · exact iff_of_true nofun fun h => absurd h henabled
  constructor
  · intro h
    exact ⟨hforwards.1 h.forwards, htickers.1 h.tickers⟩
  · rintro ⟨htypes, hinterval⟩
    exact ⟨hforwards.2 htypes, htickers.2 hinterval⟩

/-- A client with one forward and a given interval of the heartbeat. -/
def clientFile (type : String) (interval : ℤ) : File :=
  { Transports.bareFile "client" "tcpmux" true "low_cpu" with
    heartbeat := ⟨true, interval, 0⟩
    forwards := [⟨"web", type, "127.0.0.1:8080", "127.0.0.1:80"⟩] }

/-- A client with a TCP forward and the default interval. -/
theorem startsUp_clientFile :
    (clientFile "tcp" 0).mode = "client" ∧
      Config.validate (clientFile "tcp" 0).applyDefaults = .ok () ∧
      StartsUp (clientFile "tcp" 0).applyDefaults :=
  have hvalid : Config.validate (clientFile "tcp" 0).applyDefaults = .ok () := by decide
  ⟨rfl, hvalid, (startsUp_iff _ rfl hvalid).2 (by decide)⟩

/-- A forward without a type, and a negative interval: both pass `validate`, the one ends in an
error and the other in a panic. -/
theorem accepted_does_not_start :
    Config.validate (clientFile "" 0).applyDefaults = .ok () ∧
      forwarderStart (fun _ => .ok ()) ⟨"web", "", "127.0.0.1:8080", "127.0.0.1:80"⟩
        = .error "unsupported forward type: " ∧
      ¬ StartsUp (clientFile "" 0).applyDefaults ∧
      Config.validate (clientFile "tcp" (-1)).applyDefaults = .ok () ∧
      tickers (clientFile "tcp" (-1)).applyDefaults = [.error .panic] ∧
      ¬ StartsUp (clientFile "tcp" (-1)).applyDefaults := by
  refine ⟨by decide, by decide, fun h => ?_, by decide, by decide, fun h => ?_⟩
  · exact h.forwards _ List.mem_cons_self rfl
  · exact h.tickers (.error .panic) (by decide) rfl

end ClientStart
