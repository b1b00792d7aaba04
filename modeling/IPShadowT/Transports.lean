/-
# The factory of transports

Model of `NewTransport` and of the constructors it calls: `NewReality`, which can refuse its
keys and its fragment sizes, `NewReverse`, which calls `NewTransport` again, and eight that only
keep the configuration.

The calls are counted by fuel, so that a call that never returns is one that no fuel is enough
for.  `newTransport_terminates_iff` says for which configurations a call returns.
`built_newTransport` connects this model with the one that the paths of a client are dialed by.
-/
import IPShadowT.Fragment
import IPShadowT.Multipath
import IPShadowT.RealityServer
import IPShadowT.Server
import IPShadowT.Validate

open Config (File)
open Multipath (Kind Built kindOf)

namespace Transports

/-! ## The constructors -/

/-- What `NewTransport` makes: one of the transports that only keep the configuration, one end
of REALITY with the keys it has decoded, or a reverse tunnel over another transport. -/
inductive Transport where
  | plain (kind : Kind)
  | realityServer (server : Reality.RealityServer)
  | realityClient (client : Reality.RealityClient)
  | reverse (inner : Transport)

/-- The errors of `NewTransport`. -/
inductive TransportError where
  | engine (err : Fragment.FragmenterError)
  | realityServer (err : String)
  | realityClient (err : String)
  | inner (err : TransportError)
  deriving DecidableEq, Repr

/-- The texts of the errors. -/
def TransportError.message (quote : String → String) : TransportError → String
  | engine err =>
    "failed to create anti-DPI engine: failed to create fragmenter: " ++ err.message quote
  | realityServer err => "failed to create REALITY server: " ++ err
  | realityClient err => "failed to create REALITY client: " ++ err
  | inner err => "failed to create inner transport: " ++ err.message quote

/-- `antidpi.NewEngine`, of which only the fragmenter can be refused; `none` is an engine that is
not enabled. -/
def newEngine (cfg : File) : Except Fragment.FragmenterError (Option Fragment.Fragmenter) :=
  if ¬ cfg.antiDPIEnabled then .ok none
  else (Fragment.newFragmenter cfg.antiDPI.fragmentSize cfg.antiDPIFragment).map some

/-- `NewReality`. -/
def newReality (cfg : File) : Except TransportError Transport :=
  match newEngine cfg with
  | .error err => .error (.engine err)
  | .ok _ =>
    if cfg.mode = "server" then
      match Reality.newRealityServer cfg.reality.privateKey [cfg.reality.shortID] with
      | .error err => .error (.realityServer err)
      | .ok server => .ok (.realityServer server)
    else
      match Reality.newRealityClient cfg.reality.publicKey cfg.reality.shortID with
      | .error err => .error (.realityClient err)
      | .ok client => .ok (.realityClient client)

/-- `NewReverse`, with `construct` for the call of `NewTransport`.  The configuration of the inner
transport is a copy. -/
def newReverse (construct : File → Option (Except TransportError Transport)) (cfg : File) :
    Option (Except TransportError Transport) :=
  -- no statement between the copy and the call changes its transport
  let innerCfg := cfg
  match construct innerCfg with
  | none => none
  | some (.error err) => some (.error (.inner err))
  | some (.ok inner) => some (.ok (.reverse inner))

/-- `NewTransport` with at most `fuel` calls; `none` if they are not enough. -/
def newTransport : (fuel : ℕ) → File → Option (Except TransportError Transport)
  | 0, _ => none
  | fuel + 1, cfg =>
    match kindOf cfg.transport with
    | .reality => some (newReality cfg)
    | .reverse => newReverse (newTransport fuel) cfg
    | kind => some (.ok (.plain kind))

/-- A call returns, with a transport or an error. -/
def Terminates (cfg : File) : Prop := ∃ fuel, (newTransport fuel cfg).isSome

/-! ## Termination -/

/-- The label of the `switch` of `NewTransport` under which a kind is made. -/
def label : Kind → String
  | .tcpmux => "tcpmux"
  | .wsmux => "wsmux"
  | .reality => "reality"
  | .h2mux => "h2mux"
  | .shadowtls => "shadowtls"
  | .grpc => "grpc"
  | .quic => "quic"
  | .kcp => "kcp"
  | .reverse => "reverse"
  | .faketcp => "faketcp"

/-- Only the transport that is also the default has more than one name. -/
theorem label_kindOf {transport : String} (h : kindOf transport ≠ .tcpmux) :
    label (kindOf transport) = transport := by
  generalize hkind : kindOf transport = kind at h ⊢
  rw [eq_comm]
  by_contra hne
  simp only [kindOf, apply_ite (· = kind)] at hkind
  -- the other names lead to other kinds
  cases kind <;> dsimp only [label] at hne <;> first
    | exact h rfl
    | simp only [reduceCtorEq, hne, if_false, ite_self] at hkind

/-- The name of the reverse tunnel is the only one that leads to `NewReverse`. -/
theorem kindOf_eq_reverse_iff {transport : String} :
    kindOf transport = .reverse ↔ transport = "reverse" := by
  constructor
  · intro h
    have hother : kindOf transport ≠ .tcpmux := by
      rw [h]
      exact nofun
    rw [← label_kindOf hother, h]
    rfl
  · rintro rfl
    decide

/-- Any other transport takes a single call. -/
theorem newTransport_one {cfg : File} (h : kindOf cfg.transport ≠ .reverse) (fuel : ℕ) :
    newTransport (fuel + 1) cfg = some (match kindOf cfg.transport with
      | .reality => newReality cfg
      | kind => .ok (.plain kind)) := by
  rw [newTransport]
  cases hkind : kindOf cfg.transport <;> first | rfl | exact absurd hkind h

/-- The reverse tunnel asks for itself. -/
theorem newTransport_reverse {cfg : File} (h : kindOf cfg.transport = .reverse) (fuel : ℕ) :
    newTransport fuel cfg = none := by
  induction fuel with
  | zero => rfl
  | succ fuel ih => rw [newTransport, h, newReverse, ih]

theorem terminates_iff (cfg : File) : Terminates cfg ↔ cfg.transport ≠ "reverse" := by
  rw [ne_eq, ← kindOf_eq_reverse_iff]
  constructor
  · rintro ⟨fuel, hsome⟩ hreverse
    rw [newTransport_reverse hreverse] at hsome
    cases hsome
  · intro hother
    exact ⟨1, by rw [newTransport_one hother]; rfl⟩

/-- The defaults keep the reverse tunnel, and do not introduce it. -/
theorem applyDefaults_transport (f : File) :
    f.applyDefaults.transport = Config.strDefault "tcpmux" f.transport := by
  show f.toConfig.applyDefaults.transport = _
  rw [Config.applyDefaults_eq]
  rfl

/-- **`NewTransport` returns** for a configuration that has passed `applyDefaults` and `validate`
exactly if the transport is not the reverse tunnel. -/
theorem newTransport_terminates_iff (f : File)
    (_hvalid : Config.validate f.applyDefaults = .ok ()) :
    Terminates f.applyDefaults ↔ f.transport ≠ "reverse" := by
  rw [terminates_iff, applyDefaults_transport, Config.strDefault]
  split_ifs with hempty
  · rw [hempty]
    decide
  · exact Iff.rfl

/-- A configuration with an address and a password, and nothing else but its mode, its transport
and what concerns mux. -/
def bareFile (mode transport : String) (muxEnabled : Bool) (bufferProfile : String) : File :=
  { Server.bareConfig mode muxEnabled bufferProfile with
    transport := transport
    bindAddr := ":443"
    remoteAddr := "example.com:443"
    password := "secret"
    tlsCert := ""
    tlsKey := ""
    forwards := []
    paths := []
    reality := ⟨[], [], [], []⟩
    antiDPIEnabled := false
    antiDPIFragment := false }

/-- A server over KCP can be built. -/
theorem terminates_kcp :
    Config.validate (bareFile "server" "kcp" true "").applyDefaults = .ok () ∧
      Terminates (bareFile "server" "kcp" true "").applyDefaults :=
  have hvalid : Config.validate (bareFile "server" "kcp" true "").applyDefaults = .ok () := by
    decide
  ⟨hvalid, (newTransport_terminates_iff _ hvalid).2 (by decide)⟩

/-- A server behind a reverse tunnel passes `validate`, and `NewTransport` does not return. -/
theorem reverse_does_not_terminate :
    Config.validate (bareFile "server" "reverse" true "").applyDefaults = .ok () ∧
      ¬ Terminates (bareFile "server" "reverse" true "").applyDefaults := by
  refine ⟨by decide, ?_⟩
  rintro ⟨fuel, hsome⟩
  have hkind : kindOf (bareFile "server" "reverse" true "").applyDefaults.transport = .reverse := by
    decide
  rw [newTransport_reverse hkind] at hsome
  cases hsome

/-! ## The transports of paths -/

/-- What the dialing of paths needs to know of a call of `NewTransport`. -/
def built : Option (Except TransportError Transport) → Built
  | none => .unending
  | some (.error _) => .refused
  | some (.ok (.plain kind)) => .transport kind
  | some (.ok (.realityServer _)) | some (.ok (.realityClient _)) => .transport .reality
  | some (.ok (.reverse _)) => .transport .reverse

/-- `NewReality` accepts the configuration. -/
def realityOk (cfg : File) : Bool := (newReality cfg).toBool

/-- What `NewReality` makes is one of its two ends. -/
theorem built_newReality (cfg : File) :
    built (some (newReality cfg)) = if realityOk cfg then .transport .reality else .refused := by
  unfold realityOk
  cases hreality : newReality cfg with
  | error err => rfl
  | ok t =>
    unfold newReality at hreality
    split at hreality
    · cases hreality
    · split_ifs at hreality
      · split at hreality
        · cases hreality
        · cases hreality
          rfl
      · split at hreality
        · cases hreality
        · cases hreality
          rfl

/-- **One model of `NewTransport` refines the other**: for a call or more, what the dialing of
paths is told is what the constructors do. -/
theorem built_newTransport (cfg : File) (fuel : ℕ) :
    built (newTransport (fuel + 1) cfg) = Multipath.newTransport (realityOk cfg) cfg.transport := by
  unfold Multipath.newTransport
  by_cases hreverse : kindOf cfg.transport = .reverse
  · rw [newTransport_reverse hreverse, hreverse]
    rfl
  · rw [newTransport_one hreverse]
    cases hkind : kindOf cfg.transport
    case reality => exact built_newReality cfg
    case reverse => exact absurd hkind hreverse
    all_goals rfl

end Transports
