/-
# Validation of a configuration

Model of `validate` in `internal/config/config.go`, which `Load` calls after `applyDefaults`.
`File` adds to `Config` the fields that `validate` and the constructors of the transports read
and that no default touches.

`validate_eq_ok` says what a configuration that passes satisfies, and `ValidateError.message`
has the texts of the errors.
-/
import IPShadowT.Bytes
import IPShadowT.Config
import IPShadowT.Failover

open Failover (PathConfig)

namespace Config

/-! ## The records -/

/-- `ForwardConfig`. -/
structure ForwardConfig where
  name : String
  type : String
  listen : String
  remote : String
  deriving DecidableEq, Repr

/-- `RealityConfig`, without the name of the server; the keys are looked at byte by byte. -/
structure RealityConfig where
  shortID : Bytes
  publicKey : Bytes
  privateKey : Bytes
  dest : Bytes
  deriving DecidableEq, Repr

/-- A configuration with the fields that have no default; `antiDPIEnabled` and
`antiDPIFragment` are the fields `Enabled` and `Fragment` of `AntiDPI`. -/
structure File extends Config where
  bindAddr : String
  remoteAddr : String
  password : String
  tlsCert : String
  tlsKey : String
  forwards : List ForwardConfig
  paths : List PathConfig
  reality : RealityConfig
  antiDPIEnabled : Bool
  antiDPIFragment : Bool
  deriving DecidableEq, Repr

/-- `applyDefaults`. -/
def File.applyDefaults (f : File) : File := { f with toConfig := f.toConfig.applyDefaults }

/-! ## `validate` -/

/-- The errors of `validate`, in the order of the checks. -/
inductive ValidateError where
  | mode (mode : String)
  | bindAddr
  | remoteAddr
  | password
  | transport (transport : String)
  | logFormat (logFormat : String)
  | forwardListen (i : ℕ)
  | forwardRemote (i : ℕ)
  | forwardType (i : ℕ) (type : String)
  | realityPrivateKey
  | realityDest
  | realityPublicKey
  | realityShortID
  | tls
  deriving DecidableEq, Repr

/-- The texts of the errors; `quote` is what the verb `%q` does with a string. -/
def ValidateError.message (quote : String → String) : ValidateError → String
  | mode m => "invalid mode: " ++ quote m ++ " (must be 'server' or 'client')"
  | bindAddr => "server mode requires 'bind_addr'"
  | remoteAddr => "client mode requires 'remote_addr' or [[paths]]"
  | password => "'password' is required for encryption"
  | transport t => "invalid transport: " ++ quote t
  | logFormat f => "invalid log_format: " ++ quote f ++ " (use text or json)"
  | forwardListen i => "forwards[" ++ toString i ++ "]: listen is required"
  | forwardRemote i => "forwards[" ++ toString i ++ "]: remote is required for tcp forward"
  | forwardType i t => "forwards[" ++ toString i ++ "]: unsupported type " ++ quote t
  | realityPrivateKey => "reality: private_key is required on server"
  | realityDest => "reality: dest fallback is required on server"
  | realityPublicKey => "reality: public_key is required on client"
  | realityShortID => "reality: short_id is required on client"
  | tls => "both tls_cert and tls_key are required when using TLS"

/-- `if bad { return err }`. -/
def failIf (bad : Prop) [Decidable bad] (err : ValidateError) : Except ValidateError Unit :=
  if bad then .error err else .ok ()

/-- `validTransports`. -/
def validTransports : List String :=
  ["tcpmux", "wsmux", "reality", "h2mux", "shadowtls", "grpc", "quic", "kcp", "reverse", "faketcp"]

/-- The types of forwards that `validate` lets pass. -/
def validForwardTypes : List String := ["tcp", "udp", "socks5", "http", "wireguard", "wg", ""]

/-- The checks of `forwards[i]`. -/
def validateForward (i : ℕ) (fwd : ForwardConfig) : Except ValidateError Unit := do
  failIf (fwd.listen = "") (.forwardListen i)
  failIf (fwd.type = "tcp" ∧ fwd.remote = "") (.forwardRemote i)
  failIf (fwd.type ∉ validForwardTypes) (.forwardType i fwd.type)

/-- The loop over the forwards, from the `i`-th on. -/
def validateForwards : ℕ → List ForwardConfig → Except ValidateError Unit
  | _, [] => .ok ()
  | i, fwd :: fwds => do
      validateForward i fwd
      validateForwards (i + 1) fwds

/-- `validate`. -/
def validate (cfg : File) : Except ValidateError Unit := do
  failIf (cfg.mode ≠ "server" ∧ cfg.mode ≠ "client") (.mode cfg.mode)
  failIf (cfg.mode = "server" ∧ cfg.bindAddr = "") .bindAddr
  failIf (cfg.mode = "client" ∧ cfg.remoteAddr = "" ∧ cfg.paths.length = 0) .remoteAddr
  failIf (cfg.password = "") .password
  failIf (cfg.transport ∉ validTransports) (.transport cfg.transport)
  failIf (cfg.logFormat ≠ "text" ∧ cfg.logFormat ≠ "json") (.logFormat cfg.logFormat)
  validateForwards 0 cfg.forwards
  failIf (cfg.transport = "reality" ∧ cfg.mode = "server" ∧ cfg.reality.privateKey = [])
    .realityPrivateKey
  failIf (cfg.transport = "reality" ∧ cfg.mode = "server" ∧ cfg.reality.dest = []) .realityDest
  failIf (cfg.transport = "reality" ∧ cfg.mode = "client" ∧ cfg.reality.publicKey = [])
    .realityPublicKey
  failIf (cfg.transport = "reality" ∧ cfg.mode = "client" ∧ cfg.reality.shortID = [])
    .realityShortID
  failIf ((cfg.tlsCert ≠ "" ∨ cfg.tlsKey ≠ "") ∧ (cfg.tlsCert = "" ∨ cfg.tlsKey = "")) .tls

/-! ## What passes -/

/-- A forward that passes. -/
structure ForwardConfig.Valid (fwd : ForwardConfig) : Prop where
  listen : fwd.listen ≠ ""
  remote : fwd.type = "tcp" → fwd.remote ≠ ""
  type : fwd.type ∈ validForwardTypes

/-- A configuration that passes. -/
structure File.Valid (cfg : File) : Prop where
  mode : cfg.mode = "server" ∨ cfg.mode = "client"
  bindAddr : cfg.mode = "server" → cfg.bindAddr ≠ ""
  remoteAddr : cfg.mode = "client" → cfg.remoteAddr ≠ "" ∨ cfg.paths ≠ []
  password : cfg.password ≠ ""
  transport : cfg.transport ∈ validTransports
  logFormat : cfg.logFormat = "text" ∨ cfg.logFormat = "json"
  forwards : ∀ fwd ∈ cfg.forwards, fwd.Valid
  realityServer : cfg.transport = "reality" → cfg.mode = "server" →
    cfg.reality.privateKey ≠ [] ∧ cfg.reality.dest ≠ []
  realityClient : cfg.transport = "reality" → cfg.mode = "client" →
    cfg.reality.publicKey ≠ [] ∧ cfg.reality.shortID ≠ []
  tls : cfg.tlsCert = "" ↔ cfg.tlsKey = ""

@[simp] theorem failIf_eq_ok {bad : Prop} [Decidable bad] {err : ValidateError} :
    failIf bad err = .ok () ↔ ¬ bad := by
  unfold failIf
  split_ifs with h <;> simp [h]

/-- A sequence of checks passes if each does. -/
@[simp] theorem check_bind_eq_ok {c : Except ValidateError Unit}
    {k : Unit → Except ValidateError Unit} :
    c >>= k = .ok () ↔ c = .ok () ∧ k () = .ok () := by
  cases c with
  | error err => exact iff_of_false nofun nofun
  | ok u => exact ⟨fun h => ⟨rfl, h⟩, fun h => h.2⟩

theorem validateForward_eq_ok {i : ℕ} {fwd : ForwardConfig} :
    validateForward i fwd = .ok () ↔ fwd.Valid := by
  simp only [validateForward, check_bind_eq_ok, failIf_eq_ok, not_and, not_not]
  constructor
  · rintro ⟨hlisten, hremote, htype⟩
    exact ⟨hlisten, hremote, htype⟩
  · rintro ⟨hlisten, hremote, htype⟩
    exact ⟨hlisten, hremote, htype⟩

theorem validateForwards_eq_ok {i : ℕ} {fwds : List ForwardConfig} :
    validateForwards i fwds = .ok () ↔ ∀ fwd ∈ fwds, fwd.Valid := by
  induction fwds generalizing i with
  | nil => simp [validateForwards]
  | cons fwd fwds ih =>
    rw [validateForwards, check_bind_eq_ok, validateForward_eq_ok, ih, List.forall_mem_cons]

/-- **What passes `validate`.** -/
theorem validate_eq_ok {cfg : File} : validate cfg = .ok () ↔ cfg.Valid := by
  simp only [validate, check_bind_eq_ok, failIf_eq_ok, validateForwards_eq_ok,
    List.length_eq_zero_iff]
  constructor
  · rintro ⟨hmode, hbind, hremote, hpassword, htransport, hformat, hforwards, hprivate, hdest,
      hpublic, hshort, htls⟩
    refine ⟨or_iff_not_and_not.2 hmode, fun hs hb => hbind ⟨hs, hb⟩, fun hc => ?_, hpassword,
      not_not.1 htransport, or_iff_not_and_not.2 hformat, hforwards, fun ht hs => ?_,
      fun ht hc => ?_, ?_⟩
    · rw [or_iff_not_and_not, not_not, not_not]
      exact fun h => hremote ⟨hc, h⟩
    · exact ⟨fun h => hprivate ⟨ht, hs, h⟩, fun h => hdest ⟨ht, hs, h⟩⟩
    · exact ⟨fun h => hpublic ⟨ht, hc, h⟩, fun h => hshort ⟨ht, hc, h⟩⟩
    · constructor
      · intro hcert
        by_contra hkey
        exact htls ⟨.inr hkey, .inl hcert⟩
      · intro hkey
        by_contra hcert
        exact htls ⟨.inl hcert, .inr hkey⟩
  · intro h
    refine ⟨or_iff_not_and_not.1 h.mode, fun hs => h.bindAddr hs.1 hs.2, ?_, h.password,
      not_not.2 h.transport, or_iff_not_and_not.1 h.logFormat, h.forwards,
      fun hs => (h.realityServer hs.1 hs.2.1).1 hs.2.2,
      fun hs => (h.realityServer hs.1 hs.2.1).2 hs.2.2,
      fun hc => (h.realityClient hc.1 hc.2.1).1 hc.2.2,
      fun hc => (h.realityClient hc.1 hc.2.1).2 hc.2.2, ?_⟩
    · rintro ⟨hc, hremote, hpaths⟩
      exact (h.remoteAddr hc).elim (· hremote) (· hpaths)
    · rintro ⟨hset | hset, hcert | hkey⟩
      · exact hset hcert
      · exact hset (h.tls.2 hkey)
      · exact hset (h.tls.1 hcert)
      · exact hset hkey

end Config
