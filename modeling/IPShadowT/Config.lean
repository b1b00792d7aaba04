/-
# Configuration and its defaults

Model of `internal/config/config.go`, lines 203 to 354: the three defaulting
stages `applyDefaults` chains.  The records keep the fields these stages read or
write, under the source's names; Go `int` fields are integers.

The stages rewrite `Mux.Enabled` last, in branches that depend on the mode and on
the buffer profile.  `muxEnabled_client` and `muxEnabled_server` say what comes
out at either end.
-/
import Mathlib.Data.List.Basic

namespace Config

/-! ## The records -/

/-- `MuxConfig`. -/
structure MuxConfig where
  enabled : Bool
  concurrency : Int
  frameSize : Int
  recvBuffer : Int
  streamBuffer : Int
  maxStreams : Int
  deriving DecidableEq, Repr

/-- `PoolConfig`. -/
structure PoolConfig where
  size : Int
  maxIdle : Int
  idleTimeout : Int
  deriving DecidableEq, Repr

/-- `HeartbeatConfig`. -/
structure HeartbeatConfig where
  enabled : Bool
  interval : Int
  timeout : Int
  deriving DecidableEq, Repr

/-- `PerformanceConfig`. -/
structure PerformanceConfig where
  nodelay : Bool
  keepAlive : Int
  sendBuffer : Int
  recvBuffer : Int
  bufferProfile : String
  workers : Int
  deriving DecidableEq, Repr

/-- The part of `AntiDPIConfig` that has defaults. -/
structure AntiDPIConfig where
  utlsFingerprint : String
  fragmentSize : String
  paddingSize : String
  deriving DecidableEq, Repr

/-- `MetricsConfig`. -/
structure MetricsConfig where
  enabled : Bool
  listen : String
  deriving DecidableEq, Repr

end Config

open Config in
/-- `Config`, as `toml.Unmarshal` leaves it: a key that the file does not set has
Go's zero value. -/
structure Config where
  mode : String
  logLevel : String
  transport : String
  logFormat : String
  mux : MuxConfig
  pool : PoolConfig
  heartbeat : HeartbeatConfig
  performance : PerformanceConfig
  antiDPI : AntiDPIConfig
  metrics : MetricsConfig
  deriving DecidableEq, Repr

namespace Config

/-! ## The defaulting stages -/

/-- `if x == 0 { x = d }`. -/
def intDefault (d x : Int) : Int := if x = 0 then d else x

/-- `if x == "" { x = d }`. -/
def strDefault (d x : String) : String := if x = "" then d else x

/-- The body of `applyDefaults` before it calls the two other stages. -/
def fillUnset (cfg : Config) : Config where
  mode := cfg.mode
  logLevel := strDefault "info" cfg.logLevel
  transport := strDefault "tcpmux" cfg.transport
  logFormat := strDefault "text" cfg.logFormat
  mux :=
    { cfg.mux with
      concurrency := intDefault 8 cfg.mux.concurrency
      frameSize := intDefault 32768 cfg.mux.frameSize
      recvBuffer := intDefault 4194304 cfg.mux.recvBuffer
      streamBuffer := intDefault 2097152 cfg.mux.streamBuffer
      maxStreams := intDefault 1024 cfg.mux.maxStreams }
  pool :=
    { size := intDefault 8 cfg.pool.size
      maxIdle := intDefault 4 cfg.pool.maxIdle
      idleTimeout := intDefault 90 cfg.pool.idleTimeout }
  heartbeat :=
    { cfg.heartbeat with
      interval := intDefault 20 cfg.heartbeat.interval
      timeout := intDefault 40 cfg.heartbeat.timeout }
  performance :=
    { cfg.performance with
      keepAlive := intDefault 15 cfg.performance.keepAlive
      bufferProfile := strDefault "balanced" cfg.performance.bufferProfile
      workers := intDefault 4 cfg.performance.workers }
  antiDPI :=
    { utlsFingerprint := strDefault "chrome" cfg.antiDPI.utlsFingerprint
      fragmentSize := strDefault "50-100" cfg.antiDPI.fragmentSize
      paddingSize := strDefault "16-256" cfg.antiDPI.paddingSize }
  metrics :=
    { enabled := if cfg.mode = "server" ∧ ¬ cfg.metrics.enabled then true
        else cfg.metrics.enabled
      listen := strDefault "127.0.0.1:9091" cfg.metrics.listen }

/-- The sizes of a buffer profile. -/
structure BufferSizes where
  sendBuf : Int
  recvBuf : Int
  muxRecv : Int
  muxStream : Int

/-- The `switch` of `applyBufferProfile`; `none` is its `default: return`. -/
def bufferSizes : String → Option BufferSizes
  | "upload_boost" => some ⟨16777216, 16777216, 16777216, 8388608⟩
  | "high_throughput" => some ⟨67108864, 67108864, 67108864, 16777216⟩
  | "low_cpu" => some ⟨4194304, 4194304, 4194304, 2097152⟩
  | _ => none

/-- `applyBufferProfile`. -/
def applyBufferProfile (cfg : Config) : Config :=
  match bufferSizes cfg.performance.bufferProfile with
  | none => cfg
  | some b =>
    { cfg with
      performance :=
        { cfg.performance with
          sendBuffer := intDefault b.sendBuf cfg.performance.sendBuffer
          recvBuffer := intDefault b.recvBuf cfg.performance.recvBuffer }
      mux :=
        { cfg.mux with
          recvBuffer := if cfg.mux.recvBuffer = 0 ∨ cfg.mux.recvBuffer = 4194304
            then b.muxRecv else cfg.mux.recvBuffer
          streamBuffer := if cfg.mux.streamBuffer = 0 ∨ cfg.mux.streamBuffer = 2097152
            then b.muxStream else cfg.mux.streamBuffer } }

/-- The sizes that `applyUploadDefaults` raises. -/
def raiseSizes (cfg : Config) : Config :=
  { cfg with
    performance :=
      { cfg.performance with
        sendBuffer := intDefault 16777216 cfg.performance.sendBuffer
        recvBuffer := intDefault 16777216 cfg.performance.recvBuffer }
    mux :=
      { cfg.mux with
        recvBuffer := if cfg.mux.recvBuffer ≤ 4194304 then 16777216 else cfg.mux.recvBuffer
        streamBuffer := if cfg.mux.streamBuffer ≤ 2097152 then 8388608 else cfg.mux.streamBuffer
        frameSize := if cfg.mux.frameSize ≤ 32768 then 65535 else cfg.mux.frameSize } }

/-- The switch to direct mode at the end of `applyUploadDefaults`. -/
def directMode (cfg : Config) : Config :=
  let client :=
    if cfg.mode = "client" then
      { cfg with
        mux := { cfg.mux with enabled := false }
        performance := { cfg.performance with nodelay := true } }
    else cfg
  if client.mode = "server" ∧ client.performance.bufferProfile = "upload_boost" then
    { client with mux := { client.mux with enabled := false } }
  else client

/-- `applyUploadDefaults`. -/
def applyUploadDefaults (cfg : Config) : Config :=
  if cfg.performance.bufferProfile = "low_cpu" then cfg else directMode (raiseSizes cfg)

/-- `applyDefaults`. -/
def applyDefaults (cfg : Config) : Config :=
  applyUploadDefaults (applyBufferProfile (fillUnset cfg))

/-! ## What the stages leave alone -/

@[simp] theorem applyBufferProfile_mode (cfg : Config) :
    (applyBufferProfile cfg).mode = cfg.mode := by
  unfold applyBufferProfile
  cases bufferSizes cfg.performance.bufferProfile <;> rfl

@[simp] theorem applyBufferProfile_muxEnabled (cfg : Config) :
    (applyBufferProfile cfg).mux.enabled = cfg.mux.enabled := by
  unfold applyBufferProfile
  cases bufferSizes cfg.performance.bufferProfile <;> rfl

@[simp] theorem applyBufferProfile_bufferProfile (cfg : Config) :
    (applyBufferProfile cfg).performance.bufferProfile = cfg.performance.bufferProfile := by
  unfold applyBufferProfile
  cases bufferSizes cfg.performance.bufferProfile <;> rfl

/-- The two records that the stages after the first change. -/
def withSizes (cfg other : Config) : Config :=
  { cfg with performance := other.performance, mux := other.mux }

theorem applyBufferProfile_eq (cfg : Config) :
    applyBufferProfile cfg = cfg.withSizes (applyBufferProfile cfg) := by
  unfold applyBufferProfile
  cases bufferSizes cfg.performance.bufferProfile <;> rfl

theorem directMode_eq (cfg : Config) : directMode cfg = cfg.withSizes (directMode cfg) := by
  unfold directMode
  by_cases hclient : cfg.mode = "client"
  · simp only [if_pos hclient]
    split <;> rfl
  · simp only [if_neg hclient]
    split <;> rfl

theorem applyUploadDefaults_eq (cfg : Config) :
    applyUploadDefaults cfg = cfg.withSizes (applyUploadDefaults cfg) := by
  unfold applyUploadDefaults
  split
  · rfl
  · exact directMode_eq (raiseSizes cfg)

/-- **The stages after the first change nothing but performance and mux.** -/
theorem applyDefaults_eq (cfg : Config) :
    applyDefaults cfg = (fillUnset cfg).withSizes (applyDefaults cfg) := by
  refine (applyUploadDefaults_eq _).trans ?_
  rw [applyDefaults, applyBufferProfile_eq (fillUnset cfg)]
  rfl

/-- No named profile is the default that an empty one is replaced by. -/
theorem fillUnset_bufferProfile_eq_iff (cfg : Config) (profile : String) (hne : profile ≠ "")
    (hbal : profile ≠ "balanced") :
    (fillUnset cfg).performance.bufferProfile = profile
      ↔ cfg.performance.bufferProfile = profile := by
  show strDefault "balanced" cfg.performance.bufferProfile = profile ↔ _
  unfold strDefault
  split_ifs with h
  · rw [h]
    exact ⟨fun heq => absurd heq.symm hbal, fun heq => absurd heq.symm hne⟩
  · exact Iff.rfl

/-! ## Mux at the two ends -/

/-- When `directMode` turns mux off. -/
theorem directMode_muxEnabled (cfg : Config) :
    (directMode cfg).mux.enabled
      = if cfg.mode = "client" then false
        else if cfg.mode = "server" ∧ cfg.performance.bufferProfile = "upload_boost" then false
        else cfg.mux.enabled := by
  unfold directMode
  by_cases hc : cfg.mode = "client"
  · have hs : ¬ (cfg.mode = "server" ∧ cfg.performance.bufferProfile = "upload_boost") := by
      rw [hc]
      simp
    simp only [if_pos hc, if_neg hs]
  · simp only [if_neg hc]
    split_ifs <;> rfl

/-- The stages that a configuration goes through, by the profile it was written with. -/
theorem applyDefaults_stages (cfg : Config) :
    applyDefaults cfg =
      if cfg.performance.bufferProfile = "low_cpu" then applyBufferProfile (fillUnset cfg)
      else directMode (raiseSizes (applyBufferProfile (fillUnset cfg))) := by
  have hlow := fillUnset_bufferProfile_eq_iff cfg "low_cpu" (by decide) (by decide)
  rw [applyDefaults, applyUploadDefaults, applyBufferProfile_bufferProfile]
  exact if_congr hlow rfl rfl

/-- **What the three stages make of `mux.enabled`.** -/
theorem applyDefaults_muxEnabled (cfg : Config) :
    (applyDefaults cfg).mux.enabled
      = if cfg.performance.bufferProfile = "low_cpu" then cfg.mux.enabled
        else if cfg.mode = "client" then false
        else if cfg.mode = "server" ∧ cfg.performance.bufferProfile = "upload_boost" then false
        else cfg.mux.enabled := by
  have hboost := fillUnset_bufferProfile_eq_iff cfg "upload_boost" (by decide) (by decide)
  rw [applyDefaults_stages]
  by_cases h : cfg.performance.bufferProfile = "low_cpu"
  · rw [if_pos h, if_pos h, applyBufferProfile_muxEnabled]
    rfl
  · rw [if_neg h, if_neg h, directMode_muxEnabled]
    simp only [raiseSizes, applyBufferProfile_mode, applyBufferProfile_bufferProfile,
      applyBufferProfile_muxEnabled, hboost]
    rfl

/-- **Mux at a client** after the defaults. -/
theorem muxEnabled_client {cfg : Config} (hmode : cfg.mode = "client") :
    (applyDefaults cfg).mux.enabled
      = (cfg.mux.enabled && cfg.performance.bufferProfile = "low_cpu") := by
  rw [applyDefaults_muxEnabled, if_pos hmode]
  split_ifs with h <;> simp [h]

/-- **Mux at a server** after them. -/
theorem muxEnabled_server {cfg : Config} (hmode : cfg.mode = "server") :
    (applyDefaults cfg).mux.enabled
      = (cfg.mux.enabled && cfg.performance.bufferProfile ≠ "upload_boost") := by
  have hclient : ¬ cfg.mode = "client" := by
    rw [hmode]
    decide
  rw [applyDefaults_muxEnabled, if_neg hclient]
  split_ifs with hlow hboost
  · simp [hlow]
  · simp [hboost.2]
  · have hne : cfg.performance.bufferProfile ≠ "upload_boost" := fun h => hboost ⟨hmode, h⟩
    simp [hne]

end Config
