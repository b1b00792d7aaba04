/-
# Mux frames over a fake TCP connection

A mux session cuts its streams into frames of at most `MaxFrameSize` bytes, and hands each of
them to the connection in one `Write`, with a header of 8 bytes in front.  A fake TCP
connection has two bytes for the length of a `Write`.

The frame size comes out of the configuration: `applyDefaults` raises it, and
`buildSmuxConfig` of `internal/mux/mux.go` hands it on (`maxFrameSize_sessionConfig`).
`accepted_iff` says which writes are accepted, `frames_fit_iff` for which configurations all
of a session's are.
-/
import IPShadowT.ConfigDefaults
import IPShadowT.FakeTCP
import IPShadowT.Server

open Config

namespace Smux

/-! ## The session's configuration -/

/-- `smux.Config`, without the version; times are in seconds. -/
structure SmuxConfig where
  keepAliveInterval : Int
  keepAliveTimeout : Int
  maxFrameSize : Int
  maxReceiveBuffer : Int
  maxStreamBuffer : Int
  deriving DecidableEq, Repr

/-- A value that `buildSmuxConfig` takes over if it is positive. -/
def ifPositive (x default : Int) : Int := if x > 0 then x else default

/-- `buildSmuxConfig`, where `defaultConfig` is what `smux.DefaultConfig` returns. -/
def buildSmuxConfig (defaultConfig : SmuxConfig) (cfg : MuxConfig) : SmuxConfig where
  keepAliveInterval := 10
  keepAliveTimeout := 30
  maxFrameSize := ifPositive cfg.frameSize defaultConfig.maxFrameSize
  maxReceiveBuffer := ifPositive cfg.recvBuffer defaultConfig.maxReceiveBuffer
  maxStreamBuffer := ifPositive cfg.streamBuffer defaultConfig.maxStreamBuffer

/-- The frame size that the package smux documents for `DefaultConfig`. -/
def SmuxConfig.FrameAsDocumented (defaultConfig : SmuxConfig) : Prop :=
  defaultConfig.maxFrameSize = 32768

/-- What `smux.VerifyConfig` asks of the frame size. -/
def SmuxConfig.FrameAccepted (c : SmuxConfig) : Prop :=
  0 < c.maxFrameSize ∧ c.maxFrameSize ≤ 65535

instance (c : SmuxConfig) : Decidable c.FrameAccepted := inferInstanceAs (Decidable (_ ∧ _))

/-- A buffer that a session hands to its connection: the header, and the data of one frame. -/
structure SmuxConfig.Writes (c : SmuxConfig) (p : Bytes) : Prop where
  header : 8 ≤ p.length
  data : (p.length : Int) ≤ 8 + c.maxFrameSize

/-- The session of a configuration, once the defaults are in. -/
def sessionConfig (defaultConfig : SmuxConfig) (cfg : Config) : SmuxConfig :=
  buildSmuxConfig defaultConfig (applyDefaults cfg).mux

variable {defaultConfig : SmuxConfig} (hdefault : defaultConfig.FrameAsDocumented)

include hdefault in
/-- **The largest frame of a session.**  Without `low_cpu` it is 65535 bytes, unless a size
above 32768 is set; with `low_cpu` it is the size that is set, if one is. -/
theorem maxFrameSize_sessionConfig (cfg : Config) :
    (sessionConfig defaultConfig cfg).maxFrameSize =
      if cfg.LowCpu then ifPositive cfg.mux.frameSize 32768
      else if 32768 < cfg.mux.frameSize then cfg.mux.frameSize else 65535 := by
  have hsizes := sizes_frame cfg
  have hframe : (sessionConfig defaultConfig cfg).maxFrameSize
      = ifPositive (sizeAfter 32768 65535 cfg.LowCpu none cfg.mux.frameSize) 32768 := by
    rw [sessionConfig, buildSmuxConfig, applyDefaults_mux, hdefault]
  rw [hframe]
  split_ifs with hlow hlarge
  · rw [hsizes.sizeAfter_of_low hlow, intDefault, ifPositive, ifPositive]
    split_ifs <;> omega
  · rw [hsizes.sizeAfter_of_lt hlarge, ifPositive, if_pos (by omega)]
  · have hle : profiled 32768 none (intDefault 32768 cfg.mux.frameSize) ≤ 32768 := by
      show intDefault 32768 cfg.mux.frameSize ≤ 32768
      unfold intDefault
      split_ifs <;> omega
    rw [sizeAfter, if_neg hlow, if_pos hle]
    rfl

/-! ## Its writes on a fake TCP connection -/

/-- On a TCP connection that takes everything, `fakeTCPConn.Write` accepts the buffer. -/
def Accepted (p : Bytes) : Prop :=
  ∀ c : FakeTCP.Conn, c.out.Reliable → (FakeTCP.write c p).1 = .ok p.length

/-- `fakeTCPConn.Write` accepts what two bytes can count. -/
theorem accepted_iff (p : Bytes) : Accepted p ↔ p.length ≤ 65535 := by
  constructor
  · intro haccepted
    have hreliable : (FakeTCP.newConn ⟨[], []⟩ []).out.Reliable := rfl
    have hok := haccepted (FakeTCP.newConn ⟨[], []⟩ []) hreliable
    by_contra hlong
    rw [FakeTCP.write, if_pos (Nat.not_le.1 hlong)] at hok
    cases hok
  · intro hle c hc
    rw [FakeTCP.write, if_neg (Nat.not_lt.2 hle), Sink.write_of_reliable hc]

/-- Every write that a session makes is accepted. -/
def SmuxConfig.Fits (c : SmuxConfig) : Prop := ∀ p, c.Writes p → Accepted p

/-- A session fits if the header and the largest frame do. -/
theorem SmuxConfig.fits_iff (c : SmuxConfig) : c.Fits ↔ c.maxFrameSize ≤ 65527 := by
  constructor
  · intro hfits
    by_contra hlarge
    have hwrites : c.Writes (List.replicate 65536 0) := by
      constructor <;> rw [List.length_replicate] <;> omega
    have hle := (accepted_iff _).1 (hfits _ hwrites)
    rw [List.length_replicate] at hle
    omega
  · intro hsmall p hp
    rw [accepted_iff]
    have := hp.data
    omega

/-- **When mux frames fit.**  `fakeTCPConn.Write` accepts every write of the session that a
configuration leads to, exactly if its frame size is at most 65527 and survives the defaults:
the profile is `low_cpu`, or the size is above 32768. -/
theorem frames_fit_iff {defaultConfig : SmuxConfig} (hdefault : defaultConfig.FrameAsDocumented)
    (cfg : Config) :
    (sessionConfig defaultConfig cfg).Fits ↔
      cfg.mux.frameSize ≤ 65527 ∧ (cfg.LowCpu ∨ 32768 < cfg.mux.frameSize) := by
  rw [SmuxConfig.fits_iff, maxFrameSize_sessionConfig hdefault, ifPositive]
  split_ifs with hlow hpos hlarge
  · exact ⟨fun h => ⟨h, .inl hlow⟩, fun h => h.1⟩
  · exact iff_of_true (by decide) ⟨by omega, .inl hlow⟩
  · exact ⟨fun h => ⟨h, .inr hlarge⟩, fun h => h.1⟩
  · exact iff_of_false (by decide) fun h => h.2.elim hlow hlarge

/-- The values of `smux.DefaultConfig` in the version that the module file names. -/
def smuxDefault : SmuxConfig := ⟨10, 30, 32768, 4194304, 65536⟩

/-- A server with frames of 65000 bytes: they survive the defaults, and fit. -/
theorem frames_fit_large :
    smuxDefault.FrameAsDocumented ∧
      let cfg := Server.bareConfig "server" true ""
      (sessionConfig smuxDefault { cfg with mux := { cfg.mux with frameSize := 65000 } }).Fits := by
  have hdefault : smuxDefault.FrameAsDocumented := rfl
  exact ⟨hdefault, (frames_fit_iff hdefault _).2 ⟨by decide, .inr (by decide)⟩⟩

/-- **The frames of a default server do not fit.**  Mux is on and smux accepts the frame size,
which the defaults have raised to 65535; a full frame is a write of 65543 bytes. -/
theorem default_frames_refused :
    let cfg := Server.bareConfig "server" true ""
    (applyDefaults cfg).mux.enabled = true ∧ (sessionConfig smuxDefault cfg).FrameAccepted ∧
      (sessionConfig smuxDefault cfg).Writes (List.replicate 65543 0) ∧
      (FakeTCP.write (FakeTCP.newConn ⟨[], []⟩ []) (List.replicate 65543 0)).1
        = .error (.payloadTooLarge 65543) := by
  intro cfg
  have hframe : (sessionConfig smuxDefault cfg).maxFrameSize = 65535 := by decide
  refine ⟨by decide, by decide, ⟨?_, ?_⟩, ?_⟩
  · rw [List.length_replicate]
    omega
  · rw [List.length_replicate, hframe]
    decide
  · rw [FakeTCP.write, if_pos (by rw [List.length_replicate]; omega), List.length_replicate]

end Smux
