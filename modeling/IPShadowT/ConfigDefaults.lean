/-
# What the defaults do to a configuration that has been filled in

Two properties of `applyDefaults` (`internal/config/config.go`, lines 203 to 354) that are
not visible stage by stage.  Each stage compares with numbers that the other stages write:
`applyBufferProfile` takes a size that equals the default for one that was not set, and
`applyUploadDefaults` raises every size up to the default, whoever wrote it.

The two mux buffers and the frame size go through the same three stages with other
numbers.  `sizeAfter` is that scheme, and `applyDefaults_mux` and `applyDefaults_performance`
reduce the two results to it: `applyDefaults_applyDefaults`, that applying the defaults twice is
applying them once, and `explicitKept_iff`, which explicit sizes survive.
-/
import IPShadowT.Config

namespace Config

/-! ## One size through the three stages -/

theorem intDefault_of_ne {d x : Int} (h : x ≠ 0) : intDefault d x = x := if_neg h

theorem intDefault_ne_zero {d : Int} (hd : d ≠ 0) (x : Int) : intDefault d x ≠ 0 := by
  unfold intDefault
  split_ifs with h
  · exact hd
  · exact h

theorem intDefault_intDefault (d x : Int) : intDefault d (intDefault d x) = intDefault d x := by
  unfold intDefault
  split_ifs <;> rfl

theorem strDefault_strDefault (d x : String) : strDefault d (strDefault d x) = strDefault d x := by
  unfold strDefault
  split_ifs <;> rfl

/-- The size that a buffer profile puts in place of an unset one or of the default `d`. -/
def profiled (d : Int) (ofProfile : Option Int) (x : Int) : Int :=
  match ofProfile with
  | none => x
  | some b => if x = 0 ∨ x = d then b else x

/-- A mux size after the three stages: the default, the profile's size, and the size to which
everything up to the default is raised unless the profile is `low_cpu`. -/
def sizeAfter (d raised : Int) (low : Prop) [Decidable low] (ofProfile : Option Int) (x : Int) :
    Int :=
  let y := profiled d ofProfile (intDefault d x)
  if low then y else if y ≤ d then raised else y

/-- What the numbers in the source have in common: the default is positive, `low_cpu` is the
profile of the default, and the others go above it. -/
structure Sizes (d raised : Int) (low : Prop) (ofProfile : Option Int) : Prop where
  pos : 0 < d
  raises : d < raised
  ofLow : low → ∀ b ∈ ofProfile, b = d
  ofOther : ¬ low → ∀ b ∈ ofProfile, d < b

section Size

variable {d raised : Int} {low : Prop} {ofProfile : Option Int}

/-- A profile leaves a size that is neither unset nor the default. -/
theorem profiled_of_ne {x : Int} (h0 : x ≠ 0) (hd : x ≠ d) : profiled d ofProfile x = x := by
  cases ofProfile with
  | none => rfl
  | some b => exact if_neg (not_or.2 ⟨h0, hd⟩)

/-- The sizes of `low_cpu` are the defaults. -/
theorem Sizes.profiled_of_low (h : Sizes d raised low ofProfile) (hlow : low) {x : Int}
    (h0 : x ≠ 0) : profiled d ofProfile x = x := by
  by_cases hd : x = d
  · cases ofProfile with
    | none => rfl
    | some b =>
      have hb : b = d := h.ofLow hlow b rfl
      exact (if_pos (Or.inr hd)).trans (hb.trans hd.symm)
  · exact profiled_of_ne h0 hd

variable [Decidable low]

theorem Sizes.sizeAfter_of_low (h : Sizes d raised low ofProfile) (hlow : low) (x : Int) :
    sizeAfter d raised low ofProfile x = intDefault d x :=
  (if_pos hlow).trans (h.profiled_of_low hlow (intDefault_ne_zero (Int.ne_of_gt h.pos) x))

/-- Above the default a size is left alone. -/
theorem Sizes.sizeAfter_of_lt (h : Sizes d raised low ofProfile) {x : Int} (hx : d < x) :
    sizeAfter d raised low ofProfile x = x := by
  have hpos := h.pos
  have hkept : profiled d ofProfile (intDefault d x) = x := by
    rw [intDefault_of_ne (by omega), profiled_of_ne (by omega) (by omega)]
  unfold sizeAfter
  dsimp only
  rw [hkept, if_neg (Int.not_le.2 hx), ite_self]

/-- Without `low_cpu` no size stays at the default or below. -/
theorem Sizes.lt_sizeAfter (h : Sizes d raised low ofProfile) (hlow : ¬ low) (x : Int) :
    d < sizeAfter d raised low ofProfile x := by
  unfold sizeAfter
  dsimp only
  rw [if_neg hlow]
  split_ifs with hle
  · exact h.raises
  · exact Int.not_le.1 hle

/-- **A size that has been through the stages comes out of them unchanged.** -/
theorem Sizes.sizeAfter_sizeAfter (h : Sizes d raised low ofProfile) (x : Int) :
    sizeAfter d raised low ofProfile (sizeAfter d raised low ofProfile x)
      = sizeAfter d raised low ofProfile x := by
  by_cases hlow : low
  · rw [h.sizeAfter_of_low hlow, h.sizeAfter_of_low hlow, intDefault_intDefault]
  · exact h.sizeAfter_of_lt (h.lt_sizeAfter hlow x)

/-- **An explicit size survives** with `low_cpu`, or above the default. -/
theorem Sizes.sizeAfter_eq_self_iff (h : Sizes d raised low ofProfile) {x : Int} (h0 : x ≠ 0) :
    sizeAfter d raised low ofProfile x = x ↔ low ∨ d < x := by
  constructor
  · intro hkept
    by_cases hlow : low
    · exact Or.inl hlow
    · right
      rw [← hkept]
      exact h.lt_sizeAfter hlow x
  · rintro (hlow | hlt)
    · rw [h.sizeAfter_of_low hlow, intDefault_of_ne h0]
    · exact h.sizeAfter_of_lt hlt

end Size

/-! ## The configuration, field by field -/

/-- The profile is `low_cpu`, before the defaults and so after them. -/
def LowCpu (cfg : Config) : Prop := cfg.performance.bufferProfile = "low_cpu"

instance (cfg : Config) : Decidable cfg.LowCpu := instDecidableEqString _ _

/-- The sizes of the profile that `applyBufferProfile` goes by. -/
def profileSizes (cfg : Config) : Option BufferSizes :=
  bufferSizes (strDefault "balanced" cfg.performance.bufferProfile)

/-- The size of a profile for a socket buffer that is not set. -/
def socketProfiled (ofProfile : Option Int) (x : Int) : Int :=
  match ofProfile with
  | none => x
  | some b => intDefault b x

/-- A socket buffer after the three stages. -/
def socketAfter (low : Prop) [Decidable low] (ofProfile : Option Int) (x : Int) : Int :=
  if low then socketProfiled ofProfile x else intDefault 16777216 (socketProfiled ofProfile x)

theorem applyBufferProfile_mux (cfg : Config) :
    (applyBufferProfile cfg).mux =
      { cfg.mux with
        recvBuffer := profiled 4194304
          ((bufferSizes cfg.performance.bufferProfile).map BufferSizes.muxRecv) cfg.mux.recvBuffer
        streamBuffer := profiled 2097152
          ((bufferSizes cfg.performance.bufferProfile).map BufferSizes.muxStream)
          cfg.mux.streamBuffer } := by
  unfold applyBufferProfile
  cases bufferSizes cfg.performance.bufferProfile <;> rfl

theorem applyBufferProfile_performance (cfg : Config) :
    (applyBufferProfile cfg).performance =
      { cfg.performance with
        sendBuffer := socketProfiled
          ((bufferSizes cfg.performance.bufferProfile).map BufferSizes.sendBuf)
          cfg.performance.sendBuffer
        recvBuffer := socketProfiled
          ((bufferSizes cfg.performance.bufferProfile).map BufferSizes.recvBuf)
          cfg.performance.recvBuffer } := by
  unfold applyBufferProfile
  cases bufferSizes cfg.performance.bufferProfile <;> rfl

/-- The direct mode concerns one field of each record. -/
theorem directMode_fields (cfg : Config) :
    (directMode cfg).mux = { cfg.mux with enabled := (directMode cfg).mux.enabled }
      ∧ (directMode cfg).performance =
        { cfg.performance with
          nodelay := if cfg.mode = "client" then true else cfg.performance.nodelay } := by
  unfold directMode
  by_cases hclient : cfg.mode = "client"
  · simp only [if_pos hclient]
    split <;> exact ⟨rfl, rfl⟩
  · simp only [if_neg hclient]
    split <;> exact ⟨rfl, rfl⟩

/-- **The mux record that the defaults produce.**  `applyDefaults_muxEnabled` is about its first
field. -/
theorem applyDefaults_mux (cfg : Config) :
    (applyDefaults cfg).mux =
      { enabled := (applyDefaults cfg).mux.enabled
        concurrency := intDefault 8 cfg.mux.concurrency
        frameSize := sizeAfter 32768 65535 cfg.LowCpu none cfg.mux.frameSize
        recvBuffer := sizeAfter 4194304 16777216 cfg.LowCpu
          (cfg.profileSizes.map BufferSizes.muxRecv) cfg.mux.recvBuffer
        streamBuffer := sizeAfter 2097152 8388608 cfg.LowCpu
          (cfg.profileSizes.map BufferSizes.muxStream) cfg.mux.streamBuffer
        maxStreams := intDefault 1024 cfg.mux.maxStreams } := by
  rw [applyDefaults_stages]
  unfold sizeAfter
  by_cases h : cfg.LowCpu
  · simp only [if_pos (show cfg.performance.bufferProfile = "low_cpu" from h), if_pos h]
    rw [applyBufferProfile_mux]
    rfl
  · simp only [if_neg (show cfg.performance.bufferProfile ≠ "low_cpu" from h), if_neg h]
    rw [(directMode_fields _).1, raiseSizes, applyBufferProfile_mux]
    rfl

/-- **The performance record that the defaults produce.** -/
theorem applyDefaults_performance (cfg : Config) :
    (applyDefaults cfg).performance =
      { nodelay := if cfg.LowCpu then cfg.performance.nodelay
          else if cfg.mode = "client" then true else cfg.performance.nodelay
        keepAlive := intDefault 15 cfg.performance.keepAlive
        sendBuffer := socketAfter cfg.LowCpu (cfg.profileSizes.map BufferSizes.sendBuf)
          cfg.performance.sendBuffer
        recvBuffer := socketAfter cfg.LowCpu (cfg.profileSizes.map BufferSizes.recvBuf)
          cfg.performance.recvBuffer
        bufferProfile := strDefault "balanced" cfg.performance.bufferProfile
        workers := intDefault 4 cfg.performance.workers } := by
  have hmode : (raiseSizes (applyBufferProfile (fillUnset cfg))).mode = cfg.mode :=
    applyBufferProfile_mode (fillUnset cfg)
  rw [applyDefaults_stages]
  unfold socketAfter
  by_cases h : cfg.LowCpu
  · simp only [if_pos (show cfg.performance.bufferProfile = "low_cpu" from h), if_pos h]
    rw [applyBufferProfile_performance]
    rfl
  · simp only [if_neg (show cfg.performance.bufferProfile ≠ "low_cpu" from h), if_neg h]
    rw [(directMode_fields _).2, hmode, raiseSizes, applyBufferProfile_performance]
    rfl

/-! ## The numbers of the source -/

theorem lowCpu_iff (cfg : Config) :
    strDefault "balanced" cfg.performance.bufferProfile = "low_cpu" ↔ cfg.LowCpu :=
  fillUnset_bufferProfile_eq_iff cfg "low_cpu" (by decide) (by decide)

/-- Of the profiles, `low_cpu` has the default mux sizes and the others have larger ones. -/
theorem profileSizes_eq_some {cfg : Config} {b : BufferSizes} (h : cfg.profileSizes = some b) :
    (cfg.LowCpu ∧ b.muxRecv = 4194304 ∧ b.muxStream = 2097152)
      ∨ (¬ cfg.LowCpu ∧ 4194304 < b.muxRecv ∧ 2097152 < b.muxStream) := by
  rw [← lowCpu_iff]
  unfold profileSizes bufferSizes at h
  split at h
  case h_4 => cases h
  case h_3 hp =>
    cases h
    exact Or.inl ⟨hp, rfl, rfl⟩
  all_goals
    rename_i hp
    cases h
    rw [hp]
    exact Or.inr ⟨by decide, by decide, by decide⟩

/-- A mux size that the profiles set. -/
theorem sizes_profile (cfg : Config) {d raised : Int} (size : BufferSizes → Int) (hd : 0 < d)
    (hraised : d < raised)
    (hsize : ∀ b, cfg.profileSizes = some b →
      (cfg.LowCpu ∧ size b = d) ∨ (¬ cfg.LowCpu ∧ d < size b)) :
    Sizes d raised cfg.LowCpu (cfg.profileSizes.map size) := by
  refine ⟨hd, hraised, ?_, ?_⟩
  · intro hlow x hx
    obtain ⟨b, hb, rfl⟩ := Option.map_eq_some_iff.1 hx
    obtain ⟨-, heq⟩ | ⟨hnot, -⟩ := hsize b hb
    · exact heq
    · exact absurd hlow hnot
  · intro hlow x hx
    obtain ⟨b, hb, rfl⟩ := Option.map_eq_some_iff.1 hx
    obtain ⟨h, -⟩ | ⟨-, hlt⟩ := hsize b hb
    · exact absurd h hlow
    · exact hlt

theorem sizes_muxRecv (cfg : Config) :
    Sizes 4194304 16777216 cfg.LowCpu (cfg.profileSizes.map BufferSizes.muxRecv) := by
  refine sizes_profile cfg _ (by decide) (by decide) fun b hb => ?_
  exact (profileSizes_eq_some hb).imp (fun h => ⟨h.1, h.2.1⟩) fun h => ⟨h.1, h.2.1⟩

theorem sizes_muxStream (cfg : Config) :
    Sizes 2097152 8388608 cfg.LowCpu (cfg.profileSizes.map BufferSizes.muxStream) := by
  refine sizes_profile cfg _ (by decide) (by decide) fun b hb => ?_
  exact (profileSizes_eq_some hb).imp (fun h => ⟨h.1, h.2.2⟩) fun h => ⟨h.1, h.2.2⟩

/-- No profile sets the frame size. -/
theorem sizes_frame (cfg : Config) : Sizes 32768 65535 cfg.LowCpu none :=
  ⟨by decide, by decide, nofun, nofun⟩

/-! ## Twice is once -/

theorem socketAfter_of_ne (low : Prop) [Decidable low] (ofProfile : Option Int) {x : Int}
    (h : x ≠ 0) : socketAfter low ofProfile x = x := by
  have hprofiled : socketProfiled ofProfile x = x := by
    cases ofProfile with
    | none => rfl
    | some b => exact intDefault_of_ne h
  unfold socketAfter
  rw [hprofiled, intDefault_of_ne h, ite_self]

theorem socketAfter_socketAfter (low : Prop) [Decidable low] (ofProfile : Option Int) (x : Int) :
    socketAfter low ofProfile (socketAfter low ofProfile x) = socketAfter low ofProfile x := by
  by_cases h : x = 0
  · by_cases h' : socketAfter low ofProfile x = 0
    · rw [h', ← h, h', h]
    · exact socketAfter_of_ne low ofProfile h'
  · rw [socketAfter_of_ne low ofProfile h, socketAfter_of_ne low ofProfile h]

theorem fillUnset_fillUnset (cfg : Config) : fillUnset (fillUnset cfg) = fillUnset cfg := by
  simp only [fillUnset, intDefault_intDefault, strDefault_strDefault]
  -- what is left is the switch that turns the metrics of a server on
  by_cases hserver : cfg.mode = "server" <;> simp [hserver]

/-- A named profile is the same the second time. -/
theorem applyDefaults_bufferProfile_eq_iff (cfg : Config) (profile : String) (hne : profile ≠ "")
    (hbal : profile ≠ "balanced") :
    (applyDefaults cfg).performance.bufferProfile = profile
      ↔ cfg.performance.bufferProfile = profile := by
  rw [applyDefaults_performance]
  exact fillUnset_bufferProfile_eq_iff cfg profile hne hbal

theorem applyDefaults_lowCpu_iff (cfg : Config) : (applyDefaults cfg).LowCpu ↔ cfg.LowCpu :=
  applyDefaults_bufferProfile_eq_iff cfg "low_cpu" (by decide) (by decide)

theorem applyDefaults_profileSizes (cfg : Config) :
    (applyDefaults cfg).profileSizes = cfg.profileSizes := by
  unfold profileSizes
  rw [applyDefaults_performance, strDefault_strDefault]

theorem applyDefaults_mode (cfg : Config) : (applyDefaults cfg).mode = cfg.mode := by
  rw [applyDefaults_eq]
  rfl

theorem muxEnabled_applyDefaults (cfg : Config) :
    (applyDefaults (applyDefaults cfg)).mux.enabled = (applyDefaults cfg).mux.enabled := by
  have hlow := applyDefaults_bufferProfile_eq_iff cfg "low_cpu" (by decide) (by decide)
  have hboost := applyDefaults_bufferProfile_eq_iff cfg "upload_boost" (by decide) (by decide)
  rw [applyDefaults_muxEnabled (applyDefaults cfg), applyDefaults_mode]
  simp only [hlow, hboost]
  rw [applyDefaults_muxEnabled cfg]
  split_ifs <;> rfl

theorem mux_applyDefaults (cfg : Config) :
    (applyDefaults (applyDefaults cfg)).mux = (applyDefaults cfg).mux := by
  rw [applyDefaults_mux (applyDefaults cfg), muxEnabled_applyDefaults, applyDefaults_profileSizes]
  simp only [applyDefaults_lowCpu_iff]
  rw [applyDefaults_mux cfg]
  simp only [intDefault_intDefault, (sizes_frame cfg).sizeAfter_sizeAfter,
    (sizes_muxRecv cfg).sizeAfter_sizeAfter, (sizes_muxStream cfg).sizeAfter_sizeAfter]

theorem performance_applyDefaults (cfg : Config) :
    (applyDefaults (applyDefaults cfg)).performance = (applyDefaults cfg).performance := by
  rw [applyDefaults_performance (applyDefaults cfg), applyDefaults_profileSizes, applyDefaults_mode]
  simp only [applyDefaults_lowCpu_iff]
  rw [applyDefaults_performance cfg]
  simp only [intDefault_intDefault, strDefault_strDefault, socketAfter_socketAfter]
  split_ifs <;> rfl

/-- The fields that no later stage touches depend on the first stage alone. -/
theorem fillUnset_withSizes (cfg sizes other : Config) :
    (fillUnset (cfg.withSizes sizes)).withSizes other = (fillUnset cfg).withSizes other := rfl

/-- **Applying the defaults a second time changes nothing.** -/
theorem applyDefaults_applyDefaults (cfg : Config) :
    applyDefaults (applyDefaults cfg) = applyDefaults cfg := by
  have hsizes : ∀ c : Config, c.withSizes (applyDefaults (applyDefaults cfg))
      = c.withSizes (applyDefaults cfg) := by
    intro c
    rw [withSizes, mux_applyDefaults, performance_applyDefaults, withSizes]
  calc applyDefaults (applyDefaults cfg)
      = (fillUnset (applyDefaults cfg)).withSizes (applyDefaults cfg) := by
        rw [applyDefaults_eq (applyDefaults cfg), hsizes]
    _ = (fillUnset (fillUnset cfg)).withSizes (applyDefaults cfg) := by
        conv_lhs => rw [applyDefaults_eq cfg, fillUnset_withSizes, ← applyDefaults_eq cfg]
    _ = applyDefaults cfg := by rw [fillUnset_fillUnset, ← applyDefaults_eq]

/-! ## Explicit settings -/

/-- A setting `x`, if there was one, is still there in `y`. -/
def Kept (x y : Int) : Prop := x ≠ 0 → y = x

/-- Every size and count of the mux and performance records that was set is what it was. -/
structure ExplicitKept (before after : Config) : Prop where
  concurrency : Kept before.mux.concurrency after.mux.concurrency
  frameSize : Kept before.mux.frameSize after.mux.frameSize
  muxRecvBuffer : Kept before.mux.recvBuffer after.mux.recvBuffer
  streamBuffer : Kept before.mux.streamBuffer after.mux.streamBuffer
  maxStreams : Kept before.mux.maxStreams after.mux.maxStreams
  sendBuffer : Kept before.performance.sendBuffer after.performance.sendBuffer
  recvBuffer : Kept before.performance.recvBuffer after.performance.recvBuffer

theorem Sizes.kept_iff {d raised : Int} {low : Prop} [Decidable low] {ofProfile : Option Int}
    (h : Sizes d raised low ofProfile) (x : Int) :
    Kept x (sizeAfter d raised low ofProfile x) ↔ low ∨ x = 0 ∨ d < x := by
  unfold Kept
  by_cases h0 : x = 0
  · simp [h0]
  · rw [h.sizeAfter_eq_self_iff h0]
    simp [h0]

/-- **Which explicit settings survive the defaults**: all of them with the profile `low_cpu`, and
otherwise all but the frame size and the mux buffers that are not above their defaults, which
`applyUploadDefaults` takes for unset. -/
theorem explicitKept_iff (cfg : Config) :
    ExplicitKept cfg (applyDefaults cfg) ↔
      cfg.performance.bufferProfile = "low_cpu"
        ∨ ((cfg.mux.frameSize = 0 ∨ 32768 < cfg.mux.frameSize)
          ∧ (cfg.mux.recvBuffer = 0 ∨ 4194304 < cfg.mux.recvBuffer)
          ∧ (cfg.mux.streamBuffer = 0 ∨ 2097152 < cfg.mux.streamBuffer)) := by
  have hframe := (sizes_frame cfg).kept_iff cfg.mux.frameSize
  have hrecv := (sizes_muxRecv cfg).kept_iff cfg.mux.recvBuffer
  have hstream := (sizes_muxStream cfg).kept_iff cfg.mux.streamBuffer
  rw [or_and_left, or_and_left]
  change _ ↔ (cfg.LowCpu ∨ _) ∧ (cfg.LowCpu ∨ _) ∧ (cfg.LowCpu ∨ _)
  rw [← hframe, ← hrecv, ← hstream]
  constructor
  · intro h
    refine ⟨?_, ?_, ?_⟩
    · have := h.frameSize
      rwa [applyDefaults_mux] at this
    · have := h.muxRecvBuffer
      rwa [applyDefaults_mux] at this
    · have := h.streamBuffer
      rwa [applyDefaults_mux] at this
  · rintro ⟨h1, h2, h3⟩
    constructor
    all_goals first | rw [applyDefaults_mux] | rw [applyDefaults_performance]
    · exact intDefault_of_ne
    · exact h1
    · exact h2
    · exact h3
    · exact intDefault_of_ne
    · exact socketAfter_of_ne _ _
    · exact socketAfter_of_ne _ _

/-- A client's file that asks for frames of 16 KB and for a mux buffer of 1 MB. -/
def smallFrames : Config where
  mode := "client"
  logLevel := ""
  transport := "tcpmux"
  logFormat := ""
  mux := ⟨true, 4, 16384, 1048576, 0, 0⟩
  pool := ⟨0, 0, 0⟩
  heartbeat := ⟨true, 0, 0⟩
  performance := ⟨false, 0, 0, 0, "balanced", 0⟩
  antiDPI := ⟨"", "", ""⟩
  metrics := ⟨false, ""⟩

/-- Both are replaced, by 65535 bytes and by 16 MB. -/
theorem smallFrames_replaced :
    (applyDefaults smallFrames).mux.frameSize = 65535
      ∧ (applyDefaults smallFrames).mux.recvBuffer = 16777216
      ∧ ¬ ExplicitKept smallFrames (applyDefaults smallFrames) :=
  ⟨by decide, by decide, fun h => absurd (h.frameSize (by decide)) (by decide)⟩

end Config
