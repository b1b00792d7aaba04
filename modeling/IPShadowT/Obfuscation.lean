/-
# Traffic obfuscation

`Obfuscator` of `internal/antidpi/obfuscation.go`, a connection that hands what is written to
it on in chunks that look like browsing, like video, like bursts or like a constant rate.
The loops of the modes are `Chunker`s; the pauses between the chunks are left out.

The padding of the browsing mode is made and cut off again before the chunk is written.
`write_transparent` says that in all modes what reaches the connection is the front of the
buffer and is counted, in every state that earlier writes lead to.  Some constant rates make chunks
of no bytes, or of a negative size; `obfuscated_returns_iff` says when a call then comes to an end.
-/
import IPShadowT.ChunkedWrite
import IPShadowT.Runs

open ChunkedWrite Runs
open Go (Arch)

namespace Obfuscation

/-! ## Configuration -/

/-- `ObfuscationMode`; a string that names no mode is `other`. -/
inductive Mode where
  | mimicHTTPS
  | mimicVideo
  | randomBurst
  | constantRate
  | other (name : String)
  deriving DecidableEq, Repr

/-- `ObfuscationConfig` without the delays. -/
structure ObfuscationConfig where
  mode : Mode
  enabled : Bool
  paddingEnabled : Bool
  targetRate : Int
  deriving DecidableEq, Repr

/-- `DefaultObfuscationConfig`. -/
def defaultObfuscationConfig : ObfuscationConfig := ⟨.mimicHTTPS, true, true, 0⟩

/-- `randomRange`, where the random source gives `draw` below the size of the range. -/
def randomRange (draw min max : ℕ) : ℕ := if max ≤ min then min else draw % (max - min) + min

theorem le_randomRange (draw min max : ℕ) : min ≤ randomRange draw min max := by
  unfold randomRange
  split_ifs <;> omega

/-- What the random source gives in one round of a loop. -/
structure Draws where
  size : ℕ
  padSize : ℕ
  padding : ℕ → UInt8
  target : ℕ

/-! ## The modes -/

/-- `httpsMimicState`. -/
structure HttpsState where
  phase : ℕ
  phaseBytes : ℕ
  targetBytes : ℕ
  deriving DecidableEq, Repr

/-- `videoMimicState`, without the time of the last segment. -/
structure VideoState where
  segmentSize : ℕ
  segmentsSent : ℕ
  deriving DecidableEq, Repr

/-- The size of a chunk in a phase of `writeHTTPSMimic`; none is chosen in a phase that does
not exist. -/
def httpsChunkSize (phase draw : ℕ) : ℕ :=
  match phase with
  | 0 => randomRange draw 100 1500
  | 1 => randomRange draw 1400 16384
  | 2 => randomRange draw 20 100
  | _ => 0

/-- The number of bytes after which a phase ends. -/
def httpsTarget (phase draw : ℕ) (old : ℕ) : ℕ :=
  match phase with
  | 0 => randomRange draw 200 800
  | 1 => randomRange draw 5000 50000
  | 2 => randomRange draw 50 200
  | _ => old

/-- The phase transition of `writeHTTPSMimic`. -/
def HttpsState.advance (s : HttpsState) (chunkSize draw : ℕ) : HttpsState :=
  let s := { s with phaseBytes := s.phaseBytes + chunkSize }
  if s.phaseBytes ≥ s.targetBytes then
    let phase := (s.phase + 1) % 3
    ⟨phase, 0, httpsTarget phase draw s.targetBytes⟩
  else s

/-- The chunk with random padding behind it. -/
def padded (d : Draws) (chunk : Bytes) : Bytes :=
  chunk ++ (List.range (randomRange d.padSize 0 100)).map d.padding

/-- The loop of `writeHTTPSMimic`.  Its state has the number of the round. -/
def httpsMimic (paddingEnabled : Bool) (draws : ℕ → Draws) : Chunker (HttpsState × ℕ) where
  size := fun (s, i) => some (httpsChunkSize s.phase (draws i).size)
  emit := fun (_, i) b =>
    let chunk := if paddingEnabled ∧ b.length < 1400 then padded (draws i) b else b
    chunk.take b.length
  next := fun (s, i) n => (s.advance n (draws i).target, i + 1)

/-- The loop of `writeVideoMimic`. -/
def videoMimic (draws : ℕ → Draws) : Chunker (VideoState × ℕ) where
  size := fun (s, _) => some s.segmentSize
  emit := fun _ b => b
  next := fun (s, i) _ => (⟨randomRange (draws i).size 65536 262144, s.segmentsSent + 1⟩, i + 1)

/-- The loop of `writeRandomBurst`. -/
def randomBurst (draws : ℕ → Draws) : Chunker ℕ where
  size := fun i => some (randomRange (draws i).size 512 8192)
  emit := fun _ b => b
  next := fun i _ => i + 1

/-- The loop of `writeConstantRate`, with this many bytes in ten milliseconds. -/
def constantRate (bytesPerTick : ℕ) : Chunker Unit where
  size := fun _ => some bytesPerTick
  emit := fun _ b => b
  next := fun _ _ => ()

/-! ## The connection -/

/-- The mode, with the state that `NewObfuscator` makes for it. -/
inductive Shape where
  | mimicHTTPS (s : HttpsState)
  | mimicVideo (s : VideoState)
  | randomBurst
  | constantRate
  | other (name : String)
  deriving DecidableEq, Repr

def Shape.mode : Shape → Mode
  | mimicHTTPS _ => .mimicHTTPS
  | mimicVideo _ => .mimicVideo
  | randomBurst => .randomBurst
  | constantRate => .constantRate
  | other name => .other name

/-- `Obfuscator`. -/
structure Obfuscator where
  cfg : ObfuscationConfig
  shape : Shape
  conn : Recorder
  deriving DecidableEq, Repr

/-- `NewObfuscator`. -/
def newObfuscator (conn : Recorder) (cfg : ObfuscationConfig) (draw : ℕ) : Obfuscator :=
  let shape : Shape :=
    match cfg.mode with
    | .mimicHTTPS => .mimicHTTPS ⟨0, 0, randomRange draw 200 800⟩
    | .mimicVideo => .mimicVideo ⟨randomRange draw 65536 262144, 0⟩
    | .randomBurst => .randomBurst
    | .constantRate => .constantRate
    | .other name => .other name
  ⟨cfg, shape, conn⟩

/-- `o.conn.Write(p)`. -/
def writeDirect (o : Obfuscator) (p : Bytes) : Outcome × Obfuscator :=
  let (n, ok, conn) := o.conn.write p
  (.returned n ok, { o with conn := conn })

/-- `Write`, in at most `fuel` rounds of its loop. -/
def write (a : Arch) (fuel : ℕ) (o : Obfuscator) (p : Bytes) (draws : ℕ → Draws) :
    Outcome × Obfuscator :=
  if ¬ o.cfg.enabled then writeDirect o p
  else
    match o.shape with
    | .mimicHTTPS s =>
      let (outcome, (s, _), conn) :=
        loop (httpsMimic o.cfg.paddingEnabled draws) fuel (s, 0) o.conn p 0
      (outcome, { o with shape := .mimicHTTPS s, conn := conn })
    | .mimicVideo s =>
      let (outcome, (s, _), conn) := loop (videoMimic draws) fuel (s, 0) o.conn p 0
      (outcome, { o with shape := .mimicVideo s, conn := conn })
    | .randomBurst =>
      let (outcome, _, conn) := loop (randomBurst draws) fuel 0 o.conn p 0
      (outcome, { o with conn := conn })
    | .constantRate =>
      if o.cfg.targetRate ≤ 0 then writeDirect o p
      else
        let chunkSize := a.int (o.cfg.targetRate / 100)
        -- `remaining[:chunkSize]` in the first round
        if chunkSize < 0 ∧ p ≠ [] then (.panic, o)
        else
          let (outcome, _, conn) := loop (constantRate chunkSize.toNat) fuel () o.conn p 0
          (outcome, { o with conn := conn })
    | .other _ => writeDirect o p

/-- A call of `Write`, up to some number of rounds. -/
structure WriteCall where
  fuel : ℕ
  p : Bytes
  draws : ℕ → Draws

def step (a : Arch) (o : Obfuscator) (call : WriteCall) : Obfuscator :=
  (write a call.fuel o call.p call.draws).2

/-! ## Every mode sends the front of the buffer -/

/-- The padding is cut off again. -/
theorem httpsMimic_emit (paddingEnabled : Bool) (draws : ℕ → Draws) (s : HttpsState × ℕ)
    (b : Bytes) : (httpsMimic paddingEnabled draws).emit s b = b := by
  simp only [httpsMimic]
  split_ifs
  · exact List.take_left
  · exact List.take_length

theorem httpsChunkSize_pos {phase : ℕ} (h : phase ≤ 2) (draw : ℕ) :
    0 < httpsChunkSize phase draw := by
  have h100 := le_randomRange draw 100 1500
  have h1400 := le_randomRange draw 1400 16384
  have h20 := le_randomRange draw 20 100
  obtain rfl | rfl | rfl : phase = 0 ∨ phase = 1 ∨ phase = 2 := by omega
  · exact Nat.lt_of_lt_of_le (by omega) h100
  · exact Nat.lt_of_lt_of_le (by omega) h1400
  · exact Nat.lt_of_lt_of_le (by omega) h20

/-- The phases are 0, 1 and 2. -/
theorem advance_phase_le {s : HttpsState} (h : s.phase ≤ 2) (chunkSize draw : ℕ) :
    (s.advance chunkSize draw).phase ≤ 2 := by
  unfold HttpsState.advance
  dsimp only
  split_ifs
  · show (s.phase + 1) % 3 ≤ 2
    omega
  · exact h

theorem httpsMimic_steady (paddingEnabled : Bool) (draws : ℕ → Draws) :
    (httpsMimic paddingEnabled draws).Steady fun t => t.1.phase ≤ 2 where
  emit_eq := httpsMimic_emit paddingEnabled draws
  next := fun _ n h => advance_phase_le h n _
  size_pos := by
    rintro t _ h ⟨⟩
    exact httpsChunkSize_pos h _

theorem videoMimic_steady (draws : ℕ → Draws) :
    (videoMimic draws).Steady fun t => 0 < t.1.segmentSize where
  emit_eq := fun _ _ => rfl
  next := fun t _ _ => Nat.lt_of_lt_of_le (by omega) (le_randomRange (draws t.2).size 65536 262144)
  size_pos := by
    rintro t _ h ⟨⟩
    exact h

theorem randomBurst_steady (draws : ℕ → Draws) : (randomBurst draws).Steady fun _ => True where
  emit_eq := fun _ _ => rfl
  next := fun _ _ => id
  size_pos := by
    rintro i _ - ⟨⟩
    exact Nat.lt_of_lt_of_le (by omega) (le_randomRange (draws i).size 512 8192)

theorem constantRate_steady {bytesPerTick : ℕ} (h : 0 < bytesPerTick) :
    (constantRate bytesPerTick).Steady fun _ => True where
  emit_eq := fun _ _ => rfl
  next := fun _ _ => id
  size_pos := by
    rintro _ _ - ⟨⟩
    exact h

/-- The state is one in which every chunk has a size. -/
def Shape.Valid : Shape → Prop
  | .mimicHTTPS s => s.phase ≤ 2
  | .mimicVideo s => 0 < s.segmentSize
  | .randomBurst | .constantRate | .other _ => True

/-- A constant rate has chunks of at least one byte. -/
def Paced (a : Arch) (cfg : ObfuscationConfig) : Prop :=
  cfg.mode = .constantRate → cfg.targetRate ≤ 0 ∨ 0 < a.int (cfg.targetRate / 100)

/-- What a call of `Write` does, in at most `fuel` rounds. -/
structure WriteSpec (a : Arch) (fuel : ℕ) (o : Obfuscator) (p : Bytes)
    (r : Outcome × Obfuscator) : Prop where
  sends : SendsPrefix o.conn r.2.conn p 0 r.1
  cfg : r.2.cfg = o.cfg
  mode : r.2.shape.mode = o.shape.mode
  valid : r.2.shape.Valid
  /-- in the mimic and burst modes no chunk is empty -/
  chunks : o.cfg.enabled = true → o.shape.mode ∈ [.mimicHTTPS, .mimicVideo, .randomBurst] →
    ∃ chunks, r.2.conn.calls = o.conn.calls ++ chunks ∧ ∀ c ∈ chunks, c ≠ []
  /-- only a constant rate with chunks of no or a negative size may keep the call from returning -/
  returns : Paced a o.cfg → o.shape.mode = o.cfg.mode → p.length < fuel →
    (∃ n ok, r.1 = .returned n ok) ∧ (o.conn.sink.NeverFails → r.1 = .returned p.length true)

section Write

variable (a : Arch) (fuel : ℕ) {o : Obfuscator} (p : Bytes) (draws : ℕ → Draws)

/-- A write that is handed on as it is. -/
theorem writeDirect_spec (hvalid : o.shape.Valid)
    (hmode : o.cfg.enabled = true →
      o.shape.mode ∉ [Mode.mimicHTTPS, Mode.mimicVideo, Mode.randomBurst]) :
    WriteSpec a fuel o p (writeDirect o p) where
  sends := sendsPrefix_write o.conn p
  cfg := rfl
  mode := rfl
  valid := hvalid
  chunks := fun henabled hmem => absurd hmem (hmode henabled)
  returns := by
    refine fun _ _ _ => ⟨⟨_, _, rfl⟩, fun hnever => ?_⟩
    obtain ⟨sent, -, -, htaken, hall⟩ := o.conn.write_sent p
    have hok : (o.conn.write p).2.1 = true :=
      ((o.conn.sink.lasts_succ p 0).1 (hnever.lasts 1)).1
    rw [hall hok] at htaken
    exact congrArg₂ Outcome.returned htaken hok

/-- A loop with chunks of at least one byte returns, and writes all if no write fails. -/
theorem loop_returned {σ : Type} {k : Chunker σ} {I : σ → Prop} (hk : k.Steady I)
    (hsome : ∀ s, k.size s ≠ none) {s : σ} (hs : I s) (conn : Recorder) (hfuel : p.length < fuel) :
    (∃ n ok, (loop k fuel s conn p 0).1 = .returned n ok) ∧
      (conn.sink.NeverFails → (loop k fuel s conn p 0).1 = .returned p.length true) := by
  refine ⟨loop_returns hk fuel hs conn p 0 hfuel, fun hnever => ?_⟩
  rw [loop_all hk fuel hs conn p 0 hsome hnever hfuel, Nat.zero_add]

/-- A constant rate that is positive. -/
theorem write_constantRate_spec {cfg : ObfuscationConfig} (conn : Recorder)
    (hrate : ¬ cfg.targetRate ≤ 0) :
    let r := loop (constantRate (a.int (cfg.targetRate / 100)).toNat) fuel () conn p 0
    WriteSpec a fuel ⟨cfg, .constantRate, conn⟩ p (r.1, ⟨cfg, .constantRate, r.2.2⟩) where
  sends := loop_sent _ (fun _ _ => rfl) fuel () conn p 0
  cfg := rfl
  mode := rfl
  valid := trivial
  chunks := fun _ hmem => absurd hmem (by simp [Shape.mode])
  returns := by
    intro hpaced hmode hfuel
    have hpos : 0 < (a.int (cfg.targetRate / 100)).toNat :=
      Int.lt_toNat.2 ((hpaced hmode.symm).resolve_left hrate)
    exact loop_returned fuel p (constantRate_steady hpos) (fun _ => nofun) trivial conn hfuel

/-- **One call of `Write`.** -/
theorem write_spec (hvalid : o.shape.Valid) : WriteSpec a fuel o p (write a fuel o p draws) := by
  obtain ⟨cfg, shape, conn⟩ := o
  by_cases henabled : cfg.enabled = true
  · simp only [write, henabled, not_true_eq_false, if_false]
    cases shape with
    | mimicHTTPS s =>
      have hk := httpsMimic_steady cfg.paddingEnabled draws
      have hs : (s, 0).1.phase ≤ 2 := hvalid
      exact ⟨loop_sent _ hk.emit_eq .., rfl, rfl, loop_state hk fuel hs conn p 0,
        fun _ _ => loop_calls hk fuel hs conn p 0,
        fun _ _ => loop_returned fuel p hk (fun _ => nofun) hs conn⟩
    | mimicVideo s =>
      have hk := videoMimic_steady draws
      have hs : 0 < (s, 0).1.segmentSize := hvalid
      exact ⟨loop_sent _ hk.emit_eq .., rfl, rfl, loop_state hk fuel hs conn p 0,
        fun _ _ => loop_calls hk fuel hs conn p 0,
        fun _ _ => loop_returned fuel p hk (fun _ => nofun) hs conn⟩
    | randomBurst =>
      have hk := randomBurst_steady draws
      exact ⟨loop_sent _ hk.emit_eq .., rfl, rfl, trivial,
        fun _ _ => loop_calls hk fuel trivial conn p 0,
        fun _ _ => loop_returned fuel p hk (fun _ => nofun) trivial conn⟩
    | constantRate =>
      dsimp only
      split_ifs with hrate hneg
      · exact writeDirect_spec a fuel p hvalid fun _ => by simp [Shape.mode]
      · -- the panic comes before anything is written
        refine ⟨⟨[], List.nil_prefix, (List.append_nil _).symm, nofun⟩, rfl, rfl, trivial,
          fun _ hmem => absurd hmem (by simp [Shape.mode]), fun hpaced hmode => ?_⟩
        exact absurd ((hpaced hmode.symm).resolve_left hrate) (Int.not_lt.2 hneg.1.le)
      · exact write_constantRate_spec a fuel p conn hrate
    | other name => exact writeDirect_spec a fuel p hvalid fun _ => by simp [Shape.mode]
  · simp only [write, henabled]
    exact writeDirect_spec a fuel p hvalid fun h => absurd h henabled

end Write

variable {a : Arch}

/-- What holds of an obfuscator made with the configuration `cfg`, after any calls. -/
def Kept (cfg : ObfuscationConfig) (o : Obfuscator) : Prop :=
  o.cfg = cfg ∧ o.shape.mode = cfg.mode ∧ o.shape.Valid

theorem kept_newObfuscator (conn : Recorder) (cfg : ObfuscationConfig) (draw : ℕ) :
    Kept cfg (newObfuscator conn cfg draw) := by
  obtain ⟨mode, enabled, paddingEnabled, targetRate⟩ := cfg
  cases mode with
  | mimicHTTPS => exact ⟨rfl, rfl, Nat.zero_le 2⟩
  | mimicVideo =>
    exact ⟨rfl, rfl, Nat.lt_of_lt_of_le (by omega) (le_randomRange draw 65536 262144)⟩
  | randomBurst => exact ⟨rfl, rfl, trivial⟩
  | constantRate => exact ⟨rfl, rfl, trivial⟩
  | other name => exact ⟨rfl, rfl, trivial⟩

theorem kept_step {cfg : ObfuscationConfig} (o : Obfuscator) (call : WriteCall) (h : Kept cfg o) :
    Kept cfg (step a o call) := by
  obtain ⟨hcfg, hmode, hvalid⟩ := h
  have hspec := write_spec a call.fuel call.p call.draws hvalid
  exact ⟨hspec.cfg.trans hcfg, hspec.mode.trans hmode, hspec.valid⟩

/-- **`Write` is transparent and counts.**  After any calls, of any length and with any
failures of the connection, a call has sent what is at the front of its buffer and nothing
else, whether it is looked at while it runs or when it has returned.  The count it returns is
the number of bytes sent, and without an error these are all.  The phase of the browsing mode
is 0, 1 or 2, and no chunk of a mimic or burst mode is empty.  Calls return, and write all if no
write fails, unless the rate is constant and makes chunks of no or a negative size. -/
theorem write_transparent (a : Arch) (conn : Recorder) (cfg : ObfuscationConfig) (draw : ℕ)
    (calls : List WriteCall) (call : WriteCall) :
    let o := run (step a) (newObfuscator conn cfg draw) calls
    let r := write a call.fuel o call.p call.draws
    SendsPrefix o.conn r.2.conn call.p 0 r.1 ∧
      (∀ s, r.2.shape = .mimicHTTPS s → s.phase ∈ [0, 1, 2]) ∧
      (cfg.enabled = true → cfg.mode ∈ [.mimicHTTPS, .mimicVideo, .randomBurst] →
        ∃ chunks, r.2.conn.calls = o.conn.calls ++ chunks ∧ ∀ c ∈ chunks, c ≠ []) ∧
      (Paced a cfg → call.p.length < call.fuel → (∃ n ok, r.1 = .returned n ok) ∧
        (o.conn.sink.NeverFails → r.1 = .returned call.p.length true)) := by
  intro o r
  obtain ⟨hcfg, hmode, hvalid⟩ : Kept cfg o :=
    run_invariant kept_step (kept_newObfuscator conn cfg draw) calls
  have hspec : WriteSpec a call.fuel o call.p r := write_spec a call.fuel call.p call.draws hvalid
  rw [← hcfg] at hmode ⊢
  refine ⟨hspec.sends, ?_, hmode ▸ hspec.chunks, fun hpaced => hspec.returns hpaced hmode⟩
  intro s hs
  have hphase : s.phase ≤ 2 := by
    have := hspec.valid
    rwa [hs] at this
  simp only [List.mem_cons, List.not_mem_nil, or_false]
  omega

/-- A buffer whose second chunk the connection refuses in part. -/
example :
    write .bits64 9 (newObfuscator ⟨⟨[], [none, some 50]⟩, []⟩ defaultObfuscationConfig 0)
        (List.replicate 300 7) (fun _ => ⟨0, 3, fun _ => 9, 0⟩)
      = (.returned 150 false,
          ⟨defaultObfuscationConfig, .mimicHTTPS ⟨0, 100, 200⟩,
            ⟨⟨List.replicate 150 7, []⟩, [List.replicate 100 7, List.replicate 100 7]⟩⟩) := by
  decide +kernel

/-! ## Chunks of no bytes

`writeConstantRate` divides the rate by a hundred and makes an `int` of it.  A chunk of no bytes
does not shorten what is left, and a chunk of a negative size panics. -/

/-- The call returns after some number of rounds. -/
def Returns (a : Arch) (o : Obfuscator) (p : Bytes) (draws : ℕ → Draws) : Prop :=
  ∃ fuel n ok, (write a fuel o p draws).1 = .returned n ok

theorem constantRate_idle : (constantRate 0).Idle where
  size_zero := fun _ => rfl
  emit_nil := fun _ => rfl

theorem write_constantRate (fuel : ℕ) {o : Obfuscator} (p : Bytes) (draws : ℕ → Draws)
    (henabled : o.cfg.enabled = true) (hmode : o.shape.mode = .constantRate)
    (hrate : 0 < o.cfg.targetRate) :
    (write a fuel o p draws).1 =
      if a.int (o.cfg.targetRate / 100) < 0 ∧ p ≠ [] then .panic
      else (loop (constantRate (a.int (o.cfg.targetRate / 100)).toNat) fuel () o.conn p 0).1 := by
  obtain ⟨cfg, shape, conn⟩ := o
  obtain rfl : shape = .constantRate := by
    cases shape <;> first | rfl | cases hmode
  rw [write, if_neg (not_not.2 henabled)]
  dsimp only
  rw [if_neg (Int.not_le.2 hrate)]
  split_ifs <;> rfl

/-- At a constant rate, the call returns exactly if it has nothing to write, or its chunks have
a size, or they are empty and a write fails. -/
theorem returns_iff_of_constantRate {o : Obfuscator} (p : Bytes) (draws : ℕ → Draws)
    (henabled : o.cfg.enabled = true) (hmode : o.shape.mode = .constantRate)
    (hrate : 0 < o.cfg.targetRate) :
    Returns a o p draws ↔ ¬ (p ≠ [] ∧ (a.int (o.cfg.targetRate / 100) < 0 ∨
      (a.int (o.cfg.targetRate / 100) = 0 ∧ o.conn.sink.NeverFails))) := by
  have hloop := fun fuel => write_constantRate (a := a) fuel p draws henabled hmode hrate
  by_cases hne : p = []
  · subst hne
    refine iff_of_true ⟨1, 0, true, ?_⟩ fun h => h.1 rfl
    rw [hloop, if_neg fun h => h.2 rfl]
    rfl
  rcases lt_trichotomy (a.int (o.cfg.targetRate / 100)) 0 with hneg | hzero | hpos
  · refine iff_of_false ?_ (not_not.2 ⟨hne, .inl hneg⟩)
    rintro ⟨fuel, n, ok, hret⟩
    rw [hloop, if_pos ⟨hneg, hne⟩] at hret
    cases hret
  · simp only [hzero, lt_irrefl, false_and, if_false, Int.toNat_zero] at hloop
    simp only [hzero, lt_irrefl, false_or, true_and, not_and]
    constructor
    · rintro ⟨fuel, n, ok, hret⟩ _ hnever
      rw [hloop, loop_running_of_idle constantRate_idle hne fuel () hnever] at hret
      cases hret
    · intro hfails
      obtain ⟨fuel, n, ok, hret⟩ := loop_returns_of_idle constantRate_idle hne () (hfails hne) 0
      exact ⟨fuel, n, ok, (hloop fuel).trans hret⟩
  · refine iff_of_true ?_ ?_
    · obtain ⟨n, ok, hret⟩ := loop_returns (constantRate_steady (Int.lt_toNat.2 hpos))
        (p.length + 1) trivial o.conn p 0 (Nat.lt_succ_self _)
      refine ⟨p.length + 1, n, ok, ?_⟩
      rw [hloop, if_neg fun h => Int.lt_asymm h.1 hpos, hret]
    · rintro ⟨-, hneg | ⟨hzero, -⟩⟩ <;> omega

/-- **When `Write` comes to an end.**  After any calls, in every mode and at every rate, a call
returns after finitely many writes, unless the mode is constant rate with a positive rate, there
is something to write, and the hundredth of the rate, as an `int`, is negative, or it is zero and
no write fails. -/
theorem obfuscated_returns_iff (a : Arch) (conn : Recorder) (cfg : ObfuscationConfig) (draw : ℕ)
    (calls : List WriteCall) (p : Bytes) (draws : ℕ → Draws) :
    let o := run (step a) (newObfuscator conn cfg draw) calls
    Returns a o p draws ↔
      ¬ (cfg.enabled = true ∧ cfg.mode = .constantRate ∧ 0 < cfg.targetRate ∧ p ≠ [] ∧
        (a.int (cfg.targetRate / 100) < 0 ∨
          (a.int (cfg.targetRate / 100) = 0 ∧ o.conn.sink.NeverFails))) := by
  intro o
  obtain ⟨hcfg, hmode, hvalid⟩ : Kept cfg o :=
    run_invariant kept_step (kept_newObfuscator conn cfg draw) calls
  by_cases hrate : cfg.enabled = true ∧ cfg.mode = .constantRate ∧ 0 < cfg.targetRate
  · obtain ⟨henabled, hconstant, hpos⟩ := hrate
    rw [← hcfg] at henabled hpos
    rw [returns_iff_of_constantRate p draws henabled (hmode.trans hconstant) hpos, hcfg]
    rw [hcfg] at henabled hpos
    rw [and_iff_right henabled, and_iff_right hconstant, and_iff_right hpos]
  · refine iff_of_true ?_ fun h => hrate ⟨h.1, h.2.1, h.2.2.1⟩
    by_cases henabled : cfg.enabled = true
    · have hspec := write_spec a (p.length + 1) p draws hvalid
      rw [← hcfg] at hmode
      refine ⟨p.length + 1, (hspec.returns (fun hconstant => .inl ?_) hmode (Nat.lt_succ_self _)).1⟩
      rw [hcfg] at hconstant ⊢
      exact Int.not_lt.1 fun hpos => hrate ⟨henabled, hconstant, hpos⟩
    · refine ⟨0, (o.conn.write p).1, (o.conn.write p).2.1, ?_⟩
      rw [write, if_pos (by rwa [hcfg])]
      rfl

/-- **Fifty bytes a second are never sent**: not one byte of a buffer of one.  Neither are 4 GiB in
ten milliseconds, with an `int` of 32 bits. -/
theorem low_rate_never_returns :
    ¬ Returns .bits64 (newObfuscator ⟨⟨[], []⟩, []⟩ ⟨.constantRate, true, false, 50⟩ 0) [7]
      (fun _ => ⟨0, 0, fun _ => 0, 0⟩) ∧
    ¬ Returns .bits32 (newObfuscator ⟨⟨[], []⟩, []⟩ ⟨.constantRate, true, false, 429496729600⟩ 0)
      [7] (fun _ => ⟨0, 0, fun _ => 0, 0⟩) := by
  have hnever : Sink.NeverFails ⟨[], []⟩ := fun k hk => by cases hk
  constructor
  · rw [returns_iff_of_constantRate _ _ rfl rfl (by decide), not_not]
    exact ⟨List.cons_ne_nil _ _, .inr ⟨by decide, hnever⟩⟩
  · rw [returns_iff_of_constantRate _ _ rfl rfl (by decide), not_not]
    exact ⟨List.cons_ne_nil _ _, .inr ⟨by decide, hnever⟩⟩

end Obfuscation
