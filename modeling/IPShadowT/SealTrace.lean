/-
# Runs of one `Encryptor`: which messages are sealed under which nonce

`EncryptedWriter.Write` and `WriteEncryptedFrame` of `internal/crypto/aead.go`
put a frame on a writer; like `Encrypt` itself they reach the cipher only
through `Encrypt`.  A run is any list of such calls on one `Encryptor`.

`frames` is the abstract account of a run: the payloads that were sealed, each
with the nonce drawn for it.  `run_seals` connects it to the code: the `Seal`
invocations of the run are, frame by frame, the two-byte length and the payload
under the SAME nonce.  Two things follow:

* `nonceRespecting_iff`: when no nonce is used for two messages;
* `decrypt_authentic_iff`: when everything that `Decrypt` accepts is a payload of
  the run, for an ideal cipher.
-/
import IPShadowT.Aead
import IPShadowT.Runs
import IPShadowT.Stream

open Bytes Runs

namespace Encryptor

/-! ## The calls -/

/-- The common body of `EncryptedWriter.Write` and `WriteEncryptedFrame`: encrypt,
then write a four-byte length and the frame. -/
def sendFrame (A : Aead) (rand : ℕ → Option Nonce) (data : Bytes) (w : World) (writer : Sink) :
    Go CryptoError Unit × World × Sink :=
  match encrypt A rand data w with
  | (.error e, w') => (.error e, w', writer)
  | (.ok encrypted, w') =>
    match writer.write (beBytes 4 encrypted.length) with
    | (false, writer₁) => (.error (.error .write), w', writer₁)
    | (true, writer₁) =>
      match writer₁.write encrypted with
      | (false, writer₂) => (.error (.error .write), w', writer₂)
      | (true, writer₂) => (.ok (), w', writer₂)

/-- `EncryptedWriter.Write`: the count is that of the plaintext. -/
def write (A : Aead) (rand : ℕ → Option Nonce) (p : Bytes) (w : World) (writer : Sink) :
    Go CryptoError ℕ × World × Sink :=
  let (r, w', writer') := sendFrame A rand p w writer
  (r.map fun _ => p.length, w', writer')

/-- `WriteEncryptedFrame`. -/
def writeEncryptedFrame (A : Aead) (rand : ℕ → Option Nonce) (data : Bytes) (w : World)
    (writer : Sink) : Go CryptoError Unit × World × Sink :=
  sendFrame A rand data w writer

/-- A call on the `Encryptor`; a call that writes comes with its writer. -/
inductive Call where
  | encrypt (plaintext : Bytes)
  | write (p : Bytes) (writer : Sink)
  | writeEncryptedFrame (writer : Sink) (data : Bytes)

/-- What the call encrypts. -/
def Call.plaintext : Call → Bytes
  | .encrypt p => p
  | .write p _ => p
  | .writeEncryptedFrame _ p => p

/-- The world after a call. -/
def step (A : Aead) (rand : ℕ → Option Nonce) (w : World) : Call → World
  | .encrypt p => (encrypt A rand p w).2
  | .write p writer => (write A rand p w writer).2.1
  | .writeEncryptedFrame writer p => (writeEncryptedFrame A rand p w writer).2.1

/-- The world before the first call. -/
def World.init : World := ⟨0, []⟩

theorem sendFrame_world (A : Aead) (rand : ℕ → Option Nonce) (data : Bytes) (w : World)
    (writer : Sink) : (sendFrame A rand data w writer).2.1 = (encrypt A rand data w).2 := by
  unfold sendFrame
  rcases encrypt A rand data w with ⟨_ | encrypted, w'⟩
  · rfl
  · dsimp only
    rcases writer.write (beBytes 4 encrypted.length) with ⟨_ | _, writer₁⟩
    · rfl
    · dsimp only
      rcases writer₁.write encrypted with ⟨_ | _, writer₂⟩ <;> rfl

/-- Whatever the call, the world changes as `Encrypt` changes it. -/
theorem step_eq (A : Aead) (rand : ℕ → Option Nonce) (w : World) (call : Call) :
    step A rand w call = (encrypt A rand call.plaintext w).2 := by
  cases call with
  | encrypt p => rfl
  | write p writer => exact sendFrame_world A rand p w writer
  | writeEncryptedFrame writer p => exact sendFrame_world A rand p w writer

/-! ## The frames of a run -/

/-- The payloads that a run seals, each with its nonce, when the random source has
been read `d` times before. -/
def frames (rand : ℕ → Option Nonce) : ℕ → List Call → List (Nonce × Bytes)
  | _, [] => []
  | d, call :: calls =>
    if call.plaintext.length ≤ maxPayloadSize then
      match rand d with
      | none => frames rand (d + 1) calls
      | some nonce => (nonce, call.plaintext) :: frames rand (d + 1) calls
    else frames rand d calls

/-- The `Seal` invocations behind one frame. -/
def sealsOf (f : Nonce × Bytes) : List SealCall :=
  [⟨f.1, beBytes lengthSize f.2.length⟩, ⟨f.1, f.2⟩]

/-- **The trace of a run**: frame by frame, the length and the payload. -/
theorem run_seals (A : Aead) (rand : ℕ → Option Nonce) (w : World) (calls : List Call) :
    (run (step A rand) w calls).seals
      = w.seals ++ (frames rand w.draws calls).flatMap sealsOf := by
  induction calls generalizing w with
  | nil => simp [frames]
  | cons call calls ih =>
    rw [run_cons, ih, step_eq, frames]
    by_cases hp : call.plaintext.length ≤ maxPayloadSize
    · rw [if_pos hp]
      cases hr : rand w.draws with
      | none => rw [encrypt_of_noRandom A hp hr]
      | some nonce =>
        rw [encrypt_of_accepts A ⟨hp, hr⟩]
        simp [sealsOf]
    · rw [if_neg hp, encrypt_of_tooLarge A rand hp]

/-- The random source never returns a value twice. -/
def NeverRepeats (rand : ℕ → Option Nonce) : Prop :=
  ∀ i j nonce, rand i = some nonce → rand j = some nonce → i = j

/-- A frame of the run has a nonce drawn during the run and a payload that fits. -/
theorem exists_draw_of_mem_frames {rand : ℕ → Option Nonce} {calls : List Call} {d : ℕ}
    {f : Nonce × Bytes} (hf : f ∈ frames rand d calls) :
    (∃ i, d ≤ i ∧ rand i = some f.1) ∧ f.2.length ≤ maxPayloadSize := by
  induction calls generalizing d with
  | nil => simp [frames] at hf
  | cons call calls ih =>
    rw [frames] at hf
    split_ifs at hf with hp
    · cases hr : rand d with
      | none =>
        rw [hr] at hf
        obtain ⟨⟨i, hi, hri⟩, hlen⟩ := ih hf
        exact ⟨⟨i, by omega, hri⟩, hlen⟩
      | some nonce =>
        rw [hr] at hf
        rcases List.mem_cons.mp hf with rfl | hf
        · exact ⟨⟨d, le_rfl, hr⟩, hp⟩
        · obtain ⟨⟨i, hi, hri⟩, hlen⟩ := ih hf
          exact ⟨⟨i, by omega, hri⟩, hlen⟩
    · exact ih hf

/-- With a source that never repeats, a nonce determines its frame. -/
theorem frame_eq_of_nonce_eq {rand : ℕ → Option Nonce} (hrand : NeverRepeats rand)
    {calls : List Call} {d : ℕ} {f g : Nonce × Bytes} (hf : f ∈ frames rand d calls)
    (hg : g ∈ frames rand d calls) (h : f.1 = g.1) : f = g := by
  induction calls generalizing d with
  | nil => simp [frames] at hf
  | cons call calls ih =>
    rw [frames] at hf hg
    split_ifs at hf hg with hp
    · cases hr : rand d with
      | none =>
        rw [hr] at hf hg
        exact ih hf hg
      | some nonce =>
        rw [hr] at hf hg
        -- a later frame with the nonce drawn here would repeat the draw
        have hlater : ∀ k ∈ frames rand (d + 1) calls, k.1 ≠ nonce := by
          intro k hk hkn
          obtain ⟨⟨i, hi, hri⟩, -⟩ := exists_draw_of_mem_frames hk
          have := hrand i d nonce (hkn ▸ hri) hr
          omega
        rcases List.mem_cons.mp hf with rfl | hf <;>
          rcases List.mem_cons.mp hg with rfl | hg
        · rfl
        · exact absurd h.symm (hlater g hg)
        · exact absurd h (hlater f hf)
        · exact ih hf hg
    · exact ih hf hg

/-- One draw, then none: a source that never repeats. -/
def oneDraw : ℕ → Option Nonce := fun i => if i = 0 then some zeroNonce else none

theorem oneDraw_neverRepeats : NeverRepeats oneDraw := by
  intro i j nonce hi hj
  unfold oneDraw at hi hj
  split_ifs at hi hj with h₀ h₁
  rw [h₀, h₁]

/-! ## Nonce reuse -/

/-- No two `Seal` invocations use one nonce for different messages. -/
def NonceRespecting (seals : List SealCall) : Prop :=
  ∀ a ∈ seals, ∀ b ∈ seals, a.nonce = b.nonce → a.message = b.message

/-- A payload is its own length field only if it is `00 02`. -/
theorem lengthBuf_eq_self_iff (p : Bytes) : beBytes lengthSize p.length = p ↔ p = [0, 2] := by
  constructor
  · intro h
    have hlen : p.length = 2 := by
      rw [← h, length_beBytes]
      rfl
    rw [← h, hlen]
    rfl
  · rintro rfl
    rfl

theorem mem_seals_iff {fs : List (Nonce × Bytes)} {a : SealCall} :
    a ∈ fs.flatMap sealsOf ↔
      ∃ f ∈ fs, a.nonce = f.1 ∧ (a.message = beBytes lengthSize f.2.length ∨ a.message = f.2) := by
  rw [List.mem_flatMap]
  constructor
  · rintro ⟨f, hf, ha⟩
    refine ⟨f, hf, ?_⟩
    simp only [sealsOf, List.mem_cons, List.not_mem_nil, or_false] at ha
    rcases ha with rfl | rfl
    · exact ⟨rfl, Or.inl rfl⟩
    · exact ⟨rfl, Or.inr rfl⟩
  · rintro ⟨f, hf, hn, hm⟩
    obtain ⟨n, m⟩ := a
    dsimp only at hn hm
    refine ⟨f, hf, ?_⟩
    rcases hm with rfl | rfl <;> subst hn <;> simp [sealsOf]

/-- **Nonce reuse.**  In a run whose random source never repeats, no nonce is used
for two different messages exactly when every payload that was sealed is the two
bytes `00 02`: each frame seals its length and its payload under one nonce. -/
theorem nonceRespecting_iff (A : Aead) {rand : ℕ → Option Nonce} (hrand : NeverRepeats rand)
    (calls : List Call) :
    NonceRespecting (run (step A rand) World.init calls).seals ↔
      ∀ f ∈ frames rand 0 calls, f.2 = [0, 2] := by
  have htrace : (run (step A rand) World.init calls).seals
      = (frames rand 0 calls).flatMap sealsOf := run_seals A rand World.init calls
  rw [htrace]
  constructor
  · intro h f hf
    rw [← lengthBuf_eq_self_iff]
    exact h ⟨f.1, _⟩ (mem_seals_iff.mpr ⟨f, hf, rfl, Or.inl rfl⟩)
      ⟨f.1, _⟩ (mem_seals_iff.mpr ⟨f, hf, rfl, Or.inr rfl⟩) rfl
  · intro h a ha b hb hab
    obtain ⟨f, hf, hfn, hfm⟩ := mem_seals_iff.mp ha
    obtain ⟨g, hg, hgn, hgm⟩ := mem_seals_iff.mp hb
    obtain rfl : f = g := frame_eq_of_nonce_eq hrand hf hg (by rw [← hfn, hab, hgn])
    -- the two messages of the frame coincide
    have hself : beBytes lengthSize f.2.length = f.2 := (lengthBuf_eq_self_iff _).mpr (h f hf)
    rw [hself, or_self] at hfm hgm
    rw [hfm, hgm]

/-- A run that encrypts `00 02` once does not reuse its nonce. -/
theorem nonceRespecting_zero_two :
    NonceRespecting (run (step tagCipher oneDraw) World.init [.encrypt [0, 2]]).seals :=
  (nonceRespecting_iff tagCipher oneDraw_neverRepeats _).mpr (by decide)

/-- **One frame is enough to reuse a nonce**: encrypting the two bytes `hi` seals
`00 02` and `hi` under the same nonce. -/
theorem nonce_reused_by_one_frame :
    ¬ ∀ (A : Aead) (rand : ℕ → Option Nonce) (calls : List Call), NeverRepeats rand →
        NonceRespecting (run (step A rand) World.init calls).seals := by
  intro hall
  have h := hall tagCipher oneDraw [.encrypt [104, 105]] oneDraw_neverRepeats
    ⟨zeroNonce, [0, 2]⟩ (by decide) ⟨zeroNonce, [104, 105]⟩ (by decide) rfl
  cases h

/-! ## Authenticity -/

/-- **The ideal cipher of a trace**: `Open` accepts exactly what was sealed. -/
def Ideal (A : Aead) (seals : List SealCall) : Prop :=
  ∀ n x m, A.openWith n x = some m ↔ ∃ a ∈ seals, a.nonce.1 = n ∧ a.message = m ∧ A.sealWith n m = x

/-- The payloads that the `Encrypt` calls of a run sealed. -/
def payloads (rand : ℕ → Option Nonce) (calls : List Call) : List Bytes :=
  (frames rand 0 calls).map Prod.snd

section Authenticity

variable {A : Aead} {rand : ℕ → Option Nonce} {calls : List Call}

/-- The sealed length of a two-byte payload, sent twice, is accepted and decrypts to
the length itself. -/
theorem decrypt_length_twice (htag : A.AddsTag)
    (hideal : Ideal A (run (step A rand) World.init calls).seals) {f : Nonce × Bytes}
    (hf : f ∈ frames rand 0 calls) (hlen : f.2.length = 2) :
    decrypt A (f.1 ++ A.sealWith f.1 [0, 2] ++ A.sealWith f.1 [0, 2]) = .ok [0, 2] := by
  have hmem : (⟨f.1, [0, 2]⟩ : SealCall) ∈ (run (step A rand) World.init calls).seals := by
    rw [run_seals]
    refine List.mem_append_right _ (mem_seals_iff.mpr ⟨f, hf, rfl, Or.inl ?_⟩)
    rw [hlen]
    rfl
  have hopen : A.openWith f.1 (A.sealWith f.1 [0, 2]) = some [0, 2] :=
    (hideal _ _ _).mpr ⟨_, hmem, rfl, rfl, rfl⟩
  have hwhole : (A.sealWith f.1 [0, 2]).length = 18 := htag _ _
  rw [decrypt_frame htag f.1.2 rfl hopen]
  refine ⟨hwhole.ge, ?_⟩
  rw [show (beNat [0, 2] + 16) % 65536 = 18 by decide, List.take_of_length_le hwhole.le]
  exact hopen

/-- What an accepted string decrypts to was sealed as a payload, or is the length
field `00 02` of a two-byte payload. -/
theorem decrypt_ok_cases (htag : A.AddsTag) (hrand : NeverRepeats rand)
    (hideal : Ideal A (run (step A rand) World.init calls).seals) {c p : Bytes}
    (h : decrypt A c = .ok p) :
    p ∈ payloads rand calls ∨ (p = [0, 2] ∧ ∃ q ∈ payloads rand calls, q.length = 2) := by
  have htrace : (run (step A rand) World.init calls).seals
      = (frames rand 0 calls).flatMap sealsOf := run_seals A rand World.init calls
  rw [htrace] at hideal
  obtain ⟨hc, lb, hlb, -, hroom, hp⟩ := (decrypt_eq_ok_iff A c p).mp h
  obtain ⟨a, ha, han, ham, hax⟩ := (hideal _ _ _).mp hlb
  obtain ⟨b, hb, hbn, hbm, hbx⟩ := (hideal _ _ _).mp hp
  obtain ⟨f, hf, hfn, hfm⟩ := mem_seals_iff.mp ha
  obtain ⟨g, hg, hgn, hgm⟩ := mem_seals_iff.mp hb
  -- both parts were opened under the nonce in front, so they belong to one frame
  obtain rfl : f = g := by
    apply frame_eq_of_nonce_eq hrand hf hg
    apply Subtype.ext
    rw [← hfn, ← hgn, han, hbn]
  have hfp : f.2 ∈ payloads rand calls := List.mem_map_of_mem hf
  rw [hbm] at hgm
  rw [ham] at hfm
  rcases hgm with hgm | rfl
  · right
    -- the payload part is the sealed length, so the decrypted length must be 2
    have hplen : p.length = 2 := by
      rw [hgm, length_beBytes]
      rfl
    obtain ⟨hlb2, hval, -⟩ := lengths_of_sealed htag hc hroom hax hbx
    rw [hplen] at hval
    have hflen : f.2.length = 2 := by
      rcases hfm with hfm | hfm
      · rw [hfm, beNat_lengthBuf (exists_draw_of_mem_frames hf).2] at hval
        exact hval
      · rw [← hfm, hlb2]
    refine ⟨?_, f.2, hfp, hflen⟩
    rw [hgm, hflen]
    rfl
  · exact Or.inl hfp

/-- **Authenticity of frames.**  With the ideal cipher of the run, everything that
`Decrypt` accepts is one of the payloads exactly when no payload has two bytes, or
`00 02` is itself one of them. -/
theorem decrypt_authentic_iff (htag : A.AddsTag) (hrand : NeverRepeats rand)
    (hideal : Ideal A (run (step A rand) World.init calls).seals) :
    (∀ c p, decrypt A c = .ok p → p ∈ payloads rand calls) ↔
      ((∃ q ∈ payloads rand calls, q.length = 2) → [0, 2] ∈ payloads rand calls) := by
  constructor
  · rintro hauth ⟨q, hq, hlen⟩
    obtain ⟨f, hf, rfl⟩ := List.mem_map.mp hq
    exact hauth _ _ (decrypt_length_twice htag hideal hf hlen)
  · intro h c p hp
    rcases decrypt_ok_cases htag hrand hideal hp with hmem | ⟨rfl, hshort⟩
    · exact hmem
    · exact h hshort

/-- The ideal cipher of a trace, for any way of sealing: `Open` looks the message up. -/
def idealCipher (sealWith : Bytes → Bytes → Bytes) (seals : List SealCall) : Aead where
  sealWith := sealWith
  openWith := fun n x =>
    (seals.find? fun a => a.nonce.1 = n ∧ sealWith n a.message = x).map (·.message)

/-- What it opens was sealed. -/
theorem exists_of_idealCipher {sealWith : Bytes → Bytes → Bytes} {seals : List SealCall}
    {n x m : Bytes} (h : (idealCipher sealWith seals).openWith n x = some m) :
    ∃ a ∈ seals, a.nonce.1 = n ∧ a.message = m ∧ sealWith n m = x := by
  obtain ⟨a, ha, rfl⟩ := Option.map_eq_some_iff.1 h
  have hprop : a.nonce.1 = n ∧ sealWith n a.message = x := by
    simpa using List.find?_some ha
  exact ⟨a, List.mem_of_find?_eq_some ha, hprop.1, rfl, hprop.2⟩

/-- It is ideal, if sealing does not map two messages to one ciphertext. -/
theorem idealCipher_ideal {sealWith : Bytes → Bytes → Bytes}
    (hinj : ∀ n, Function.Injective (sealWith n)) (seals : List SealCall) :
    Ideal (idealCipher sealWith seals) seals := by
  intro n x m
  constructor
  · exact exists_of_idealCipher
  · rintro ⟨a, ha, han, rfl, hax⟩
    have hfound : (seals.find? fun b =>
        b.nonce.1 = n ∧ sealWith n b.message = x).isSome := by
      rw [List.find?_isSome]
      exact ⟨a, ha, by simpa using ⟨han, hax⟩⟩
    obtain ⟨b, hb⟩ := Option.isSome_iff_exists.mp hfound
    have hprop : b.nonce.1 = n ∧ sealWith n b.message = x := by
      simpa using List.find?_some hb
    exact Option.map_eq_some_iff.2 ⟨b, hb, hinj n (hprop.2.trans hax.symm)⟩

/-- An ideal cipher for any trace, with constant tags. -/
def lookupCipher (seals : List SealCall) : Aead := idealCipher tagCipher.sealWith seals

theorem lookupCipher_addsTag (seals : List SealCall) : (lookupCipher seals).AddsTag :=
  tagCipher_correct.addsTag

theorem tagCipher_injective (n : Bytes) : Function.Injective (tagCipher.sealWith n) :=
  fun _ _ h => List.append_cancel_right h

theorem lookupCipher_ideal (seals : List SealCall) : Ideal (lookupCipher seals) seals :=
  idealCipher_ideal tagCipher_injective seals

/-- A run that encrypts the three bytes `yes` is authentic. -/
theorem decrypt_authentic_three_bytes :
    NeverRepeats oneDraw ∧
      ∀ c p, decrypt (lookupCipher [⟨zeroNonce, [0, 3]⟩, ⟨zeroNonce, [121, 101, 115]⟩]) c = .ok p →
        p ∈ payloads oneDraw [.encrypt [121, 101, 115]] := by
  refine ⟨oneDraw_neverRepeats, ?_⟩
  apply (decrypt_authentic_iff (lookupCipher_addsTag _) oneDraw_neverRepeats ?_).mpr
  · decide
  · exact lookupCipher_ideal _

/-- **A forged frame.**  After the two bytes `hi` have been encrypted, the sealed
length sent twice decrypts to `00 02`, which nobody encrypted. -/
theorem decrypt_accepts_forged_frame :
    ¬ ∀ (A : Aead) (rand : ℕ → Option Nonce) (calls : List Call), A.AddsTag →
        NeverRepeats rand → Ideal A (run (step A rand) World.init calls).seals →
        ∀ c p, decrypt A c = .ok p → p ∈ payloads rand calls := by
  intro hall
  let calls : List Call := [.encrypt [104, 105]]
  let A := lookupCipher (run (step tagCipher oneDraw) World.init calls).seals
  have hideal : Ideal A (run (step A oneDraw) World.init calls).seals := lookupCipher_ideal _
  have hforged := decrypt_length_twice (lookupCipher_addsTag _) hideal
    (f := (zeroNonce, [104, 105])) (by decide) rfl
  have hmem := hall A oneDraw calls (lookupCipher_addsTag _) oneDraw_neverRepeats hideal _ _ hforged
  revert hmem
  decide

end Authenticity

end Encryptor
