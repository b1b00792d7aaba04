/-
# How long the replay store remembers

The store of `IPShadowT.RealityServer` forgets: once it has more than 10000 entries it
drops those that were entered more than two minutes ago.  A token stays acceptable until
two minutes after its timestamp, and the timestamp may be up to two minutes ahead of the
clock when the token is accepted, so that a session id can be dropped while its token is
still good.

Here the server runs on a clock that never goes back.  `retained_iff` says which runs
keep every accepted session id for as long as its token is valid, and
`forgotten_while_valid` is a run that does not.
-/
import Mathlib.Data.List.Nodup
import IPShadowT.ClientHello
import IPShadowT.RealityServer

open Bytes Runs

namespace Reality

/-! ## The clock -/

/-- The timestamp in a session id is within 120 seconds of the clock, in whole seconds. -/
def StillValid (now : ℕ) (sessionID : Bytes) : Prop :=
  |((now / 1000000000 : ℕ) : Int) - timestampField sessionID| ≤ 120

variable {now : ℕ}

theorem stillValid_iff {sessionID : Bytes} :
    StillValid now sessionID ↔
      timestampField sessionID ≤ now / 1000000000 + 120 ∧
        now / 1000000000 ≤ timestampField sessionID + 120 := by
  rw [StillValid, abs_le]
  omega

/-- Until the seconds need more than 32 bits, this is what `VerifyAuthToken` checks. -/
theorem timely_iff_stillValid (h : now / 1000000000 < 4294967296) (sessionID : Bytes) :
    Timely 120 now sessionID ↔ StillValid now sessionID := by
  have hunix : (unix32 now : Int) = ((now / 1000000000 : ℕ) : Int) := by
    unfold unix32
    omega
  rw [Timely, StillValid, hunix]

/-- A timestamp that is accepted is not far ahead of the clock. -/
theorem Timely.timestamp_le {sessionID : Bytes} (h : Timely 120 now sessionID) :
    timestampField sessionID ≤ now / 1000000000 + 120 := by
  have hunix : unix32 now ≤ now / 1000000000 := by
    unfold unix32
    omega
  have hle := (abs_le.1 h).1
  omega

/-- The server and the time, in nanoseconds since 1970. -/
structure Timed where
  listener : Listener
  now : ℕ
  deriving DecidableEq

namespace Timed

/-- A hello arrives and is processed, with some time before each of the three points at
which the clock is read; or time passes. -/
inductive Event where
  | hello (rawData : Bytes) (enter clean verify : ℕ)
  | wait (d : ℕ)

def start (server : RealityServer) (now : ℕ) : Timed := ⟨.start server, now⟩

/-- The times that are read. -/
def clock (now enter clean verify : ℕ) : Clock :=
  ⟨(now + enter : ℕ), (now + enter + clean : ℕ), (now + enter + clean + verify : ℕ)⟩

def step (C : Crypto) (s : Timed) : Event → Timed
  | .hello rawData enter clean verify =>
    ⟨s.listener.step C ⟨rawData, clock s.now enter clean verify⟩, s.now + enter + clean + verify⟩
  | .wait d => ⟨s.listener, s.now + d⟩

/-- Every session id that was accepted and is still valid is in the store. -/
def Retained (s : Timed) : Prop :=
  ∀ a ∈ s.listener.accepted, StillValid s.now a.sessionID →
    s.listener.server.replay.Seen a.sessionID

/-- A hello that makes the store overflow does so when every entry that is too old for the
window, the new one included, has a session id that is no longer valid or that has not
been accepted. -/
def Keeps (C : Crypto) (s : Timed) : Event → Prop
  | .hello rawData enter clean verify =>
    ∀ sessionID ephPub, parseClientHelloAuth rawData = .ok (sessionID, ephPub) →
      ¬ s.listener.server.replay.Seen sessionID →
      s.listener.server.replay.maxSize ≤ s.listener.server.replay.seen.length →
      ∀ kt ∈ (sessionID, ((s.now + enter : ℕ) : Int)) :: s.listener.server.replay.seen,
        kt.2 < ((s.now + enter + clean : ℕ) : Int) - s.listener.server.replay.window →
        StillValid (s.now + enter + clean + verify) kt.1 →
        kt.1 ∉ s.listener.accepted.map Credential.sessionID ∧
          ¬ (kt.1 = sessionID ∧
            Genuine C s.listener.server.privateKey s.listener.server.shortIDs ephPub sessionID ∧
            Timely 120 ((s.now + enter + clean + verify : ℕ) : Int) sessionID)
  | .wait _ => True

variable {n : ℕ} {s : Timed}

/-- The store after a hello that could be parsed. -/
theorem step_replay {C : Crypto} {rawData sessionID ephPub : Bytes} {enter clean verify : ℕ}
    (hparse : parseClientHelloAuth rawData = .ok (sessionID, ephPub)) :
    (s.step C (.hello rawData enter clean verify)).listener.server.replay
      = (s.listener.server.replay.check sessionID (clock s.now enter clean verify)).2 :=
  Listener.step_replay hparse

/-! ## What every run keeps -/

/-- No session id is stored twice, and none was accepted long before its time. -/
structure Inv (s : Timed) : Prop where
  nodup : (s.listener.server.replay.seen.map Prod.fst).Nodup
  early : ∀ a ∈ s.listener.accepted, timestampField a.sessionID ≤ s.now / 1000000000 + 120

theorem inv_start (privateKey : Bytes) (shortIDs : List Bytes) (window : Int) (now : ℕ) :
    Inv (start ⟨privateKey, shortIDs, newReplayProtection window⟩ now) :=
  ⟨List.nodup_nil, nofun⟩

/-- **Every step** keeps it. -/
theorem inv_step (C : Crypto) (s : Timed) (e : Event) (h : Inv s) : Inv (s.step C e) := by
  have hlater : ∀ d, ∀ a ∈ s.listener.accepted,
      timestampField a.sessionID ≤ (s.now + d) / 1000000000 + 120 := by
    intro d a ha
    have hold := h.early a ha
    omega
  cases e with
  | wait d => exact ⟨h.nodup, hlater d⟩
  | hello rawData enter clean verify =>
    constructor
    · by_cases hparse : ∃ sessionID ephPub,
          parseClientHelloAuth rawData = .ok (sessionID, ephPub)
      · obtain ⟨sessionID, ephPub, hparse⟩ := hparse
        rw [step_replay hparse]
        exact ReplayProtection.nodup_check h.nodup sessionID _
      · push Not at hparse
        rw [step, Listener.step_of_not_parsed hparse]
        exact h.nodup
    · intro a ha
      rcases Listener.step_cases C s.listener ⟨rawData, clock s.now enter clean verify⟩ with
        ⟨sessionID, ephPub, -, -, -, htimely, hacc⟩ | ⟨-, hacc⟩
      · rw [step, hacc] at ha
        rcases List.mem_cons.1 ha with rfl | hold
        · exact htimely.timestamp_le
        · have hle := hlater (enter + clean + verify) a hold
          simpa only [step, Nat.add_assoc] using hle
      · rw [step, hacc] at ha
        have hle := hlater (enter + clean + verify) a ha
        simpa only [step, Nat.add_assoc] using hle

/-! ## What one step keeps -/

theorem seen_iff {rp : ReplayProtection} {key : Bytes} : rp.Seen key ↔ ∃ t, (key, t) ∈ rp.seen := by
  simp [ReplayProtection.Seen]

/-- A key is found after another has been entered, exactly if its entry is not cleaned away. -/
theorem seen_check_iff {rp : ReplayProtection} {key : Bytes} (hnew : ¬ rp.Seen key)
    (hnodup : (rp.seen.map Prod.fst).Nodup) (clock : Clock) {kt : Bytes × Int}
    (hkt : kt ∈ (key, clock.entered) :: rp.seen) :
    (rp.check key clock).2.Seen kt.1 ↔
      (rp.maxSize ≤ rp.seen.length → ¬ kt.2 < clock.cleaned - rp.window) := by
  have hmem := ReplayProtection.mem_seen_check hnew clock
  rw [seen_iff]
  constructor
  · rintro ⟨t, ht⟩
    obtain ⟨htmem, hkept⟩ := (hmem (kt.1, t)).1 ht
    -- the entry that is found is the one for this key
    have hkeys : (((key, clock.entered) :: rp.seen).map Prod.fst).Nodup :=
      List.nodup_cons.2 ⟨hnew, hnodup⟩
    have heq : (kt.1, t) = kt := List.inj_on_of_nodup_map hkeys htmem hkt rfl
    rwa [heq] at hkept
  · intro hkept
    exact ⟨kt.2, (hmem kt).2 ⟨hkt, hkept⟩⟩

/-- What has been accepted after a hello with a session id that is not in the store. -/
theorem mem_accepted_step {C : Crypto} {s : Listener} {h : Hello} {sessionID ephPub : Bytes}
    (hparse : parseClientHelloAuth h.rawData = .ok (sessionID, ephPub))
    (hnew : ¬ s.server.replay.Seen sessionID) (a : Credential) :
    a ∈ (s.step C h).accepted ↔
      a ∈ s.accepted ∨ (a = ⟨ephPub, sessionID⟩ ∧
        Genuine C s.server.privateKey s.server.shortIDs ephPub sessionID ∧
        Timely 120 h.clock.verified sessionID) := by
  rcases Listener.step_cases C s h with
    ⟨sid, eph, hparse', -, hgenuine, htimely, hacc⟩ | ⟨hrefused, hacc⟩
  · obtain ⟨rfl, rfl⟩ := Go.ok_pair_unique hparse hparse'
    rw [hacc, List.mem_cons, or_comm]
    exact or_congr_right (iff_self_and.2 fun _ => ⟨hgenuine, htimely⟩)
  · rw [hacc]
    refine ⟨.inl, ?_⟩
    rintro (hold | ⟨-, hgenuine, htimely⟩)
    · exact hold
    · have haccepts := verifyClientHello_accepts_iff.2
        ⟨sessionID, ephPub, hparse, hnew, hgenuine, htimely⟩
      exact absurd haccepts hrefused

/-- A session id that is valid later was so before. -/
theorem Retained.seen_of_later (h : s.Retained) (hinv : s.Inv) {a : Credential}
    (ha : a ∈ s.listener.accepted) {d : ℕ} (hvalid : StillValid (s.now + d) a.sessionID) :
    s.listener.server.replay.Seen a.sessionID := by
  have hearly := hinv.early a ha
  rw [stillValid_iff] at hvalid
  refine h a ha (stillValid_iff.2 ⟨hearly, ?_⟩)
  omega

/-- Time goes by. -/
theorem Retained.wait (h : s.Retained) (hinv : s.Inv) (d : ℕ) : Retained ⟨s.listener, s.now + d⟩ :=
  fun _ ha hvalid => h.seen_of_later hinv ha hvalid

section Step

variable {C : Crypto} {s : Timed} {rawData sessionID ephPub : Bytes} {enter clean verify : ℕ}

/-- A hello with a session id in the store, or none, changes nothing but the time. -/
theorem step_hello_of_seen (hparse : parseClientHelloAuth rawData = .ok (sessionID, ephPub))
    (hseen : s.listener.server.replay.Seen sessionID) :
    (s.step C (.hello rawData enter clean verify)).listener.server.replay
        = s.listener.server.replay ∧
      (s.step C (.hello rawData enter clean verify)).listener.accepted
        = s.listener.accepted := by
  constructor
  · rw [step_replay hparse, ReplayProtection.check_of_seen hseen]
  · rcases Listener.step_cases C s.listener ⟨rawData, clock s.now enter clean verify⟩ with
      ⟨sid, eph, hparse', hnew, -⟩ | ⟨-, hacc⟩
    · obtain ⟨rfl, rfl⟩ := Go.ok_pair_unique hparse hparse'
      exact absurd hseen hnew
    · exact hacc

/-- A hello with a new session id: what is accepted stays in the store exactly if `Keeps`
says so. -/
theorem retained_hello_iff (hinv : s.Inv) (hret : s.Retained)
    (hparse : parseClientHelloAuth rawData = .ok (sessionID, ephPub))
    (hnew : ¬ s.listener.server.replay.Seen sessionID) :
    (s.step C (.hello rawData enter clean verify)).Retained ↔
      s.Keeps C (.hello rawData enter clean verify) := by
  set h : Hello := ⟨rawData, clock s.now enter clean verify⟩ with hh
  set rp := s.listener.server.replay with hrp
  have hacc := mem_accepted_step (C := C) (s := s.listener) (h := h) hparse hnew
  have hreplay : (s.listener.step C h).server.replay = (rp.check sessionID h.clock).2 :=
    Listener.step_replay hparse
  constructor
  · intro hafter sid eph hparse' _ hfull kt hkt hold hvalid
    obtain ⟨rfl, rfl⟩ := Go.ok_pair_unique hparse hparse'
    -- an accepted session id is still there, under a time that is not too old
    have hfresh : ∀ a ∈ (s.listener.step C h).accepted, a.sessionID ≠ kt.1 := by
      intro a ha haeq
      have hseen : (rp.check sessionID h.clock).2.Seen kt.1 := by
        rw [← hreplay, ← haeq]
        exact hafter a ha (haeq ▸ hvalid)
      exact (seen_check_iff hnew hinv.nodup h.clock hkt).1 hseen hfull hold
    constructor
    · intro hin
      obtain ⟨a, ha, haeq⟩ := List.mem_map.1 hin
      exact hfresh a ((hacc a).2 (.inl ha)) haeq
    · rintro ⟨heq, hgenuine, htimely⟩
      exact hfresh ⟨ephPub, sessionID⟩ ((hacc _).2 (.inr ⟨rfl, hgenuine, htimely⟩)) heq.symm
  · intro hkeeps a ha hvalid
    show (s.listener.step C h).server.replay.Seen a.sessionID
    rw [hreplay]
    -- it was in the store before, or is the entry that was made now
    obtain ⟨t, ht⟩ : ∃ t, (a.sessionID, t) ∈ (sessionID, h.clock.entered) :: rp.seen := by
      rcases (hacc a).1 ha with hold | ⟨rfl, -, -⟩
      · have hseen : rp.Seen a.sessionID := by
          refine hret.seen_of_later hinv hold (d := enter + clean + verify) ?_
          rw [← Nat.add_assoc, ← Nat.add_assoc]
          exact hvalid
        obtain ⟨t, ht⟩ := seen_iff.1 hseen
        exact ⟨t, List.mem_cons_of_mem _ ht⟩
      · exact ⟨_, List.mem_cons_self⟩
    refine (seen_check_iff hnew hinv.nodup h.clock ht).2 fun hfull hstale => ?_
    obtain ⟨hnot, hnot'⟩ := hkeeps sessionID ephPub hparse hnew hfull _ ht hstale hvalid
    rcases (hacc a).1 ha with hold | ⟨rfl, hgenuine, htimely⟩
    · exact hnot (List.mem_map.2 ⟨a, hold, rfl⟩)
    · exact hnot' ⟨rfl, hgenuine, htimely⟩

end Step

/-- **The step.** -/
theorem retained_step_iff (C : Crypto) (s : Timed) (e : Event) (hinv : s.Inv)
    (hret : s.Retained) : (s.step C e).Retained ↔ s.Keeps C e := by
  cases e with
  | wait d => exact iff_of_true (hret.wait hinv d) trivial
  | hello rawData enter clean verify =>
    have hwait := hret.wait hinv (enter + clean + verify)
    rw [← Nat.add_assoc, ← Nat.add_assoc] at hwait
    by_cases hparse : ∃ sessionID ephPub, parseClientHelloAuth rawData = .ok (sessionID, ephPub)
    · obtain ⟨sessionID, ephPub, hparse⟩ := hparse
      by_cases hseen : s.listener.server.replay.Seen sessionID
      · obtain ⟨hreplay, hacc⟩ := step_hello_of_seen (C := C) (s := s) hparse hseen
        refine iff_of_true ?_ ?_
        · intro a ha hvalid
          rw [hreplay]
          rw [hacc] at ha
          exact hwait a ha hvalid
        · intro sid eph hparse' hnew
          obtain ⟨rfl, rfl⟩ := Go.ok_pair_unique hparse hparse'
          exact absurd hseen hnew
      · exact retained_hello_iff hinv hret hparse hseen
    · push Not at hparse
      refine iff_of_true ?_ fun sid eph hparse' => absurd hparse' (hparse sid eph)
      rw [step, Listener.step_of_not_parsed hparse]
      exact hwait

/-- **Which runs forget nothing too soon.**  From a new server on, every accepted session
id is in the store for as long as its timestamp is valid, exactly if each overflow of the
store comes at a time when none of the entries it drops is of such an id. -/
theorem retained_iff (C : Crypto) (privateKey : Bytes) (shortIDs : List Bytes) (window : Int)
    (now : ℕ) (es : List Event) :
    Always (step C) Retained
        (start ⟨privateKey, shortIDs, newReplayProtection window⟩ now) es ↔
      EachStep (step C) (Keeps C)
        (start ⟨privateKey, shortIDs, newReplayProtection window⟩ now) es :=
  always_iff_eachStep_of_invariant (inv_step C) (retained_step_iff C)
    (inv_start privateKey shortIDs window now) nofun es

/-! ## A session id that is forgotten

The token of `Sample.replayHello` arrives two minutes before its timestamp, and 121 seconds
later hellos with 10000 other session ids do. -/

section Forgotten

open Sample

/-- A hello with any session id, and no token in it. -/
def probe (i : ℕ) : ClientHello where
  version := 0x0303
  random := List.replicate 32 0
  sessionID := beBytes 32 i
  cipherSuites := [0x1301]
  compression := [0]
  extensions := [.keyShare [⟨0x001d, List.replicate 32 0⟩]]
  random_length := rfl
  sessionID_length := length_beBytes 32 i
  compression_length := length_nullCompression_lt

theorem parse_probe (i : ℕ) :
    parseClientHelloAuth (wrapTLSHandshakeRecord (probe i).encode)
      = .ok (beBytes 32 i, List.replicate 32 0) := by
  have hlen : (probe i).encode.length = 121 := by
    simp [probe, ClientHello.encode, ClientHello.body, ClientHello.sessionPart,
      ClientHello.suitesPart, ClientHello.extensionsPart, ClientHello.encodedSuites, encodeSuites,
      ClientHello.encodedExtensions, Extension.encode, encodeEntries, KeyShareEntry.encode]
  exact parseClientHelloAuth_wrap_encode (hlen.trans_le (by decide)) rfl

/-- The session id of the token. -/
def tokenID : Bytes := sessionIDWith [7, 7, 7, 7]

/-- When the token arrives. -/
def early : ℕ := 1699999880000000000

/-- When the probes arrive. -/
def late : ℕ := 1700000001000000000

/-- The entries of the first `n` probes. -/
def probes : ℕ → List (Bytes × Int)
  | 0 => []
  | n + 1 => (beBytes 32 n, (late : Int)) :: probes n

/-- The server after the token and `n` probes. -/
def filled (n : ℕ) : Timed :=
  ⟨⟨⟨serverPrivateKey, [shortID],
      ⟨probes n ++ [(tokenID, (early : Int))], 2 * 60 * 10 ^ 9, 10000⟩⟩,
    [⟨clientPublicKey, tokenID⟩]⟩, late⟩

theorem length_probes (n : ℕ) : (probes n).length = n := by
  induction n with
  | zero => rfl
  | succ n ih => rw [probes, List.length_cons, ih]

/-- The session ids of the probes are small numbers. -/
theorem beNat_of_mem_probes (hn : n ≤ 10000) {kt : Bytes × Int} (h : kt ∈ probes n) :
    beNat kt.1 < n := by
  induction n with
  | zero => cases h
  | succ n ih =>
    rcases List.mem_cons.1 h with rfl | hmem
    · dsimp only
      rw [beNat_beBytes]
      omega
    · have hlt := ih (by omega) hmem
      omega

theorem beNat_tokenID : 10000 ≤ beNat tokenID := by decide +kernel

theorem not_seen_probe (hn : n < 10000) :
    ¬ (filled n).listener.server.replay.Seen (beBytes 32 n) := by
  intro h
  obtain ⟨t, ht⟩ := seen_iff.1 h
  have hnum : beNat (beBytes 32 n) = n := by
    rw [beNat_beBytes]
    omega
  rcases List.mem_append.1 ht with hprobe | htoken
  · have hlt := beNat_of_mem_probes hn.le hprobe
    dsimp only at hlt
    omega
  · have heq : beBytes 32 n = tokenID := congrArg Prod.fst (List.mem_singleton.1 htoken)
    have htok := beNat_tokenID
    rw [← heq] at htok
    omega

theorem not_genuine_probe (i : ℕ) :
    ¬ Genuine tableCrypto serverPrivateKey [shortID] (List.replicate 32 0) (beBytes 32 i) := by
  rintro ⟨-, -, ⟨secret, hsecret, -⟩, -⟩
  have hnone : tableCrypto.ecdh serverPrivateKey (List.replicate 32 0) = none := by
    decide +kernel
  rw [hnone] at hsecret
  cases hsecret

theorem step_probe (n : ℕ) :
    (filled n).step tableCrypto (.hello (wrapTLSHandshakeRecord (probe n).encode) 0 0 0)
      = ⟨⟨{ (filled n).listener.server with
            replay := ((filled n).listener.server.replay.check (beBytes 32 n)
              (clock late 0 0 0)).2 },
          (filled n).listener.accepted⟩, late⟩ :=
  congrArg (Timed.mk · late) (Listener.step_of_not_genuine (parse_probe n) (not_genuine_probe n))

/-- A probe adds its session id, if there is room. -/
theorem step_filled (hn : n < 9999) :
    (filled n).step tableCrypto (.hello (wrapTLSHandshakeRecord (probe n).encode) 0 0 0)
      = filled (n + 1) := by
  have hroom : (filled n).listener.server.replay.seen.length
      < (filled n).listener.server.replay.maxSize := by
    simp only [filled, List.length_append, length_probes, List.length_singleton]
    omega
  rw [step_probe, ReplayProtection.check_of_room (not_seen_probe (by omega)) hroom]
  rfl

/-- Hellos with the first `n` probes. -/
def probing (n : ℕ) : List Event :=
  (List.range n).map fun i => .hello (wrapTLSHandshakeRecord (probe i).encode) 0 0 0

/-- The store fills up. -/
theorem run_probing (hn : n ≤ 9999) : run (step tableCrypto) (filled 0) (probing n) = filled n := by
  induction n with
  | zero => rfl
  | succ n ih =>
    rw [probing, List.range_succ, List.map_append, run_append]
    have hrun := ih (by omega)
    rw [probing] at hrun
    rw [hrun]
    exact step_filled (by omega)

/-- A probe for which there is no room makes the server forget the token, which has been
in the store for 121 seconds. -/
theorem not_retained_step_filled (hn : n < 10000) (hfull : 9999 ≤ n) :
    ¬ ((filled n).step tableCrypto
      (.hello (wrapTLSHandshakeRecord (probe n).encode) 0 0 0)).Retained := by
  intro hret
  rw [step_probe] at hret
  have hvalid : StillValid late tokenID := by
    unfold StillValid
    decide +kernel
  obtain ⟨t, ht⟩ := seen_iff.1 (hret ⟨clientPublicKey, tokenID⟩ List.mem_cons_self hvalid)
  obtain ⟨hmem, hnew⟩ :=
    (ReplayProtection.mem_seen_check (not_seen_probe hn) _ (tokenID, t)).1 ht
  have hlength : (filled n).listener.server.replay.maxSize
      ≤ (filled n).listener.server.replay.seen.length := by
    simp only [filled, List.length_append, length_probes, List.length_singleton]
    omega
  have hmem' : (tokenID, t) ∈ probes (n + 1) ++ [(tokenID, (early : Int))] := hmem
  rcases List.mem_append.1 hmem' with hprobe | htoken
  · have hlt := beNat_of_mem_probes hn hprobe
    have htok := beNat_tokenID
    dsimp only at hlt
    omega
  · obtain rfl : t = early := congrArg Prod.snd (List.mem_singleton.1 htoken)
    refine hnew hlength ?_
    show (early : Int) < (late : Int) - 2 * 60 * 10 ^ 9
    decide

/-- **A session id is forgotten while its token is valid**: 10001 hellos within 121
seconds are enough. -/
theorem forgotten_while_valid :
    ¬ ∀ (C : Crypto) (privateKey : Bytes) (shortIDs : List Bytes) (now : ℕ) (es : List Event),
        Always (step C) Retained
          (start ⟨privateKey, shortIDs, newReplayProtection (2 * 60 * 10 ^ 9)⟩ now) es := by
  intro hall
  have hfilled : run (step tableCrypto)
      (start ⟨serverPrivateKey, [shortID], newReplayProtection (2 * 60 * 10 ^ 9)⟩ early)
      [.hello (helloRecord tokenID clientPublicKey) 0 0 0, .wait 121000000000] = filled 0 := by
    decide +kernel
  have hlast := (hall tableCrypto serverPrivateKey [shortID] early
    ([.hello (helloRecord tokenID clientPublicKey) 0 0 0, .wait 121000000000]
      ++ (probing 9999 ++ [.hello (wrapTLSHandshakeRecord (probe 9999).encode) 0 0 0]))).last
  rw [run_append, run_append, hfilled, run_probing (le_refl _)] at hlast
  exact not_retained_step_filled (by decide) (le_refl _) hlast

end Forgotten

end Timed

end Reality
