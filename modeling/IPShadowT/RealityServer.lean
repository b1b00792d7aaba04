/-
# The REALITY server and its replay store

Model of `ReplayProtection` in `internal/antidpi/reality_auth.go` and of
`RealityServer.verifyClientHello` in `internal/antidpi/reality.go`: parse the hello,
look its session id up in the store of those already seen and enter it, then verify
the token.

The store is keyed by the whole session id, of which the token authenticates the
first 28 bytes only, and it forgets.  `accepted_once_iff` says for which sequences of
hellos no authenticator, that is no key share together with a token, is accepted
twice.
-/
import IPShadowT.RealityAuth
import IPShadowT.Runs

open Bytes Runs

namespace Reality

/-! ## The replay store -/

/-- `ReplayProtection`; `seen` is a map from session ids to times. -/
structure ReplayProtection where
  seen : List (Bytes × Int)
  window : Int
  maxSize : ℕ
  deriving DecidableEq, Repr

/-- `NewReplayProtection`. -/
def newReplayProtection (window : Int) : ReplayProtection := ⟨[], window, 10000⟩

/-- `_, exists := rp.seen[key]`. -/
def ReplayProtection.Seen (rp : ReplayProtection) (key : Bytes) : Prop :=
  key ∈ rp.seen.map Prod.fst

instance (rp : ReplayProtection) (key : Bytes) : Decidable (rp.Seen key) :=
  inferInstanceAs (Decidable (_ ∈ _))

/-- `cleanup`, at time `now`. -/
def ReplayProtection.cleanup (rp : ReplayProtection) (now : Int) : ReplayProtection :=
  { rp with seen := rp.seen.filter fun kt => ¬ kt.2 < now - rp.window }

/-- The times that one call of `verifyClientHello` reads. -/
structure Clock where
  /-- when the session id is entered -/
  entered : Int
  /-- when the store is cleaned up -/
  cleaned : Int
  /-- when the token is verified -/
  verified : Int
  deriving DecidableEq, Repr

/-- `Check`. -/
def ReplayProtection.check (rp : ReplayProtection) (tokenBytes : Bytes) (clock : Clock) :
    Bool × ReplayProtection :=
  if rp.Seen tokenBytes then (false, rp)
  else
    let rp₁ := { rp with seen := (tokenBytes, clock.entered) :: rp.seen }
    (true, if rp₁.seen.length > rp₁.maxSize then rp₁.cleanup clock.cleaned else rp₁)

variable {C : Crypto} {s : Listener} {h : Hello} {rp : ReplayProtection} {key : Bytes}

theorem ReplayProtection.check_of_seen (h : rp.Seen key) (clock : Clock) :
    rp.check key clock = (false, rp) :=
  if_pos h

theorem ReplayProtection.check_of_room (h : ¬ rp.Seen key) (hroom : rp.seen.length < rp.maxSize)
    (clock : Clock) :
    (rp.check key clock).2 = { rp with seen := (key, clock.entered) :: rp.seen } := by
  unfold ReplayProtection.check
  rw [if_neg h]
  exact if_neg (Nat.not_lt.2 hroom)

/-- What is in the store after a key has been entered: the entries from before and the new
one, and if these are too many, only those that are not older than the window. -/
theorem ReplayProtection.mem_seen_check (h : ¬ rp.Seen key) (clock : Clock) (kt : Bytes × Int) :
    kt ∈ (rp.check key clock).2.seen ↔
      kt ∈ (key, clock.entered) :: rp.seen ∧
        (rp.maxSize ≤ rp.seen.length → ¬ kt.2 < clock.cleaned - rp.window) := by
  unfold ReplayProtection.check
  rw [if_neg h]
  dsimp only
  have hlen : ((key, clock.entered) :: rp.seen).length > rp.maxSize
      ↔ rp.maxSize ≤ rp.seen.length := Nat.lt_succ_iff
  by_cases hfull : rp.maxSize ≤ rp.seen.length
  · rw [if_pos (hlen.2 hfull)]
    simp [ReplayProtection.cleanup, hfull]
  · rw [if_neg (mt hlen.1 hfull)]
    simp [hfull]

/-- No key is in the store twice. -/
theorem ReplayProtection.nodup_check (h : (rp.seen.map Prod.fst).Nodup) (key : Bytes)
    (clock : Clock) :
    ((rp.check key clock).2.seen.map Prod.fst).Nodup := by
  unfold ReplayProtection.check
  split_ifs with hseen
  · exact h
  · have hcons : (((key, clock.entered) :: rp.seen).map Prod.fst).Nodup :=
      List.nodup_cons.2 ⟨hseen, h⟩
    dsimp only
    split_ifs
    · exact hcons.sublist (List.filter_sublist.map _)
    · exact hcons

/-! ## The server -/

/-- `RealityServer`, with the part of its configuration that verification reads. -/
structure RealityServer where
  privateKey : Bytes
  shortIDs : List Bytes
  replay : ReplayProtection
  deriving DecidableEq, Repr

/-- `NewRealityServer`, with the errors of the packages it calls left out. -/
def newRealityServer (privateKey : Bytes) (shortIDs : List Bytes) : Except String RealityServer :=
  match hexDecode privateKey with
  | none => .error "invalid private key"
  | some keyBytes =>
    if keyBytes.length ≠ 32 then .error "failed to create private key"
    else .ok ⟨keyBytes, shortIDs, newReplayProtection (2 * 60 * 10 ^ 9)⟩

/-- `RealityClient`, with what the handshake reads of its configuration. -/
structure RealityClient where
  publicKey : Bytes
  shortID : Bytes
  deriving DecidableEq, Repr

/-- `NewRealityClient`, with the errors of the packages it calls left out. -/
def newRealityClient (publicKey shortID : Bytes) : Except String RealityClient :=
  match hexDecode publicKey with
  | none => .error "invalid public key"
  | some keyBytes =>
    if keyBytes.length ≠ 32 then .error "failed to parse public key"
    else .ok ⟨keyBytes, shortID⟩

/-- `verifyClientHello`. -/
def RealityServer.verifyClientHello (C : Crypto) (rs : RealityServer) (rawData : Bytes)
    (clock : Clock) : Go Empty Bool × RealityServer :=
  match parseClientHelloAuth rawData with
  | .error .panic => (.error .panic, rs)
  | .error (.error _) => (.ok false, rs)
  | .ok (sessionID, ephPub) =>
    if sessionID.length ≠ authTokenSize then (.ok false, rs)
    else
      let (fresh, replay) := rs.replay.check sessionID clock
      let rs₁ := { rs with replay := replay }
      if ¬ fresh then (.ok false, rs₁)
      else
        (.ok (verifyAuthToken C sessionID ephPub rs₁.privateKey rs₁.shortIDs 120
          clock.verified).isSome, rs₁)

/-- What acceptance means: the session id is new, and the token genuine and timely. -/
theorem verifyClientHello_accepts_iff {rs : RealityServer} {rawData : Bytes} {clock : Clock} :
    (rs.verifyClientHello C rawData clock).1 = .ok true ↔
      ∃ sessionID ephPub, parseClientHelloAuth rawData = .ok (sessionID, ephPub) ∧
        ¬ rs.replay.Seen sessionID ∧
        Genuine C rs.privateKey rs.shortIDs ephPub sessionID ∧
        Timely 120 clock.verified sessionID := by
  unfold RealityServer.verifyClientHello
  cases hparse : parseClientHelloAuth rawData with
  | error e =>
    cases e with
    | panic => simp
    | error e => simp
  | ok r =>
    obtain ⟨sessionID, ephPub⟩ := r
    dsimp only
    by_cases hlen : sessionID.length = authTokenSize
    · rw [if_neg (not_not.2 hlen)]
      by_cases hseen : rs.replay.Seen sessionID
      · simp [ReplayProtection.check, hseen]
      · have hverify : (verifyAuthToken C sessionID ephPub rs.privateKey rs.shortIDs 120
            clock.verified).isSome ↔ Genuine C rs.privateKey rs.shortIDs ephPub sessionID ∧
            Timely 120 clock.verified sessionID := verifyAuthToken_isSome_iff (by decide)
        simp [ReplayProtection.check, hseen, hverify]
    · -- the parser has checked the length already; the code checks it again
      rw [if_pos hlen]
      refine iff_of_false (by simp) ?_
      rintro ⟨sid, eph, heq, -, hgenuine, -⟩
      obtain ⟨rfl, rfl⟩ := Prod.mk.inj (Except.ok.inj heq)
      exact hlen hgenuine.token_length

/-- Verification changes nothing but the replay store. -/
theorem verifyClientHello_config (C : Crypto) (rs : RealityServer) (rawData : Bytes)
    (clock : Clock) :
    (rs.verifyClientHello C rawData clock).2.privateKey = rs.privateKey ∧
      (rs.verifyClientHello C rawData clock).2.shortIDs = rs.shortIDs := by
  unfold RealityServer.verifyClientHello
  split
  · exact ⟨rfl, rfl⟩
  · exact ⟨rfl, rfl⟩
  · dsimp only
    split_ifs <;> exact ⟨rfl, rfl⟩

/-! ## Runs -/

/-- A hello that arrives, and the times at which it is processed. -/
structure Hello where
  rawData : Bytes
  clock : Clock
  deriving DecidableEq, Repr

/-- A key share and the session id that came with it. -/
structure Credential where
  ephPub : Bytes
  sessionID : Bytes
  deriving DecidableEq, Repr

/-- What must not be accepted twice: the key share and the token. -/
def Credential.authenticator (a : Credential) : Bytes × Bytes := (a.ephPub, a.sessionID.take 16)

/-- The server, and what it has accepted, the last one first. -/
structure Listener where
  server : RealityServer
  accepted : List Credential
  deriving DecidableEq, Repr

def Listener.start (server : RealityServer) : Listener := ⟨server, []⟩

def Listener.step (C : Crypto) (s : Listener) (h : Hello) : Listener :=
  let (ok, server) := s.server.verifyClientHello C h.rawData h.clock
  match ok, parseClientHelloAuth h.rawData with
  | .ok true, .ok (sessionID, ephPub) => ⟨server, ⟨ephPub, sessionID⟩ :: s.accepted⟩
  | _, _ => ⟨server, s.accepted⟩

/-- No authenticator has been accepted twice. -/
def Listener.AcceptedOnce (s : Listener) : Prop :=
  (s.accepted.map Credential.authenticator).Nodup

instance (s : Listener) : Decidable s.AcceptedOnce := inferInstanceAs (Decidable (List.Nodup _))

/-- A hello with an authenticator that has been accepted before comes with a session id
that the store has kept, or at a time its timestamp is too far from; or else with another
timestamp or short id than it was accepted with, to which the token does not belong. -/
def Listener.RefusesRepeats (C : Crypto) (s : Listener) (h : Hello) : Prop :=
  ∀ sessionID ephPub, parseClientHelloAuth h.rawData = .ok (sessionID, ephPub) →
    ∀ a ∈ s.accepted, a.authenticator = (Credential.mk ephPub sessionID).authenticator →
      s.server.replay.Seen sessionID ∨ ¬ Timely 120 h.clock.verified sessionID ∨
        (sessionID.take 28 ≠ a.sessionID.take 28 ∧
          ¬ Genuine C s.server.privateKey s.server.shortIDs ephPub sessionID)

/-- What a step does, in the two cases. -/
theorem Listener.step_cases (C : Crypto) (s : Listener) (h : Hello) :
    (∃ sessionID ephPub, parseClientHelloAuth h.rawData = .ok (sessionID, ephPub) ∧
        ¬ s.server.replay.Seen sessionID ∧
        Genuine C s.server.privateKey s.server.shortIDs ephPub sessionID ∧
        Timely 120 h.clock.verified sessionID ∧
        (s.step C h).accepted = ⟨ephPub, sessionID⟩ :: s.accepted) ∨
      ((s.server.verifyClientHello C h.rawData h.clock).1 ≠ .ok true ∧
        (s.step C h).accepted = s.accepted) := by
  unfold Listener.step
  dsimp only
  by_cases hok : (s.server.verifyClientHello C h.rawData h.clock).1 = .ok true
  · obtain ⟨sessionID, ephPub, hparse, hrest⟩ := verifyClientHello_accepts_iff.1 hok
    rw [hok, hparse]
    exact .inl ⟨sessionID, ephPub, rfl, hrest.1, hrest.2.1, hrest.2.2, rfl⟩
  · refine .inr ⟨hok, ?_⟩
    split
    · rename_i htrue _
      exact absurd htrue hok
    · rfl

/-- The store after a hello that could be parsed. -/
theorem Listener.step_replay {sessionID ephPub : Bytes}
    (hparse : parseClientHelloAuth h.rawData = .ok (sessionID, ephPub)) :
    (s.step C h).server.replay = (s.server.replay.check sessionID h.clock).2 := by
  have hlen := (parseClientHelloAuth_length hparse).1
  have hserver : (s.server.verifyClientHello C h.rawData h.clock).2.replay
      = (s.server.replay.check sessionID h.clock).2 := by
    unfold RealityServer.verifyClientHello
    rw [hparse]
    dsimp only
    rw [if_neg (not_not.2 hlen)]
    split_ifs <;> rfl
  unfold Listener.step
  dsimp only
  split <;> exact hserver

/-- A hello that could not be parsed changes nothing. -/
theorem Listener.step_of_not_parsed
    (hparse : ∀ sessionID ephPub, parseClientHelloAuth h.rawData ≠ .ok (sessionID, ephPub)) :
    s.step C h = s := by
  unfold Listener.step RealityServer.verifyClientHello
  rcases hresult : parseClientHelloAuth h.rawData with (e | _) | ⟨sessionID, ephPub⟩
  · rfl
  · rfl
  · exact absurd hresult (hparse sessionID ephPub)

/-- Nothing has been accepted twice, and everything that has been was genuine. -/
structure Listener.Good (C : Crypto) (s : Listener) : Prop where
  once : s.AcceptedOnce
  genuine : ∀ a ∈ s.accepted, Genuine C s.server.privateKey s.server.shortIDs a.ephPub a.sessionID

theorem Listener.step_config (C : Crypto) (s : Listener) (h : Hello) :
    (s.step C h).server.privateKey = s.server.privateKey ∧
      (s.step C h).server.shortIDs = s.server.shortIDs := by
  unfold Listener.step
  dsimp only
  split <;> exact verifyClientHello_config C s.server h.rawData h.clock

/-- A hello that is not genuine leaves nothing but its session id in the store. -/
theorem Listener.step_of_not_genuine {sessionID ephPub : Bytes}
    (hparse : parseClientHelloAuth h.rawData = .ok (sessionID, ephPub))
    (hfalse : ¬ Genuine C s.server.privateKey s.server.shortIDs ephPub sessionID) :
    s.step C h
      = ⟨{ s.server with replay := (s.server.replay.check sessionID h.clock).2 }, s.accepted⟩ := by
  have hreplay := Listener.step_replay (C := C) (s := s) hparse
  obtain ⟨hkey, hids⟩ := Listener.step_config C s h
  have hacc : (s.step C h).accepted = s.accepted := by
    rcases Listener.step_cases C s h with ⟨sid, eph, hparse', -, hgenuine, -⟩ | ⟨-, hacc⟩
    · obtain ⟨rfl, rfl⟩ := Go.ok_pair_unique hparse hparse'
      exact absurd hgenuine hfalse
    · exact hacc
  rcases hstep : s.step C h with ⟨⟨key, ids, replay⟩, accepted⟩
  rw [hstep] at hreplay hkey hids hacc
  dsimp only at hreplay hkey hids hacc
  rw [hreplay, hkey, hids, hacc]

theorem Listener.Good.step (hs : s.Good C) (hok : s.RefusesRepeats C h) : (s.step C h).Good C := by
  obtain ⟨hkey, hids⟩ := Listener.step_config C s h
  rcases Listener.step_cases C s h with
    ⟨sessionID, ephPub, hparse, hseen, hgenuine, htimely, hacc⟩ | ⟨-, hacc⟩
  · constructor
    · rw [Listener.AcceptedOnce, hacc, List.map_cons, List.nodup_cons]
      refine ⟨?_, hs.once⟩
      intro hmem
      obtain ⟨a, ha, heq⟩ := List.mem_map.1 hmem
      rcases hok sessionID ephPub hparse a ha heq with h₁ | h₂ | h₃
      · exact hseen h₁
      · exact h₂ htimely
      · exact h₃.2 hgenuine
    · intro a ha
      rw [hacc] at ha
      rw [hkey, hids]
      rcases List.mem_cons.1 ha with rfl | hold
      · exact hgenuine
      · exact hs.genuine a hold
  · constructor
    · rw [Listener.AcceptedOnce, hacc]
      exact hs.once
    · rw [hacc, hkey, hids]
      exact hs.genuine

/-- A repeat that is not refused is accepted: a genuine token stays genuine when only its
padding changes. -/
theorem Listener.Good.step_bad (hs : s.Good C) (hno : ¬ s.RefusesRepeats C h) :
    ¬ (s.step C h).AcceptedOnce := by
  unfold Listener.RefusesRepeats at hno
  push Not at hno
  obtain ⟨sessionID, ephPub, hparse, a, ha, heq, hseen, htimely, hlast⟩ := hno
  have hkey : a.ephPub = ephPub := congrArg Prod.fst heq
  have hgenuine : Genuine C s.server.privateKey s.server.shortIDs ephPub sessionID := by
    -- token, short id and timestamp are the first 28 bytes, and all that is verified
    by_cases htake : sessionID.take 28 = a.sessionID.take 28
    · have hold := hs.genuine a ha
      rw [hkey] at hold
      exact hold.congr (parseClientHelloAuth_length hparse).1 htake
    · exact hlast htake
  have hacc : (s.step C h).accepted = ⟨ephPub, sessionID⟩ :: s.accepted := by
    rcases Listener.step_cases C s h with ⟨sid, eph, hparse', -, -, -, hacc⟩ | ⟨hrefused, -⟩
    · obtain ⟨rfl, rfl⟩ := Go.ok_pair_unique hparse hparse'
      exact hacc
    · have hall := verifyClientHello_accepts_iff.2
        ⟨sessionID, ephPub, hparse, hseen, hgenuine, htimely⟩
      exact absurd hall hrefused
  rw [Listener.AcceptedOnce, hacc, List.map_cons, List.nodup_cons]
  rintro ⟨hnot, -⟩
  exact hnot (List.mem_map.2 ⟨a, ha, heq⟩)

theorem Listener.not_acceptedOnce_step (hs : ¬ s.AcceptedOnce) (h : Hello) :
    ¬ (s.step C h).AcceptedOnce := by
  intro hnext
  rcases Listener.step_cases C s h with ⟨sid, eph, -, -, -, -, hacc⟩ | ⟨-, hacc⟩
  · rw [Listener.AcceptedOnce, hacc, List.map_cons, List.nodup_cons] at hnext
    exact hs hnext.2
  · rw [Listener.AcceptedOnce, hacc] at hnext
    exact hs hnext

/-- **Which sequences of hellos replay no authenticator.**  For a server with an empty
history, no key share and token are accepted twice exactly if every hello that repeats an
accepted pair is one that the store or the clock catches, or has a token that does not
belong to it. -/
theorem accepted_once_iff (C : Crypto) (server : RealityServer) (hellos : List Hello) :
    (run (Listener.step C) (.start server) hellos).AcceptedOnce ↔
      EachStep (Listener.step C) (Listener.RefusesRepeats C) (.start server) hellos := by
  have hstart : (Listener.start server).Good C := ⟨List.nodup_nil, nofun⟩
  rcases good_or_doomed (Listener.Good C) (fun s => ¬ s.AcceptedOnce)
    (fun _ _ hs hok => hs.step hok) (fun _ _ hs hno => hs.step_bad hno)
    (fun _ h hs => Listener.not_acceptedOnce_step hs h) hstart hellos
    with ⟨hok, hgood⟩ | ⟨hno, hdoomed⟩
  · exact iff_of_true hgood.once hok
  · exact iff_of_false hdoomed hno

/-! ## A replay

One token, made for the short id `a1b2c3d4`, and the values of X25519 and HMAC-SHA256
that it needs. -/

namespace Sample

def serverPrivateKey : Bytes :=
  [1, 2, 3, 4, 5, 6, 7, 8, 9, 10, 11, 12, 13, 14, 15, 16, 17, 18, 19, 20, 21, 22, 23, 24, 25,
   26, 27, 28, 29, 30, 31, 32]

/-- `serverPrivateKey` in hexadecimal, as it stands in the configuration. -/
def serverPrivateKeyHex : Bytes :=
  [48, 49, 48, 50, 48, 51, 48, 52, 48, 53, 48, 54, 48, 55, 48, 56, 48, 57, 48, 97, 48, 98, 48,
   99, 48, 100, 48, 101, 48, 102, 49, 48, 49, 49, 49, 50, 49, 51, 49, 52, 49, 53, 49, 54, 49,
   55, 49, 56, 49, 57, 49, 97, 49, 98, 49, 99, 49, 100, 49, 101, 49, 102, 50, 48]

def serverPublicKey : Bytes :=
  [7, 163, 124, 188, 20, 32, 147, 200, 183, 85, 220, 27, 16, 232, 108, 180, 38, 55, 74, 209,
   106, 168, 83, 237, 11, 223, 192, 178, 184, 109, 28, 124]

def clientPrivateKey : Bytes :=
  [101, 102, 103, 104, 105, 106, 107, 108, 109, 110, 111, 112, 113, 114, 115, 116, 117, 118,
   119, 120, 121, 122, 123, 124, 125, 126, 127, 128, 129, 130, 131, 132]

def clientPublicKey : Bytes :=
  [87, 20, 118, 157, 17, 107, 247, 100, 54, 174, 116, 188, 121, 61, 44, 48, 173, 25, 3, 197,
   154, 197, 39, 56, 5, 199, 226, 105, 139, 65, 12, 54]

def sharedSecret : Bytes :=
  [201, 234, 106, 63, 121, 160, 0, 182, 11, 7, 109, 74, 252, 153, 11, 39, 47, 63, 11, 90, 170,
   63, 11, 135, 19, 194, 9, 39, 62, 54, 56, 99]

/-- The label, the timestamp 1700000000 and the short id. -/
def macInput : Bytes := label ++ [101, 83, 241, 0, 161, 178, 195, 212]

def macOutput : Bytes :=
  [100, 204, 224, 245, 235, 141, 10, 248, 205, 38, 28, 77, 198, 148, 2, 55, 203, 124, 213, 2,
   41, 151, 122, 91, 212, 243, 158, 153, 125, 179, 88, 219]

/-- X25519 and HMAC-SHA256 at the inputs that occur. -/
def tableCrypto : Crypto where
  ecdh priv pub :=
    if (priv, pub) = (clientPrivateKey, serverPublicKey) ∨
        (priv, pub) = (serverPrivateKey, clientPublicKey) then some sharedSecret else none
  hmac key message :=
    if key = sharedSecret ∧ message = macInput then macOutput else List.replicate 32 0
  hmac_length key message := by split <;> rfl

/-- A ClientHello record with one cipher suite and one key share. -/
def helloRecord (sessionID ephPub : Bytes) : Bytes :=
  [0x16, 3, 1] ++ beBytes 2 121 ++ [1] ++ beBytes 3 117 ++ [3, 3] ++ List.replicate 32 0
    ++ [32] ++ sessionID ++ [0, 2, 0x13, 0x01] ++ [1, 0] ++ beBytes 2 42
    ++ [0x00, 0x33] ++ beBytes 2 38 ++ beBytes 2 36 ++ [0x00, 0x1d] ++ beBytes 2 32 ++ ephPub

/-- A session id with the token above and the given padding. -/
def sessionIDWith (padding : Bytes) : Bytes :=
  macOutput.take 16 ++ [161, 178, 195, 212, 0, 0, 0, 0] ++ [101, 83, 241, 0] ++ padding

/-- The ASCII bytes of `a1b2c3d4`. -/
def shortID : Bytes := [97, 49, 98, 50, 99, 51, 100, 52]

/-- A hello with the token above, processed `sec` seconds after it was made. -/
def replayHello (padding : Bytes) (sec : Int) : Hello :=
  let now := (1700000000 + sec) * 10 ^ 9
  ⟨helloRecord (sessionIDWith padding) clientPublicKey, ⟨now, now, now⟩⟩

/-- The server as `newRealityServer` makes it from `serverPrivateKeyHex`. -/
def replayedServer : RealityServer :=
  ⟨serverPrivateKey, [shortID], newReplayProtection (2 * 60 * 10 ^ 9)⟩

/-- The session id that `BuildAuthToken` made is accepted, and so is, a second later, the
same one with another padding. -/
theorem replay_with_other_padding :
    newRealityServer serverPrivateKeyHex [shortID] = .ok replayedServer ∧
      (buildAuthToken tableCrypto clientPrivateKey serverPublicKey shortID
        (1700000000 * 10 ^ 9) [7, 7, 7, 7] rfl).map serializeAuthToken
          = some (sessionIDWith [7, 7, 7, 7]) ∧
      ¬ (run (Listener.step tableCrypto) (.start replayedServer)
          [replayHello [7, 7, 7, 7] 0, replayHello [8, 7, 7, 7] 1]).AcceptedOnce := by
  refine ⟨?_, ?_, ?_⟩
  · decide +kernel
  · decide +kernel
  · decide +kernel

end Sample

end Reality
