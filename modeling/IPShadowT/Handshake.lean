/-
# The tunnel handshake

`Client.handshake` of `internal/client/client.go` and `Server.handshake` of
`internal/server/server.go`: the client sends the text `iPShadowT-HELLO` in an
encrypted frame, the server answers `iPShadowT-OK` in another.

The parties share a password, so the cipher is one, and it is ideal: `Open` finds
exactly what some party has sealed so far.  The network is in the hands of an attacker
who sees every frame.  `Replays` describes a network that only delivers frames it has
seen, any of them, in any order, any number of times; the results hold for a network
that delivers whatever it likes.

The hello has no nonce, time or name of the connection in it, so the server accepts
one as often as it is delivered (`replayed_hello`).  What does hold is
`accepted_hellos`.
-/
import Mathlib.Data.List.Dedup
import Mathlib.Data.List.Perm.Subperm
import IPShadowT.FrameStream

open Bytes Runs Encryptor

namespace Handshake

/-! ## The two functions -/

/-- The bytes of `iPShadowT-HELLO`. -/
def hello : Bytes := [105, 80, 83, 104, 97, 100, 111, 119, 84, 45, 72, 69, 76, 76, 79]

/-- The bytes of `iPShadowT-OK`. -/
def okReply : Bytes := [105, 80, 83, 104, 97, 100, 111, 119, 84, 45, 79, 75]

/-- The errors of `Client.handshake`. -/
inductive ClientError where
  | sendHello (e : CryptoError)
  | readResponse (e : FrameError)
  | rejected (resp : Bytes)
  deriving DecidableEq, Repr

/-- The errors of `Server.handshake`. -/
inductive ServerError where
  | readHello (e : FrameError)
  | invalidHello
  | sendResponse (e : CryptoError)
  deriving DecidableEq, Repr

/-- The text of an error, up to the error it passes on. -/
def ClientError.text : ClientError → String
  | .sendHello _ => "failed to send hello: "
  | .readResponse _ => "failed to read response: "
  | .rejected _ => "server rejected connection: "

/-- The text of an error, up to the error it passes on. -/
def ServerError.text : ServerError → String
  | .readHello _ => "failed to read hello: "
  | .invalidHello => "invalid hello message"
  | .sendResponse _ => "failed to send response: "

/-- `Client.handshake` up to the response. -/
def clientHello (A : Aead) (rand : ℕ → Option Nonce) (w : World) (conn : Sink) :
    Go ClientError Unit × World × Sink :=
  let (r, w', conn') := writeEncryptedFrame A rand hello w conn
  (r.mapError (Fault.map .sendHello), w', conn')

/-- The rest of `Client.handshake`. -/
def clientResponse (A : Aead) (conn : Source) : Go ClientError Unit :=
  match (readEncryptedFrame A conn).1 with
  | .error e => .error (e.map .readResponse)
  | .ok resp => if resp ≠ okReply then .error (.error (.rejected resp)) else .ok ()

/-- `Server.handshake`, on a connection from which it reads and to which it writes. -/
def serverHandshake (A : Aead) (rand : ℕ → Option Nonce) (w : World) (conn : Source)
    (out : Sink) : Go ServerError Unit × World × Sink :=
  match (readEncryptedFrame A conn).1 with
  | .error e => (.error (e.map .readHello), w, out)
  | .ok msg =>
    if msg ≠ hello then (.error (.error .invalidHello), w, out)
    else
      let (r, w', out') := writeEncryptedFrame A rand okReply w out
      (r.mapError (Fault.map .sendResponse), w', out')

/-! ## The parties and the network -/

/-- Where a client is in its handshake. -/
inductive Client where
  | waiting
  | connected
  | failed
  deriving DecidableEq, Repr

/-- Where a connection of the server is. -/
inductive Conn where
  | waiting
  /-- the handshake succeeded, on a frame with this nonce -/
  | succeeded (nonce : Bytes)
  | failed
  deriving DecidableEq, Repr

/-- The parties, and what the network has seen. -/
structure Net where
  world : World
  clients : List Client
  servers : List Conn
  /-- what has been written on connections, one entry for each handshake that wrote -/
  seen : List Bytes
  /-- how many hello frames clients have made -/
  hellos : ℕ

/-- Before the first connection. -/
def Net.init : Net := ⟨⟨0, []⟩, [], [], [], 0⟩

/-- A step of a party; the network chooses what it reads, and the script of a `Sink` which
of its writes fail. -/
inductive Event where
  /-- a client opens a connection and sends its hello -/
  | dial (script : List (Option ℕ))
  /-- the server accepts a connection -/
  | accept
  /-- the server goes through the handshake on connection `k` -/
  | toServer (k : ℕ) (delivered : Source) (script : List (Option ℕ))
  /-- client `k` reads the response -/
  | toClient (k : ℕ) (delivered : Source)

/-- The cipher as the parties find it: ideal, for what has been sealed so far. -/
def Net.cipher (sealWith : Bytes → Bytes → Bytes) (s : Net) : Aead :=
  idealCipher sealWith s.world.seals

/-- Whether `Encrypt` makes a hello frame. -/
def Net.makesHello (sealWith : Bytes → Bytes → Bytes) (rand : ℕ → Option Nonce) (s : Net) : Bool :=
  (encrypt (s.cipher sealWith) rand hello s.world).1.isOk

/-- The nonce of the frame that a stream starts with. -/
def frameNonce (delivered : Source) : Bytes := (delivered.flatten.drop 4).take nonceSize

/-- A party that is not waiting does not move. -/
def step (sealWith : Bytes → Bytes → Bytes) (rand : ℕ → Option Nonce) (s : Net) : Event → Net
  | .dial script =>
    let (r, w, conn) := clientHello (s.cipher sealWith) rand s.world ⟨[], script⟩
    { s with
      world := w
      clients := s.clients ++ [if r.isOk then .waiting else .failed]
      seen := s.seen ++ [conn.written]
      hellos := if s.makesHello sealWith rand then s.hellos + 1 else s.hellos }
  | .accept => { s with servers := s.servers ++ [.waiting] }
  | .toServer k delivered script =>
    if s.servers[k]? = some .waiting then
      let (r, w, conn) :=
        serverHandshake (s.cipher sealWith) rand s.world delivered ⟨[], script⟩
      { s with
        world := w
        servers := s.servers.set k
          (if r.isOk then .succeeded (frameNonce delivered) else .failed)
        seen := s.seen ++ [conn.written] }
    else s
  | .toClient k delivered =>
    if s.clients[k]? = some .waiting then
      { s with
        clients := s.clients.set k
          (if (clientResponse (s.cipher sealWith) delivered).isOk then .connected
            else .failed) }
    else s

/-- The network delivers nothing but what it has seen, as often and in the order it
likes. -/
def Replays (s : Net) : Event → Prop
  | .toServer _ delivered _ => ∃ fs ⊆ s.seen, delivered.flatten = fs.flatten
  | .toClient _ delivered => ∃ fs ⊆ s.seen, delivered.flatten = fs.flatten
  | _ => True

/-- The nonce that a connection was accepted with. -/
def Conn.nonce : Conn → Option Bytes
  | .succeeded nonce => some nonce
  | _ => none

/-- The nonces of the successful handshakes, one for each. -/
def Net.accepted (s : Net) : List Bytes := s.servers.filterMap Conn.nonce

/-! ## What a successful handshake has read -/

section Party

variable {sealWith : Bytes → Bytes → Bytes} {seals : List SealCall} {rand : ℕ → Option Nonce}

/-- A frame that is read was sealed under the nonce in front of it. -/
theorem sealed_of_readEncryptedFrame {conn : Source} {p : Bytes}
    (h : (readEncryptedFrame (idealCipher sealWith seals) conn).1 = .ok p) :
    ∃ a ∈ seals, a.nonce.1 = frameNonce conn ∧ a.message = p := by
  unfold readEncryptedFrame at h
  rcases hlen : conn.readFull 4 with ⟨e | lenBuf, conn₁⟩
  · rw [hlen] at h
    cases h
  · obtain ⟨-, -, hconn₁⟩ := Source.readFull_eq_ok hlen
    rw [hlen] at h
    dsimp only at h
    split at h
    · cases h
    · rcases hframe : conn₁.readFull (beNat lenBuf) with ⟨e | frame, conn₂⟩
      · rw [hframe] at h
        cases h
      · obtain ⟨-, hbytes, -⟩ := Source.readFull_eq_ok hframe
        rw [hframe] at h
        dsimp only at h
        have hok : decrypt (idealCipher sealWith seals) frame = .ok p := by
          cases hd : decrypt (idealCipher sealWith seals) frame with
          | error e =>
            rw [hd] at h
            cases h
          | ok q =>
            rw [hd] at h
            exact congrArg _ (Except.ok.inj h)
        obtain ⟨hlong, lb, -, -, -, hp⟩ := (decrypt_eq_ok_iff _ _ _).1 hok
        obtain ⟨a, ha, hnonce, hmsg, -⟩ := exists_of_idealCipher hp
        refine ⟨a, ha, ?_, hmsg⟩
        -- the frame is a prefix of the stream that is long enough to hold its nonce
        have hcut : 24 ≤ beNat lenBuf := by
          rw [hbytes, List.length_take] at hlong
          omega
        rw [hnonce, frameNonce, ← hconn₁, hbytes, List.take_take, Nat.min_eq_left hcut]
        rfl

/-- The server succeeds only on a hello that has been sealed. -/
theorem sealed_of_serverHandshake {w : World} {conn : Source} {out : Sink}
    (h : (serverHandshake (idealCipher sealWith seals) rand w conn out).1.isOk = true) :
    ∃ a ∈ seals, a.nonce.1 = frameNonce conn ∧ a.message = hello := by
  unfold serverHandshake at h
  cases hread : (readEncryptedFrame (idealCipher sealWith seals) conn).1 with
  | error e =>
    rw [hread] at h
    cases h
  | ok msg =>
    rw [hread] at h
    dsimp only at h
    split_ifs at h with hmsg
    · cases h
    · obtain ⟨a, ha, hnonce, hmessage⟩ := sealed_of_readEncryptedFrame hread
      exact ⟨a, ha, hnonce, hmessage.trans (not_not.1 hmsg)⟩

end Party

/-! ## Runs -/

/-- How many of the sealed messages are hellos. -/
def helloSeals (seals : List SealCall) : ℕ := seals.countP fun a => a.message = hello

/-- Every hello that was sealed is one that a client made, and every connection that
succeeded did so on one of them. -/
structure Inv (s : Net) : Prop where
  made : helloSeals s.world.seals = s.hellos
  accepted : ∀ n ∈ s.accepted, ∃ a ∈ s.world.seals, a.nonce.1 = n ∧ a.message = hello

section Runs

variable (sealWith : Bytes → Bytes → Bytes) (rand : ℕ → Option Nonce)

/-- Only a hello adds to the hellos: a length field has two bytes, and the reply is
another text. -/
theorem helloSeals_encrypt (A : Aead) (p : Bytes) (w : World) :
    helloSeals (encrypt A rand p w).2.seals
      = helloSeals w.seals + if (encrypt A rand p w).1.isOk ∧ p = hello then 1 else 0 := by
  rcases encrypt_seals_cases A rand p w with ⟨hok, nonce, hseals⟩ | ⟨hok, hseals⟩
  · have hlen : beBytes lengthSize p.length ≠ hello := by
      intro h
      have hlength := congrArg List.length h
      rw [length_beBytes] at hlength
      cases hlength
    rw [hok, hseals, helloSeals, List.countP_append]
    by_cases hp : p = hello
    · subst hp
      simp [helloSeals, hlen]
    · simp [helloSeals, hp, hlen]
  · simp [hok, hseals]

theorem Inv.of_accepted_eq {s t : Net} (h : Inv s) (hseals : s.world.seals ⊆ t.world.seals)
    (hmade : helloSeals t.world.seals = t.hellos) (hacc : t.accepted ⊆ s.accepted) : Inv t := by
  refine ⟨hmade, fun n hn => ?_⟩
  obtain ⟨a, ha, hprop⟩ := h.accepted n (hacc hn)
  exact ⟨a, hseals ha, hprop⟩

theorem encrypt_seals_subset (A : Aead) (p : Bytes) (w : World) :
    w.seals ⊆ (encrypt A rand p w).2.seals := by
  rcases encrypt_seals_cases A rand p w with ⟨-, nonce, hseals⟩ | ⟨-, hseals⟩
  · rw [hseals]
    exact List.subset_append_left _ _
  · rw [hseals]
    exact List.Subset.refl _

/-- The world after the server's part: as it was, or as `Encrypt` leaves it for the
reply. -/
theorem serverHandshake_world (A : Aead) (w : World) (conn : Source) (out : Sink) :
    (serverHandshake A rand w conn out).2.1 = w
      ∨ (serverHandshake A rand w conn out).2.1 = (encrypt A rand okReply w).2 := by
  unfold serverHandshake
  split
  · exact .inl rfl
  · split_ifs
    · exact .inl rfl
    · exact .inr (sendFrame_world A rand okReply w out)

theorem inv_dial {s : Net} (h : Inv s) (script : List (Option ℕ)) :
    Inv (step sealWith rand s (.dial script)) := by
  have hworld : (step sealWith rand s (.dial script)).world
      = (encrypt (s.cipher sealWith) rand hello s.world).2 :=
    sendFrame_world (s.cipher sealWith) rand hello s.world ⟨[], script⟩
  refine h.of_accepted_eq ?_ ?_ (List.Subset.refl _)
  · rw [hworld]
    exact encrypt_seals_subset rand _ hello s.world
  · rw [hworld, helloSeals_encrypt, h.made]
    show _ = if s.makesHello sealWith rand then s.hellos + 1 else s.hellos
    unfold Net.makesHello
    split_ifs with h₁ h₂ h₂
    · rfl
    · exact absurd h₁.1 h₂
    · exact absurd ⟨h₂, rfl⟩ h₁
    · rfl

theorem step_toServer {s : Net} {k : ℕ} (hk : s.servers[k]? = some .waiting)
    (delivered : Source) (script : List (Option ℕ)) :
    step sealWith rand s (.toServer k delivered script)
      = let r := serverHandshake (s.cipher sealWith) rand s.world delivered ⟨[], script⟩
        { s with
          world := r.2.1
          servers := s.servers.set k
            (if r.1.isOk then .succeeded (frameNonce delivered) else .failed)
          seen := s.seen ++ [r.2.2.written] } :=
  if_pos hk

theorem inv_toServer {s : Net} (h : Inv s) (k : ℕ) (delivered : Source)
    (script : List (Option ℕ)) : Inv (step sealWith rand s (.toServer k delivered script)) := by
  by_cases hk : s.servers[k]? = some .waiting
  · rw [step_toServer sealWith rand hk]
    set r := serverHandshake (s.cipher sealWith) rand s.world delivered ⟨[], script⟩ with hr
    have hseals : s.world.seals ⊆ r.2.1.seals
        ∧ helloSeals r.2.1.seals = helloSeals s.world.seals := by
      rcases serverHandshake_world rand (s.cipher sealWith) s.world delivered ⟨[], script⟩
        with hw | hw
      · rw [← hr] at hw
        rw [hw]
        exact ⟨List.Subset.refl _, rfl⟩
      · rw [← hr] at hw
        rw [hw, helloSeals_encrypt]
        exact ⟨encrypt_seals_subset rand _ okReply s.world, by simp [okReply, hello]⟩
    refine ⟨hseals.2.trans h.made, ?_⟩
    intro n hn
    obtain ⟨conn, hconn, hnonce⟩ := List.mem_filterMap.1 hn
    rcases List.mem_or_eq_of_mem_set hconn with hold | rfl
    · obtain ⟨a, ha, hprop⟩ := h.accepted n (List.mem_filterMap.2 ⟨conn, hold, hnonce⟩)
      exact ⟨a, hseals.1 ha, hprop⟩
    · -- the connection at hand: it succeeded, and on a hello
      by_cases hok : r.1.isOk = true
      · rw [if_pos hok] at hnonce
        obtain rfl := Option.some.inj hnonce
        obtain ⟨a, ha, hprop⟩ := sealed_of_serverHandshake hok
        exact ⟨a, hseals.1 ha, hprop⟩
      · rw [if_neg hok] at hnonce
        cases hnonce
  · have hstay : step sealWith rand s (.toServer k delivered script) = s := if_neg hk
    rw [hstay]
    exact h

theorem inv_step (s : Net) (e : Event) (h : Inv s) : Inv (step sealWith rand s e) := by
  cases e with
  | dial script => exact inv_dial sealWith rand h script
  | accept =>
    refine h.of_accepted_eq (List.Subset.refl _) h.made ?_
    intro n hn
    simpa [Net.accepted, step, Conn.nonce] using hn
  | toServer k delivered script => exact inv_toServer sealWith rand h k delivered script
  | toClient k delivered =>
    by_cases hk : s.clients[k]? = some .waiting
    · simp only [step, if_pos hk]
      exact ⟨h.made, h.accepted⟩
    · simp only [step, if_neg hk]
      exact h

/-- **Agreement without injectivity.**  In every run, whatever the network delivers: a
connection on which `Server.handshake` succeeded did so on a frame under a nonce with
which a client sealed its hello, and there are no more different ones of these nonces
than clients have made hello frames. -/
theorem accepted_hellos (es : List Event) :
    (∀ n ∈ (run (step sealWith rand) Net.init es).accepted,
        ∃ a ∈ (run (step sealWith rand) Net.init es).world.seals, a.nonce.1 = n ∧ a.message = hello)
      ∧ (run (step sealWith rand) Net.init es).accepted.dedup.length
          ≤ (run (step sealWith rand) Net.init es).hellos := by
  have hinit : Inv Net.init := ⟨rfl, nofun⟩
  have hinv := run_invariant (inv_step sealWith rand) hinit es
  refine ⟨hinv.accepted, ?_⟩
  set s := run (step sealWith rand) Net.init es
  have hsub : s.accepted.dedup
      ⊆ (s.world.seals.filter fun a => a.message = hello).map fun a => a.nonce.1 := by
    intro n hn
    obtain ⟨a, ha, rfl, hmsg⟩ := hinv.accepted n (List.mem_dedup.1 hn)
    exact List.mem_map.2 ⟨a, List.mem_filter.2 ⟨ha, decide_eq_true hmsg⟩, rfl⟩
  have hle := (List.subperm_of_subset (List.nodup_dedup _) hsub).length_le
  rw [List.length_map, ← List.countP_eq_length_filter] at hle
  exact hle.trans_eq hinv.made

end Runs

/-! ## A replay -/

/-- A random source that counts, and ends after three nonces. -/
def threeDraws : ℕ → Option Nonce := fun i =>
  if i < 3 then some ⟨beBytes nonceSize i, length_beBytes nonceSize i⟩ else none

theorem threeDraws_neverRepeats : NeverRepeats threeDraws := by
  intro i j nonce hi hj
  unfold threeDraws at hi hj
  split_ifs at hi hj with hi₃ hj₃
  have hbytes : beBytes nonceSize i = beBytes nonceSize j :=
    congrArg Subtype.val (Option.some.inj (hi.trans hj.symm))
  have hnum := congrArg beNat hbytes
  rw [beNat_beBytes, beNat_beBytes, nonceSize] at hnum
  omega

/-- The frame of the only hello in the run. -/
def helloWire : Bytes := wire tagCipher ⟨beBytes nonceSize 0, length_beBytes nonceSize 0⟩ hello

/-- One client, and two connections of the server on which its frame is delivered. -/
def replayRun : List Event :=
  [.dial [], .accept, .toServer 0 [helloWire] [], .accept, .toServer 1 [helloWire] []]

/-- **A hello is accepted as often as it is delivered**: two handshakes succeed for one
hello frame, on a network that only replays. -/
theorem replayed_hello :
    ¬ ∀ (sealWith : Bytes → Bytes → Bytes) (rand : ℕ → Option Nonce) (es : List Event),
        (∀ n, Function.Injective (sealWith n)) → (∀ n m, (sealWith n m).length = m.length + 16) →
        NeverRepeats rand → EachStep (step sealWith rand) Replays Net.init es →
        (run (step sealWith rand) Net.init es).accepted.length
          ≤ (run (step sealWith rand) Net.init es).hellos := by
  intro hall
  have hreplays : EachStep (step tagCipher.sealWith threeDraws) Replays Net.init replayRun :=
    ⟨trivial, trivial, ⟨[helloWire], by decide +kernel, rfl⟩, trivial,
      ⟨[helloWire], by decide +kernel, rfl⟩, trivial⟩
  have hle := hall tagCipher.sealWith threeDraws replayRun tagCipher_injective
    tagCipher_correct.addsTag threeDraws_neverRepeats hreplays
  revert hle
  decide +kernel

end Handshake
