/-
# Pulling the configuration

Model of `Syncer` in `internal/configsync/sync.go`, for a server that serves its configuration file
and a client that pulls it, with one password.  The version of a syncer is the modification time of
its file in milliseconds, on the clock of its own machine; the clocks run ahead of the time of the
events by an offset each.  The network, the disk and the random source are inputs.

After a pull the version of the client is the time of its own write.  So the comparison of the
versions is between two clocks, and a later edit may look old.

An answer that cannot be decoded counts as version 0, which every file since 1970 is ahead of.
`converges_iff` says which runs nevertheless converge.
-/
import IPShadowT.Aead
import IPShadowT.Runs

open Bytes Runs
open Encryptor (tagCipher tagCipher_correct tagCipher_refusesShort)

namespace ConfigSync

/-! ## Encryption -/

/-- AES-GCM under the SHA-256 of the password, with what a pull relies on. -/
structure Gcm where
  aead : Aead
  correct : aead.Correct
  refusesShort : aead.RefusesShort

/-- The nonce of AES-GCM. -/
abbrev GcmNonce := { n : Bytes // n.length = 12 }

/-- `encrypt`, where the random source gives a nonce or fails. -/
def encrypt (G : Gcm) (rand : Option GcmNonce) (plaintext : Bytes) : Option Bytes :=
  rand.map fun nonce : GcmNonce => nonce.1 ++ G.aead.sealWith nonce.1 plaintext

/-- `decrypt`. -/
def decrypt (G : Gcm) (ciphertext : Bytes) : Except String Bytes :=
  if ciphertext.length < 12 then .error "ciphertext too short"
  else
    match G.aead.openWith (ciphertext.take 12) (ciphertext.drop 12) with
    | none => .error "cipher: message authentication failed"
    | some plaintext => .ok plaintext

theorem decrypt_append (G : Gcm) (nonce : GcmNonce) (sealed : Bytes) :
    decrypt G (nonce.1 ++ sealed) =
      match G.aead.openWith nonce.1 sealed with
      | none => .error "cipher: message authentication failed"
      | some plaintext => .ok plaintext := by
  have hlen : ¬ (nonce.1 ++ sealed).length < 12 := by
    rw [List.length_append, nonce.2]
    omega
  rw [decrypt, if_neg hlen, List.take_left' nonce.2, List.drop_left' nonce.2]

/-! ## Syncers -/

/-- A file and its modification time, in nanoseconds. -/
structure File where
  data : Bytes
  modTime : ℤ
  deriving DecidableEq, Repr

/-- `Syncer`: its file, if there is one, and its version. -/
structure Syncer where
  file : Option File
  version : ℤ
  deriving DecidableEq, Repr

def Syncer.content (s : Syncer) : Option Bytes := s.file.map File.data

/-- `updateVersion`; `stat` says whether the file can be looked at. -/
def Syncer.updateVersion (s : Syncer) (stat : Bool) : Syncer :=
  if stat then { s with version := s.file.elim s.version fun f => f.modTime / 1000000 } else s

/-- `NewSyncer` and the first line of `Start`. -/
def Syncer.started (file : Option File) : Syncer := Syncer.updateVersion ⟨file, 0⟩ true

/-- What `handleVersion` answers. -/
def Syncer.handleVersion (s : Syncer) : ℤ := s.version

/-- The body of `http.Error`. -/
def errorBody (text : String) : Bytes := (text.toList ++ ['\n']).map fun c => UInt8.ofNat c.toNat

/-- `handlePull`: the status and the body. -/
def Syncer.handlePull (G : Gcm) (s : Syncer) (rand : Option GcmNonce) : ℕ × Bytes :=
  match s.file with
  | none => (404, errorBody "config not found")
  | some f =>
    match encrypt G rand f.data with
    | none => (500, errorBody "encryption failed")
    | some encrypted => (200, encrypted)

/-! ## `pullConfig` -/

/-- What becomes of a request: it fails, or the answer is cut off (or damaged, so that it cannot be
decoded), or arrives whole. -/
inductive Reply where
  | lost
  | cut
  | whole
  deriving DecidableEq, Repr

/-- What becomes of a write; a failed one may leave anything. -/
inductive Write where
  | done
  | failed (left : Option File)
  deriving DecidableEq, Repr

/-- What one pull meets. -/
structure Attempt where
  version : Reply
  pull : Reply
  /-- the random source of the server -/
  rand : Option GcmNonce
  write : Write
  stat : Bool

/-- The errors that end `pullConfig`. -/
inductive Failure where
  | versionCheck
  | pull
  | read
  | decryption (err : String)
  | write
  deriving DecidableEq, Repr

/-- How `pullConfig` ends; the configuration that it pulled is passed to `onChange`. -/
inductive Outcome where
  | failed (failure : Failure)
  | upToDate
  | pulled (newConfig : Bytes)
  deriving DecidableEq, Repr

def Outcome.isFailed : Outcome → Bool
  | .failed _ => true
  | _ => false

/-- The version that the client makes of the answer; one that cannot be decoded leaves it at 0. -/
def Attempt.seen (a : Attempt) (server : Syncer) : ℤ :=
  if a.version = .whole then server.handleVersion else 0

/-- `pullConfig`, at the time `now` of the client. -/
def Syncer.pullConfig (G : Gcm) (client server : Syncer) (a : Attempt) (now : ℤ) :
    Outcome × Syncer :=
  if a.version = .lost then (.failed .versionCheck, client)
  else if a.seen server ≤ client.version then (.upToDate, client)
  else
    match a.pull with
    | .lost => (.failed .pull, client)
    | .cut => (.failed .read, client)
    | .whole =>
      match decrypt G (server.handlePull G a.rand).2 with
      | .error err => (.failed (.decryption err), client)
      | .ok decrypted =>
        match a.write with
        | .failed left => (.failed .write, { client with file := left })
        | .done =>
          (.pulled decrypted,
            Syncer.updateVersion { client with file := some ⟨decrypted, now⟩ } a.stat)

section Pull

variable {G : Gcm} {client server : Syncer} {a : Attempt} {now : ℤ}

/-- The texts of the errors are too short for a sealed message. -/
theorem decrypt_errorBody (G : Gcm) {text : String} (h12 : 11 ≤ text.length)
    (h28 : text.length < 27) :
    decrypt G (errorBody text) = .error "cipher: message authentication failed" := by
  have hlen : (errorBody text).length = text.length + 1 := by
    simp [errorBody, String.length_toList]
  have hopen : G.aead.openWith ((errorBody text).take 12) ((errorBody text).drop 12) = none := by
    apply G.refusesShort
    rw [List.length_drop, hlen, tagSize]
    omega
  rw [decrypt, if_neg (by omega), hopen]

/-- What the server answers can be opened if it is the file. -/
theorem decrypt_handlePull_eq_ok_iff {data : Bytes} :
    decrypt G (server.handlePull G a.rand).2 = .ok data ↔
      a.rand.isSome = true ∧ server.content = some data := by
  unfold Syncer.handlePull Syncer.content
  cases hfile : server.file with
  | none =>
    rw [decrypt_errorBody G (by decide) (by decide)]
    simp
  | some f =>
    cases a.rand with
    | none =>
      show decrypt G (errorBody "encryption failed") = _ ↔ _
      rw [decrypt_errorBody G (by decide) (by decide)]
      simp
    | some nonce =>
      show decrypt G (nonce.1 ++ G.aead.sealWith nonce.1 f.data) = _ ↔ _
      rw [decrypt_append, G.correct.open_seal]
      simp

/-- A pull that gets as far as the second request: it fails and keeps the version, or the client
has the file of the server. -/
def Fetches (G : Gcm) (client server : Syncer) (a : Attempt) (now : ℤ) : Prop :=
  ((client.pullConfig G server a now).1.isFailed = true ∧
      (client.pullConfig G server a now).2.version = client.version) ∨
    ∃ data, server.content = some data ∧ client.pullConfig G server a now =
      (.pulled data, Syncer.updateVersion { client with file := some ⟨data, now⟩ } a.stat)

/-- **The outcomes of a pull.** -/
theorem pullConfig_cases (G : Gcm) (client server : Syncer) (a : Attempt) (now : ℤ) :
    (a.version = .lost ∧ client.pullConfig G server a now = (.failed .versionCheck, client)) ∨
      (a.version ≠ .lost ∧ a.seen server ≤ client.version ∧
        client.pullConfig G server a now = (.upToDate, client)) ∨
      (a.version ≠ .lost ∧ client.version < a.seen server ∧ Fetches G client server a now) := by
  unfold Fetches Syncer.pullConfig
  by_cases hlost : a.version = .lost
  · rw [if_pos hlost]
    exact .inl ⟨hlost, rfl⟩
  · rw [if_neg hlost]
    rcases Int.lt_or_le client.version (a.seen server) with hlt | hle
    · refine .inr (.inr ⟨hlost, hlt, ?_⟩)
      rw [if_neg (Int.not_le.2 hlt)]
      cases a.pull with
      | lost => exact .inl ⟨rfl, rfl⟩
      | cut => exact .inl ⟨rfl, rfl⟩
      | whole =>
        dsimp only
        cases hdecrypt : decrypt G (server.handlePull G a.rand).2 with
        | error err => exact .inl ⟨rfl, rfl⟩
        | ok data =>
          have hcontent := (decrypt_handlePull_eq_ok_iff.1 hdecrypt).2
          cases a.write with
          | failed left => exact .inl ⟨rfl, rfl⟩
          | done => exact .inr ⟨data, hcontent, rfl⟩
    · rw [if_pos hle]
      exact .inr (.inl ⟨hlost, hle, rfl⟩)

end Pull

/-! ## Runs -/

/-- The two ends. -/
structure World where
  client : Syncer
  server : Syncer
  deriving DecidableEq, Repr

/-- An edit at the server with the `updateVersion` after it, or a pull of the client, at a time in
nanoseconds. -/
inductive Event where
  | edit (time : ℤ) (data : Bytes) (stat : Bool)
  | pull (time : ℤ) (a : Attempt)

/-- By how much the clocks are ahead. -/
structure Offsets where
  client : ℤ
  server : ℤ

def step (G : Gcm) (o : Offsets) (w : World) : Event → World
  | .edit time data stat =>
    { w with server :=
      Syncer.updateVersion { w.server with file := some ⟨data, time + o.server⟩ } stat }
  | .pull time a => { w with client := (w.client.pullConfig G w.server a (time + o.client)).2 }

section Runs

variable {G : Gcm} {o : Offsets} {w : World}

/-- The client has the file of the server. -/
def World.Same (w : World) : Prop :=
  ∀ data, w.server.content = some data → w.client.content = some data

/-- If the step is a pull that reaches the server and finishes without an error, the client has the
file of the server after it. -/
def Converges (G : Gcm) (o : Offsets) (w : World) : Event → Prop
  | .edit _ _ _ => True
  | .pull time a =>
    a.version ≠ .lost →
      (w.client.pullConfig G w.server a (time + o.client)).1.isFailed = false →
        (step G o w (.pull time a)).Same

/-- If the step is a pull whose first request is answered, there is nothing to pull, or the answer
arrives whole and the version of the server is the larger one, or it does not and the version of
the client is from before 1970. -/
def Ahead (w : World) : Event → Prop
  | .edit _ _ _ => True
  | .pull _ a =>
    match a.version with
    | .lost => True
    | .cut => w.Same ∨ w.client.version < 0
    | .whole => w.Same ∨ w.client.version < w.server.version

/-- Looking at a file does not change it. -/
theorem content_updateVersion (s : Syncer) (stat : Bool) :
    (s.updateVersion stat).content = s.content := by
  unfold Syncer.updateVersion
  split_ifs <;> rfl

/-- The two conditions on an answer in one. -/
theorem ahead_pull_iff (w : World) (time : ℤ) (a : Attempt) :
    Ahead w (.pull time a) ↔ (a.version ≠ .lost → w.Same ∨ w.client.version < a.seen w.server) := by
  unfold Ahead Attempt.seen Syncer.handleVersion
  dsimp only
  cases a.version <;> simp

/-- A pull that reaches the server and does not fail leaves the file of the server if the client
had it before or asks for it. -/
theorem converges_step_iff (w : World) (e : Event) : Converges G o w e ↔ Ahead w e := by
  cases e with
  | edit time data stat => exact Iff.rfl
  | pull time a =>
    rw [ahead_pull_iff]
    refine forall_congr' fun hanswered => ?_
    show (_ → World.Same ⟨(w.client.pullConfig G w.server a (time + o.client)).2, w.server⟩) ↔ _
    rcases pullConfig_cases G w.client w.server a (time + o.client) with
      ⟨hlost, -⟩ | ⟨-, hle, heq⟩ | ⟨-, hlt, hfetch⟩
    · exact absurd hlost hanswered
    · rw [heq]
      constructor
      · intro h
        exact .inl (h rfl)
      · rintro (hsame | hlt) -
        · exact hsame
        · omega
    · refine iff_of_true ?_ (.inr hlt)
      intro hdone data' hdata'
      rcases hfetch with ⟨hfailed, -⟩ | ⟨data, hdata, heq⟩
      · rw [hfailed] at hdone
        cases hdone
      · rw [heq]
        exact (content_updateVersion _ _).trans (hdata.symm.trans hdata')

/-- **Convergence.**  Along a run, every pull that reaches the server and finishes without an error
leaves the client with the file of the server, exactly if at every pull that reaches the server the
client has that file already, or sees a version of the server that is larger than its own. -/
theorem converges_iff (G : Gcm) (o : Offsets) (w : World) (es : List Event) :
    EachStep (step G o) (Converges G o) w es ↔ EachStep (step G o) Ahead w es :=
  eachStep_congr converges_step_iff w es

/-- The cipher to compute with. -/
def tagGcm : Gcm := ⟨tagCipher, tagCipher_correct, tagCipher_refusesShort⟩

/-- Everything goes well. -/
def smooth : Attempt := ⟨.whole, .whole, some ⟨List.replicate 12 0, rfl⟩, .done, true⟩

/-- The clock of the client is an hour ahead.  The server is edited after 1 second, the client pulls
after 2 seconds, the server is edited after 3 seconds, and the client pulls after 4 seconds: it is
up to date, and has the file of the first edit. -/
theorem second_edit_not_pulled :
    let o : Offsets := ⟨3600000000000, 0⟩
    let w : World := ⟨.started none, .started none⟩
    let es := [.edit 1000000000 [1] true, .pull 2000000000 smooth, .edit 3000000000 [2] true,
      .pull 4000000000 smooth]
    let after := run (step tagGcm o) w es
    after.client.content = some [1] ∧ after.server.content = some [2] ∧
      (after.client.pullConfig tagGcm after.server smooth 3605000000000).1 = .upToDate ∧
      ¬ EachStep (step tagGcm o) (Converges tagGcm o) w es := by
  refine ⟨by decide +kernel, by decide +kernel, by decide +kernel, ?_⟩
  rintro ⟨-, -, -, hpull, -⟩
  have hsame := hpull (by decide) (by decide +kernel) [2] (by decide +kernel)
  exact absurd hsame (by decide +kernel)

end Runs

end ConfigSync
