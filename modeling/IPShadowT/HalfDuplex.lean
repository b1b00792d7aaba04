/-
# Pairing half-duplex connections

Model of `HalfDuplexServer` in `internal/antidpi/halfduplex.go`: the two channels of registered
connections, the loop that takes an upload and waits for a download, and the channel of pairs that
`Accept` reads.  One step is one branch of a `select`; which branch is taken is up to the run.

The loop never looks at whose connections it joins.  The `k`-th pair has the `k`-th upload that did
not time out and the `k`-th download, in the order of registration (`InOrder.joins_iff`).
-/
import IPShadowT.Runs

open Runs

namespace HalfDuplex

/-! ## The server -/

inductive Direction where
  | upload
  | download
  deriving DecidableEq, Repr

/-- One of the two connections of a client. -/
structure Conn (direction : Direction) where
  client : ℕ
  deriving DecidableEq, Repr

/-- `halfDuplexConn` on the server: `Write` goes to `upload`, the client's download, and `Read`
comes from `download`, the client's upload. -/
structure HalfDuplexConn where
  upload : Conn .download
  download : Conn .upload
  deriving DecidableEq, Repr

/-- Where `pairLoop` is. -/
inductive Phase where
  /-- at the outer `select` -/
  | idle
  /-- at the inner `select`, for a download or for 30 seconds -/
  | waiting (upload : Conn .upload)
  /-- at the `select` that sends the pair -/
  | sending (conn : HalfDuplexConn)
  deriving DecidableEq, Repr

/-- `HalfDuplexServer`, its `pairLoop` and what has happened to it. -/
structure Server where
  uploadConns : List (Conn .upload)
  downloadConns : List (Conn .download)
  paired : List HalfDuplexConn
  done : Bool
  /-- where the loop is, or was when it returned -/
  loop : Phase
  returned : Bool
  /-- the uploads in the order of registration, and whether the 30 seconds ran out for them -/
  uploads : List (Conn .upload × Bool)
  /-- how many of them the loop has taken -/
  taken : ℕ
  /-- the downloads in the order of registration -/
  downloads : List (Conn .download)
  /-- what `Accept` has returned -/
  accepted : List HalfDuplexConn
  deriving DecidableEq, Repr

/-- `NewHalfDuplexServer` and `Start`. -/
def newHalfDuplexServer : Server := ⟨[], [], [], false, .idle, false, [], 0, [], []⟩

/-- The capacity of the channels of registered connections. -/
def registerCapacity : ℕ := 64

/-- The capacity of the channel of pairs. -/
def pairedCapacity : ℕ := 32

/-- A branch of a `select`, or `Close`.  The branches of `RegisterUpload`, `RegisterDownload` and
`Accept` for a closed server change nothing here. -/
inductive Event where
  | registerUpload (client : ℕ)
  | registerDownload (client : ℕ)
  | takeUpload
  | takeDownload
  | timeout
  | send
  /-- the loop finds the server closed -/
  | leave
  | accept
  | close
  deriving DecidableEq, Repr

/-- `RegisterUpload`, if there is room in the channel. -/
def Server.registerUpload (s : Server) (client : ℕ) : Server :=
  if s.uploadConns.length < registerCapacity then
    { s with
      uploadConns := s.uploadConns ++ [⟨client⟩]
      uploads := s.uploads ++ [(⟨client⟩, false)] }
  else s

/-- `RegisterDownload`, if there is room in the channel. -/
def Server.registerDownload (s : Server) (client : ℕ) : Server :=
  if s.downloadConns.length < registerCapacity then
    { s with
      downloadConns := s.downloadConns ++ [⟨client⟩]
      downloads := s.downloads ++ [⟨client⟩] }
  else s

/-- A step of `pairLoop`. -/
def Server.pairLoop (s : Server) : Event → Server
  | .takeUpload =>
    match s.loop, s.uploadConns with
    | .idle, upload :: rest =>
      { s with loop := .waiting upload, uploadConns := rest, taken := s.taken + 1 }
    | _, _ => s
  | .takeDownload =>
    match s.loop, s.downloadConns with
    | .waiting upload, download :: rest =>
      { s with loop := .sending ⟨download, upload⟩, downloadConns := rest }
    | _, _ => s
  | .timeout =>
    match s.loop with
    | .waiting upload =>
      { s with loop := .idle, uploads := s.uploads.set (s.taken - 1) (upload, true) }
    | _ => s
  | .send =>
    match s.loop with
    | .sending conn =>
      if s.paired.length < pairedCapacity then
        { s with loop := .idle, paired := s.paired ++ [conn] }
      else s
    | _ => s
  | .leave => if s.done then { s with returned := true } else s
  | _ => s

def Server.accept (s : Server) : Server :=
  match s.paired with
  | conn :: rest => { s with paired := rest, accepted := s.accepted ++ [conn] }
  | [] => s

def step (s : Server) (ev : Event) : Server :=
  match ev with
  | .registerUpload client => s.registerUpload client
  | .registerDownload client => s.registerDownload client
  | .accept => s.accept
  | .close => { s with done := true }
  | _ => if s.returned then s else s.pairLoop ev

/-! ## The property -/

/-- The connection joins the upload and the download of one client. -/
def HalfDuplexConn.Joins (p : HalfDuplexConn) : Prop := p.upload.client = p.download.client

/-- The uploads that did not time out. -/
def Server.survivors (s : Server) : List (Conn .upload) :=
  (s.uploads.filter fun x => !x.2).map Prod.fst

/-! ## The order of registration -/

/-- The upload that the loop holds. -/
def Phase.held : Phase → List (Conn .upload)
  | .waiting upload => [upload]
  | _ => []

/-- The pair that the loop holds. -/
def Phase.pair : Phase → List HalfDuplexConn
  | .sending conn => [conn]
  | _ => []

/-- The pairs that have been made, the oldest first. -/
def Server.made (s : Server) : List HalfDuplexConn := s.accepted ++ s.paired ++ s.loop.pair

/-- Everything is where its turn is: `past` are the uploads that the loop has dealt with. -/
structure InOrder (s : Server) (past : List (Conn .upload × Bool)) : Prop where
  uploads : s.uploads = past ++ (s.loop.held ++ s.uploadConns).map fun c => (c, false)
  taken : s.taken = past.length + s.loop.held.length
  served : (past.filter fun x => !x.2).map Prod.fst = s.made.map HalfDuplexConn.download
  downloads : s.downloads = s.made.map HalfDuplexConn.upload ++ s.downloadConns

section Steps

variable {s : Server} {past : List (Conn .upload × Bool)}

theorem InOrder.registerUpload (h : InOrder s past) (client : ℕ) :
    InOrder (s.registerUpload client) past := by
  unfold Server.registerUpload
  split_ifs
  · refine ⟨?_, h.taken, h.served, h.downloads⟩
    show s.uploads ++ _ = past ++ (s.loop.held ++ (s.uploadConns ++ _)).map _
    rw [h.uploads]
    simp
  · exact h

theorem InOrder.registerDownload (h : InOrder s past) (client : ℕ) :
    InOrder (s.registerDownload client) past := by
  unfold Server.registerDownload
  split_ifs
  · refine ⟨h.uploads, h.taken, h.served, ?_⟩
    show s.downloads ++ _ = s.made.map _ ++ (s.downloadConns ++ _)
    rw [h.downloads, List.append_assoc]
  · exact h

theorem InOrder.accept (h : InOrder s past) : InOrder s.accept past := by
  unfold Server.accept
  cases hpaired : s.paired with
  | nil => exact h
  | cons conn rest =>
    have hmade : s.accepted ++ [conn] ++ rest ++ s.loop.pair = s.made := by
      rw [Server.made, hpaired, List.append_assoc s.accepted]
      rfl
    refine ⟨h.uploads, h.taken, ?_, ?_⟩
    · rw [h.served, ← hmade]
      rfl
    · show s.downloads = (s.accepted ++ [conn] ++ rest ++ s.loop.pair).map _ ++ s.downloadConns
      rw [hmade, h.downloads]

/-- The loop takes an upload. -/
theorem InOrder.takeUpload (h : InOrder s past) : InOrder (s.pairLoop .takeUpload) past := by
  unfold Server.pairLoop
  cases hloop : s.loop with
  | idle =>
    cases hconns : s.uploadConns with
    | nil => exact h
    | cons upload rest =>
      have hmade : s.made = s.accepted ++ s.paired ++ [] := by rw [Server.made, hloop]; rfl
      refine ⟨?_, ?_, ?_, ?_⟩
      · have huploads := h.uploads
        rw [hloop, hconns] at huploads
        exact huploads
      · have htaken := h.taken
        rw [hloop] at htaken
        exact congrArg (· + 1) htaken
      · exact h.served.trans (congrArg _ hmade)
      · refine h.downloads.trans ?_
        exact congrArg (·.map HalfDuplexConn.upload ++ s.downloadConns) hmade
  | waiting upload => exact h
  | sending conn => exact h

/-- The loop pairs its upload with a download. -/
theorem InOrder.takeDownload (h : InOrder s past) :
    ∃ past', InOrder (s.pairLoop .takeDownload) past' := by
  unfold Server.pairLoop
  cases hloop : s.loop with
  | waiting upload =>
    cases hconns : s.downloadConns with
    | nil => exact ⟨past, h⟩
    | cons download rest =>
      have hmade : s.made = s.accepted ++ s.paired ++ [] := by rw [Server.made, hloop]; rfl
      obtain ⟨huploads, htaken, hserved, hdownloads⟩ := h
      rw [hloop] at huploads htaken
      rw [hmade, List.append_nil] at hserved hdownloads
      refine ⟨past ++ [(upload, false)], ?_, ?_, ?_, ?_⟩
      · rw [huploads]
        exact (List.append_assoc past [_] _).symm
      · show s.taken = (past ++ [_]).length + 0
        rw [htaken, List.length_append]
        rfl
      · rw [List.filter_append, List.map_append, hserved]
        show _ = (s.accepted ++ s.paired ++ [_]).map HalfDuplexConn.download
        simp
      · show s.downloads = (s.accepted ++ s.paired ++ [_]).map HalfDuplexConn.upload ++ rest
        rw [hdownloads, hconns]
        simp
  | idle => exact ⟨past, h⟩
  | sending conn => exact ⟨past, h⟩

/-- The loop gives its upload up. -/
theorem InOrder.timeout (h : InOrder s past) : ∃ past', InOrder (s.pairLoop .timeout) past' := by
  unfold Server.pairLoop
  cases hloop : s.loop with
  | waiting upload =>
    have hmade : s.made = s.accepted ++ s.paired ++ [] := by rw [Server.made, hloop]; rfl
    obtain ⟨huploads, htaken, hserved, hdownloads⟩ := h
    rw [hloop] at huploads htaken
    rw [hmade] at hserved hdownloads
    have hindex : s.taken - 1 = past.length := by rw [htaken]; rfl
    refine ⟨past ++ [(upload, true)], ?_, ?_, ?_, hdownloads⟩
    · show s.uploads.set _ _ = past ++ [(upload, true)] ++ s.uploadConns.map _
      rw [huploads, hindex, List.set_append_right _ _ (Nat.le_refl _), Nat.sub_self,
        List.append_assoc]
      rfl
    · show s.taken = (past ++ [_]).length + 0
      rw [htaken, List.length_append]
      rfl
    · rw [List.filter_append, List.map_append, hserved]
      exact List.append_nil _
  | idle => exact ⟨past, h⟩
  | sending conn => exact ⟨past, h⟩

/-- The loop hands its pair on. -/
theorem InOrder.send (h : InOrder s past) : InOrder (s.pairLoop .send) past := by
  unfold Server.pairLoop
  cases hloop : s.loop with
  | sending conn =>
    dsimp only
    split_ifs
    · have hmade : s.accepted ++ (s.paired ++ [conn]) ++ [] = s.made := by
        rw [Server.made, hloop, List.append_nil, ← List.append_assoc]
        rfl
      obtain ⟨huploads, htaken, hserved, hdownloads⟩ := h
      rw [hloop] at huploads htaken
      rw [← hmade] at hserved hdownloads
      exact ⟨huploads, htaken, hserved, hdownloads⟩
    · exact h
  | idle => exact h
  | waiting upload => exact h

/-- **One step.** -/
theorem InOrder.step (h : InOrder s past) (ev : Event) : ∃ past', InOrder (step s ev) past' := by
  -- the loop takes its steps unless it has returned
  have hloop : ∀ ev, (∃ past', InOrder (s.pairLoop ev) past') →
      ∃ past', InOrder (if s.returned then s else s.pairLoop ev) past' := by
    intro ev hev
    split_ifs
    · exact ⟨past, h⟩
    · exact hev
  cases ev with
  | registerUpload client => exact ⟨past, h.registerUpload client⟩
  | registerDownload client => exact ⟨past, h.registerDownload client⟩
  | accept => exact ⟨past, h.accept⟩
  | close => exact ⟨past, h.uploads, h.taken, h.served, h.downloads⟩
  | takeUpload => exact hloop .takeUpload ⟨past, h.takeUpload⟩
  | takeDownload => exact hloop .takeDownload h.takeDownload
  | timeout => exact hloop .timeout h.timeout
  | send => exact hloop .send ⟨past, h.send⟩
  | leave =>
    refine hloop .leave ⟨past, ?_⟩
    unfold Server.pairLoop
    dsimp only
    split_ifs
    · exact ⟨h.uploads, h.taken, h.served, h.downloads⟩
    · exact h

/-- In every run. -/
theorem exists_inOrder_run (es : List Event) :
    ∃ past, InOrder (run HalfDuplex.step newHalfDuplexServer es) past := by
  apply run_invariant (I := fun s => ∃ past, InOrder s past)
  · rintro s ev ⟨past, h⟩
    exact h.step ev
  · exact ⟨[], rfl, rfl, rfl, rfl⟩

theorem InOrder.survivors_eq (h : InOrder s past) :
    s.survivors = s.made.map HalfDuplexConn.download ++ (s.loop.held ++ s.uploadConns) := by
  have hall : ∀ l : List (Conn .upload),
      ((l.map fun c => (c, false)).filter fun x => !x.2).map Prod.fst = l := by
    intro l
    induction l with
    | nil => rfl
    | cons c l ih => exact congrArg (c :: ·) ih
  rw [Server.survivors, h.uploads, List.filter_append, List.map_append, h.served, hall]

/-- **Pairs are made by the order of registration**, whoever registers. -/
theorem InOrder.joins_iff (h : InOrder s past) {k : ℕ} {p : HalfDuplexConn}
    (hp : s.made[k]? = some p) :
    p.Joins ↔ (s.downloads[k]?).map Conn.client = (s.survivors[k]?).map Conn.client := by
  obtain ⟨hk, hget⟩ := List.getElem?_eq_some_iff.1 hp
  have hupload : s.survivors[k]? = some p.download := by
    rw [h.survivors_eq, List.getElem?_append_left (by rwa [List.length_map]), List.getElem?_map,
      hp, Option.map_some]
  have hdownload : s.downloads[k]? = some p.upload := by
    rw [h.downloads, List.getElem?_append_left (by rwa [List.length_map]), List.getElem?_map, hp,
      Option.map_some]
  rw [hupload, hdownload, Option.map_some, Option.map_some, Option.some.injEq]
  exact Iff.rfl

end Steps

/-- **Half-duplex pairing.**  Every connection that `Accept` returns in a run joins the upload and
the download of one client, if and only if the `k`-th download and the `k`-th upload that did not
time out, in the order of registration, are of one client, for every `k` below the number of these
connections. -/
theorem accepted_joined_iff (es : List Event) :
    (∀ p ∈ (run step newHalfDuplexServer es).accepted, p.Joins) ↔
      ∀ k < (run step newHalfDuplexServer es).accepted.length,
        ((run step newHalfDuplexServer es).downloads[k]?).map Conn.client =
          ((run step newHalfDuplexServer es).survivors[k]?).map Conn.client := by
  obtain ⟨past, h⟩ := exists_inOrder_run es
  generalize run step newHalfDuplexServer es = s at h ⊢
  have hmade : ∀ {k : ℕ} {p : HalfDuplexConn}, s.accepted[k]? = some p → s.made[k]? = some p := by
    intro k p hp
    obtain ⟨hk, -⟩ := List.getElem?_eq_some_iff.1 hp
    rw [Server.made, List.append_assoc, List.getElem?_append_left hk, hp]
  constructor
  · intro hall k hk
    have hget := List.getElem?_eq_getElem hk
    exact (h.joins_iff (hmade hget)).1 (hall _ (List.getElem_mem hk))
  · intro hall p hp
    obtain ⟨k, hget⟩ := List.mem_iff_getElem?.1 hp
    obtain ⟨hk, -⟩ := List.getElem?_eq_some_iff.1 hget
    exact (h.joins_iff (hmade hget)).2 (hall k hk)

/-- Two clients whose downloads come in the other order; and two clients in the same order, where
the upload of the first timed out before its download came. -/
theorem crossed_clients :
    (run step newHalfDuplexServer
      [.registerUpload 0, .registerUpload 1, .registerDownload 1, .registerDownload 0,
        .takeUpload, .takeDownload, .send, .accept]).accepted = [⟨⟨1⟩, ⟨0⟩⟩] ∧
    (run step newHalfDuplexServer
      [.registerUpload 0, .takeUpload, .timeout, .registerDownload 0, .registerUpload 1,
        .registerDownload 1, .takeUpload, .takeDownload, .send, .accept]).accepted = [⟨⟨0⟩, ⟨1⟩⟩] ∧
    ¬ HalfDuplexConn.Joins ⟨⟨1⟩, ⟨0⟩⟩ ∧ ¬ HalfDuplexConn.Joins ⟨⟨0⟩, ⟨1⟩⟩ := by
  refine ⟨by decide, by decide, ?_, ?_⟩
  · exact Nat.succ_ne_zero 0
  · exact (Nat.succ_ne_zero 0).symm

end HalfDuplex
