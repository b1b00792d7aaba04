/-
# The nodes of a cluster

Model of `Cluster` in `internal/cluster/cluster.go`: the map of nodes, the calls that change it, and
what `GetNodes` reports and `syncState` pushes.  The map holds pointers, and the pointer to the
local node is one of them; so a record that comes in over `/cluster/sync` under the id of the local
node is written into the local node.  The load of a node is a value of any type `F`, of which
`finite` says what can be encoded as JSON.  Times are inputs; 0 stands for the zero time.

`usage_always_iff` says along which runs the local node is reported and pushed with the values of
the latest `UpdateLocalLoad`.
-/
import Mathlib.Data.List.AList
import Mathlib.Algebra.Order.Ring.Rat
import IPShadowT.Runs

open Runs

namespace ClusterNodes

/-! ## Nodes -/

/-- `Node`, with a load of type `F`. -/
structure Node (F : Type) where
  id : String
  address : String
  region : String
  weight : ℤ
  healthy : Bool
  lastSeen : ℤ
  latency : ℤ
  load : F
  capacity : ℤ
  activeConns : ℤ
  deriving DecidableEq

/-- What `UpdateLocalLoad` sets. -/
def Node.usage {F : Type} (n : Node F) : ℤ × F := (n.activeConns, n.load)

/-- A value of the map of nodes: the pointer to the local node, or that to another. -/
inductive Pointer (F : Type) where
  | localNode
  | other (n : Node F)
  deriving DecidableEq

/-- `Cluster`, without its counters. -/
structure Cluster (F : Type) where
  localNode : Node F
  nodes : AList fun _ : String => Pointer F

/-- `ClusterConfig`, without the addresses and intervals of its loops. -/
structure ClusterConfig where
  localID : String
  localAddr : String
  region : String
  capacity : ℤ
  peerAddrs : List String

section Calls

variable {F : Type}

def Cluster.deref (c : Cluster F) : Pointer F → Node F
  | .localNode => c.localNode
  | .other n => n

/-- The node under an id is written to. -/
def Cluster.write (c : Cluster F) (id : String) (f : Node F → Node F) : Cluster F :=
  match c.nodes.lookup id with
  | some .localNode => { c with localNode := f c.localNode }
  | some (.other n) => { c with nodes := c.nodes.insert id (.other (f n)) }
  | none => c

/-- The id of a peer, which is numbered. -/
def peerID (i : ℕ) : String := "peer-" ++ toString i

variable [Zero F]

def peer (i : ℕ) (addr : String) : Node F where
  id := peerID i
  address := addr
  region := ""
  weight := 1
  healthy := false
  lastSeen := 0
  latency := 0
  load := 0
  capacity := 0
  activeConns := 0

/-- `NewCluster`. -/
def newCluster (cfg : ClusterConfig) (now : ℤ) : Cluster F where
  localNode :=
    { id := cfg.localID
      address := cfg.localAddr
      region := cfg.region
      weight := 1
      healthy := true
      lastSeen := now
      latency := 0
      load := 0
      capacity := cfg.capacity
      activeConns := 0 }
  nodes := (cfg.peerAddrs.mapIdx peer).foldl (fun nodes n => nodes.insert n.id (.other n))
    (AList.singleton cfg.localID .localNode)

omit [Zero F]

/-- `ReportNodeDown`. -/
def Cluster.reportNodeDown (c : Cluster F) (nodeID : String) : Cluster F :=
  c.write nodeID fun n => { n with healthy := false }

/-- `ReportNodeUp`. -/
def Cluster.reportNodeUp (c : Cluster F) (nodeID : String) (now : ℤ) : Cluster F :=
  c.write nodeID fun n => { n with healthy := true, lastSeen := now }

/-- `UpdateLocalLoad`. -/
def Cluster.updateLocalLoad (c : Cluster F) (activeConns : ℤ) (load : F) (now : ℤ) : Cluster F :=
  { c with localNode :=
    { c.localNode with activeConns := activeConns, load := load, lastSeen := now } }

/-- `GetNodes`. -/
def Cluster.getNodes (c : Cluster F) : List (Node F) := c.nodes.entries.map fun e => c.deref e.2

/-- A goroutine of `checkPeers` has pinged a node. -/
def Cluster.checked (c : Cluster F) (id : String) (healthy : Bool) (latency now : ℤ) : Cluster F :=
  if id = c.localNode.id then c
  else
    c.write id fun n =>
      if healthy then { n with healthy := true, latency := latency, lastSeen := now }
      else { n with healthy := false }

/-- `syncState`: the addresses it posts to, each with the record; none is the empty body of a record
that cannot be encoded. -/
def Cluster.syncState (finite : F → Bool) (c : Cluster F) : List (String × Option (Node F)) :=
  let localState := if finite c.localNode.load then some c.localNode else none
  let peers := c.getNodes.filter fun n => decide (n.id ≠ c.localNode.id) && n.healthy
  peers.map fun n => (n.address, localState)

/-- What `handleSync` takes from a record for a node that there is. -/
def Node.merge (now : ℤ) (node existing : Node F) : Node F :=
  { existing with
    load := node.load
    activeConns := node.activeConns
    lastSeen := now
    healthy := true }

/-- What `handleSync` makes of a record for a node that there is not. -/
def Node.seen (now : ℤ) (node : Node F) : Node F := { node with healthy := true, lastSeen := now }

/-- The map with another node. -/
def Cluster.insert (c : Cluster F) (node : Node F) : Cluster F :=
  { c with nodes := c.nodes.insert node.id (.other node) }

/-- `handleSync`: the status, the text of an error, and the cluster.  The body is none if it cannot
be decoded. -/
def Cluster.handleSync (c : Cluster F) (method : String) (body : Option (Node F)) (now : ℤ) :
    (ℕ × String) × Cluster F :=
  if method ≠ "POST" then ((405, "POST only"), c)
  else
    match body with
    | none => ((400, "invalid body"), c)
    | some node =>
      if node.id ∈ c.nodes then ((200, ""), c.write node.id (node.merge now))
      else ((200, ""), c.insert (node.seen now))

end Calls

/-! ## Runs -/

/-- The cluster, and the values of the latest `UpdateLocalLoad`. -/
structure Trace (F : Type) where
  cluster : Cluster F
  latest : ℤ × F

inductive Event (F : Type) where
  | updateLocalLoad (activeConns : ℤ) (load : F) (now : ℤ)
  | handleSync (method : String) (body : Option (Node F)) (now : ℤ)
  | reportNodeDown (nodeID : String)
  | reportNodeUp (nodeID : String) (now : ℤ)
  | checked (id : String) (healthy : Bool) (latency now : ℤ)

section Runs

variable {F : Type}

def Trace.start [Zero F] (cfg : ClusterConfig) (now : ℤ) : Trace F := ⟨newCluster cfg now, (0, 0)⟩

def Trace.step (t : Trace F) : Event F → Trace F
  | .updateLocalLoad activeConns load now =>
    ⟨t.cluster.updateLocalLoad activeConns load now, (activeConns, load)⟩
  | .handleSync method body now => { t with cluster := (t.cluster.handleSync method body now).2 }
  | .reportNodeDown nodeID => { t with cluster := t.cluster.reportNodeDown nodeID }
  | .reportNodeUp nodeID now => { t with cluster := t.cluster.reportNodeUp nodeID now }
  | .checked id healthy latency now =>
    { t with cluster := t.cluster.checked id healthy latency now }

/-- The local node is reported and pushed with the values of the latest `UpdateLocalLoad`. -/
def Latest (finite : F → Bool) (t : Trace F) : Prop :=
  (∀ n ∈ t.cluster.getNodes, n.id = t.cluster.localNode.id → n.usage = t.latest) ∧
    ∀ post ∈ t.cluster.syncState finite, ∀ n, post.2 = some n → n.usage = t.latest

/-- The ids of the peers. -/
def ClusterConfig.peerIDs (cfg : ClusterConfig) : List String :=
  (List.range cfg.peerAddrs.length).map peerID

/-- A record for the local node carries its values; and if a peer has the id of the local node, so
does every update. -/
def NoInterference (cfg : ClusterConfig) (t : Trace F) : Event F → Prop
  | .updateLocalLoad activeConns load _ =>
    cfg.localID ∉ cfg.peerIDs ∨ (activeConns, load) = t.latest
  | .handleSync method body _ =>
    method = "POST" → ∀ node, body = some node → node.id = cfg.localID → node.usage = t.latest
  | .reportNodeDown _ => True
  | .reportNodeUp _ _ => True
  | .checked _ _ _ _ => True

/-! ### What is reported -/

/-- The node that the map has under an id. -/
def Cluster.nodeAt (c : Cluster F) (id : String) : Option (Node F) :=
  (c.nodes.lookup id).map c.deref

/-- The map has every node under its id, and under the id of the local node there is the local node,
or the peer that has that id. -/
structure WellFormed (cfg : ClusterConfig) (t : Trace F) : Prop where
  id : t.cluster.localNode.id = cfg.localID
  keys : ∀ k n, t.cluster.nodeAt k = some n → n.id = k
  entry : (cfg.localID ∉ cfg.peerIDs ∧ t.cluster.nodes.lookup cfg.localID = some .localNode) ∨
    (cfg.localID ∈ cfg.peerIDs ∧ t.cluster.localNode.usage = t.latest ∧
      ∃ n, t.cluster.nodes.lookup cfg.localID = some (.other n))

variable {cfg : ClusterConfig} {t : Trace F} {finite : F → Bool}

theorem nodeAt_eq {c : Cluster F} {id : String} {p : Pointer F}
    (h : c.nodes.lookup id = some p) : c.nodeAt id = some (c.deref p) :=
  congrArg (Option.map c.deref) h

theorem mem_getNodes_iff {c : Cluster F} {n : Node F} :
    n ∈ c.getNodes ↔ ∃ k, c.nodeAt k = some n := by
  constructor
  · intro hn
    obtain ⟨⟨k, p⟩, hmem, rfl⟩ := List.mem_map.1 hn
    exact ⟨k, nodeAt_eq (AList.mem_lookup_iff.2 hmem)⟩
  · rintro ⟨k, hk⟩
    obtain ⟨p, hp, rfl⟩ := Option.map_eq_some_iff.1 hk
    exact List.mem_map.2 ⟨⟨k, p⟩, AList.mem_lookup_iff.1 hp, rfl⟩

/-- What is pushed is the local node. -/
theorem eq_localNode_of_syncState {c : Cluster F} {post : String × Option (Node F)}
    (hpost : post ∈ c.syncState finite) {n : Node F} (hn : post.2 = some n) : n = c.localNode := by
  obtain ⟨m, -, rfl⟩ := List.mem_map.1 hpost
  dsimp only at hn
  split_ifs at hn with hfinite
  exact (Option.some.inj hn).symm

theorem WellFormed.exists_nodeAt (h : WellFormed cfg t) :
    ∃ n, t.cluster.nodeAt cfg.localID = some n := by
  rcases h.entry with ⟨-, hentry⟩ | ⟨-, -, n, hentry⟩
  · exact ⟨_, nodeAt_eq hentry⟩
  · exact ⟨_, nodeAt_eq hentry⟩

/-- The local node is pushed with the values of the latest update whenever it is reported with
them. -/
theorem WellFormed.latest_iff (h : WellFormed cfg t) :
    Latest finite t ↔ ∀ n, t.cluster.nodeAt cfg.localID = some n → n.usage = t.latest := by
  constructor
  · intro hlatest n hn
    apply hlatest.1 n (mem_getNodes_iff.2 ⟨_, hn⟩)
    rw [h.keys _ n hn, h.id]
  · intro husage
    constructor
    · intro n hn hid
      obtain ⟨k, hk⟩ := mem_getNodes_iff.1 hn
      have hlocal : k = cfg.localID := by rw [← h.keys k n hk, hid, h.id]
      rw [hlocal] at hk
      exact husage n hk
    · intro post hpost n hn
      rw [eq_localNode_of_syncState hpost hn]
      rcases h.entry with ⟨-, hentry⟩ | ⟨-, hpushed, -⟩
      · exact husage _ (nodeAt_eq hentry)
      · exact hpushed

/-! ### Writes -/

/-- A write through a pointer; that to the local node stays what it is. -/
def Pointer.write (f : Node F → Node F) : Pointer F → Pointer F
  | .localNode => .localNode
  | .other n => .other (f n)

theorem lookup_write (c : Cluster F) (id : String) (f : Node F → Node F) (k : String) :
    (c.write id f).nodes.lookup k =
      if k = id then (c.nodes.lookup k).map (.write f) else c.nodes.lookup k := by
  unfold Cluster.write
  by_cases hk : k = id
  · subst hk
    rw [if_pos rfl]
    cases hid : c.nodes.lookup k with
    | none => exact hid
    | some p =>
      cases p with
      | localNode => exact hid
      | other n => exact AList.lookup_insert _
  · rw [if_neg hk]
    cases c.nodes.lookup id with
    | none => rfl
    | some p =>
      cases p with
      | localNode => rfl
      | other n => exact AList.lookup_insert_ne hk

theorem localNode_write_self {c : Cluster F} {id : String} (f : Node F → Node F)
    (h : c.nodes.lookup id = some .localNode) : (c.write id f).localNode = f c.localNode := by
  unfold Cluster.write
  rw [h]

theorem localNode_write_other {c : Cluster F} {id : String} (f : Node F → Node F)
    (h : c.nodes.lookup id ≠ some .localNode) : (c.write id f).localNode = c.localNode := by
  unfold Cluster.write
  cases hid : c.nodes.lookup id with
  | none => rfl
  | some p =>
    cases p with
    | localNode => exact absurd hid h
    | other n => rfl

/-- The pointer to the local node is only under its own id. -/
theorem WellFormed.eq_of_lookup (h : WellFormed cfg t) {k : String}
    (hk : t.cluster.nodes.lookup k = some .localNode) : k = cfg.localID :=
  (h.keys k _ (nodeAt_eq hk)).symm.trans h.id

/-- A write changes the node under the id, and no other. -/
theorem WellFormed.nodeAt_write (h : WellFormed cfg t) (id : String) (f : Node F → Node F)
    (k : String) :
    (t.cluster.write id f).nodeAt k =
      if k = id then (t.cluster.nodeAt k).map f else t.cluster.nodeAt k := by
  unfold Cluster.nodeAt
  rw [lookup_write]
  cases hk : t.cluster.nodes.lookup k with
  | none => simp
  | some p =>
    cases p with
    | other n => split_ifs <;> rfl
    | localNode =>
      by_cases hid : k = id
      · subst hid
        simp [Pointer.write, Cluster.deref, localNode_write_self f hk]
      · have hnot : t.cluster.nodes.lookup id ≠ some .localNode := by
          intro hlocal
          exact hid ((h.eq_of_lookup hk).trans (h.eq_of_lookup hlocal).symm)
        simp [Cluster.deref, localNode_write_other f hnot, hid]

theorem WellFormed.write (h : WellFormed cfg t) {f : Node F → Node F} (hf : ∀ n, (f n).id = n.id)
    (id : String) : WellFormed cfg { t with cluster := t.cluster.write id f } := by
  refine ⟨?_, ?_, ?_⟩
  · show (t.cluster.write id f).localNode.id = cfg.localID
    by_cases hlocal : t.cluster.nodes.lookup id = some .localNode
    · rw [localNode_write_self f hlocal, hf, h.id]
    · rw [localNode_write_other f hlocal, h.id]
  · intro k n hn
    replace hn : (t.cluster.write id f).nodeAt k = some n := hn
    rw [h.nodeAt_write] at hn
    split_ifs at hn with hk
    · obtain ⟨m, hm, rfl⟩ := Option.map_eq_some_iff.1 hn
      rw [hf]
      exact h.keys k m hm
    · exact h.keys k n hn
  · rcases h.entry with ⟨hnot, hentry⟩ | ⟨hmem, hpushed, n, hentry⟩
    · refine .inl ⟨hnot, ?_⟩
      show (t.cluster.write id f).nodes.lookup cfg.localID = _
      rw [lookup_write, hentry]
      split_ifs <;> rfl
    · have hother : t.cluster.nodes.lookup id ≠ some .localNode := by
        intro hlocal
        rw [h.eq_of_lookup hlocal, hentry] at hlocal
        cases hlocal
      refine .inr ⟨hmem, ?_, ?_⟩
      · show (t.cluster.write id f).localNode.usage = t.latest
        rw [localNode_write_other f hother, hpushed]
      · show ∃ n, (t.cluster.write id f).nodes.lookup cfg.localID = some (.other n)
        rw [lookup_write, hentry]
        split_ifs
        · exact ⟨f n, rfl⟩
        · exact ⟨n, rfl⟩

/-- A record under an id that the map does not have. -/
theorem WellFormed.insert (h : WellFormed cfg t) (node : Node F)
    (hnew : node.id ∉ t.cluster.nodes) :
    WellFormed cfg { t with cluster := t.cluster.insert node } ∧
      (t.cluster.insert node).nodeAt cfg.localID = t.cluster.nodeAt cfg.localID := by
  have hne : cfg.localID ≠ node.id := by
    intro hid
    obtain ⟨n, hn⟩ := h.exists_nodeAt
    obtain ⟨p, hp, -⟩ := Option.map_eq_some_iff.1 hn
    rw [← hid, ← AList.lookup_eq_none, hp] at hnew
    cases hnew
  have hlookup : (t.cluster.nodes.insert node.id (.other node)).lookup cfg.localID =
      t.cluster.nodes.lookup cfg.localID := AList.lookup_insert_ne hne
  refine ⟨⟨h.id, ?_, ?_⟩, congrArg (Option.map _) hlookup⟩
  · intro k n hn
    obtain ⟨p, hp, rfl⟩ := Option.map_eq_some_iff.1 hn
    replace hp : (t.cluster.nodes.insert node.id (.other node)).lookup k = some p := hp
    by_cases hk : k = node.id
    · subst hk
      rw [AList.lookup_insert] at hp
      rw [← Option.some.inj hp]
      rfl
    · rw [AList.lookup_insert_ne hk] at hp
      exact h.keys k _ (nodeAt_eq hp)
  · show (_ ∧ (t.cluster.nodes.insert node.id (.other node)).lookup cfg.localID = _) ∨
      (_ ∧ _ ∧ ∃ n, (t.cluster.nodes.insert node.id (.other node)).lookup cfg.localID = _)
    rw [hlookup]
    exact h.entry

/-! ### Steps -/

theorem WellFormed.latest_write_iff (h : WellFormed cfg t) {f : Node F → Node F}
    (hf : ∀ n, (f n).id = n.id) (id : String) :
    Latest finite { t with cluster := t.cluster.write id f } ↔
      ∀ n, t.cluster.nodeAt cfg.localID = some n →
        (if cfg.localID = id then f n else n).usage = t.latest := by
  rw [(h.write hf id).latest_iff]
  show (∀ n, (t.cluster.write id f).nodeAt cfg.localID = some n → n.usage = t.latest) ↔ _
  obtain ⟨n, hn⟩ := h.exists_nodeAt
  rw [h.nodeAt_write, hn]
  split_ifs <;> simp

/-- A write that keeps the values that are reported. -/
theorem WellFormed.latest_write (h : WellFormed cfg t) {f : Node F → Node F}
    (hf : ∀ n, (f n).id = n.id ∧ (f n).usage = n.usage) (hlatest : Latest finite t) (id : String) :
    Latest finite { t with cluster := t.cluster.write id f } := by
  rw [h.latest_write_iff fun n => (hf n).1]
  intro n hn
  have husage := h.latest_iff.1 hlatest n hn
  split_ifs
  · rw [(hf n).2, husage]
  · exact husage

theorem WellFormed.updateLocalLoad (h : WellFormed cfg t) (activeConns : ℤ) (load : F) (now : ℤ) :
    WellFormed cfg (t.step (.updateLocalLoad activeConns load now)) := by
  refine ⟨h.id, ?_, ?_⟩
  · intro k n hn
    obtain ⟨p, hp, rfl⟩ := Option.map_eq_some_iff.1 hn
    have hold : t.cluster.nodeAt k = some (t.cluster.deref p) := nodeAt_eq hp
    cases p with
    | localNode =>
      show t.cluster.localNode.id = k
      exact h.keys k _ hold
    | other n => exact h.keys k _ hold
  · rcases h.entry with hlocal | ⟨hmem, -, hentry⟩
    · exact .inl hlocal
    · exact .inr ⟨hmem, rfl, hentry⟩

theorem WellFormed.latest_updateLocalLoad_iff (h : WellFormed cfg t) (hlatest : Latest finite t)
    (activeConns : ℤ) (load : F) (now : ℤ) :
    Latest finite (t.step (.updateLocalLoad activeConns load now)) ↔
      cfg.localID ∉ cfg.peerIDs ∨ (activeConns, load) = t.latest := by
  rw [(h.updateLocalLoad activeConns load now).latest_iff]
  rcases h.entry with ⟨hnot, hentry⟩ | ⟨hmem, -, m, hentry⟩
  · -- the local node is under its id, and has the new values
    refine iff_of_true ?_ (.inl hnot)
    intro n hn
    obtain ⟨p, hp, rfl⟩ := Option.map_eq_some_iff.1 hn
    obtain rfl : Pointer.localNode = p := Option.some.inj (hentry.symm.trans hp)
    rfl
  · -- the peer is under the id, and keeps the old ones
    have hm : m.usage = t.latest := h.latest_iff.1 hlatest m (nodeAt_eq hentry)
    constructor
    · intro husage
      have hnew : m.usage = (activeConns, load) := husage m (congrArg (Option.map _) hentry)
      exact .inr (hnew.symm.trans hm)
    · rintro (hnot | hsame) n hn
      · exact absurd hmem hnot
      · obtain ⟨p, hp, rfl⟩ := Option.map_eq_some_iff.1 hn
        obtain rfl : Pointer.other m = p := Option.some.inj (hentry.symm.trans hp)
        exact hm.trans hsame.symm

/-- A write that keeps the id of a node and the values that are reported. -/
def KeepsUsage (f : Node F → Node F) : Prop := ∀ n, (f n).id = n.id ∧ (f n).usage = n.usage

/-- What a call does: it updates the local node, merges or inserts a record, or leaves all ids and
all values as they are. -/
theorem step_cases (t : Trace F) (e : Event F) :
    (∃ activeConns load now, e = .updateLocalLoad activeConns load now) ∨
      (∃ node now, e = .handleSync "POST" (some node) now ∧ node.id ∈ t.cluster.nodes ∧
        t.step e = { t with cluster := t.cluster.write node.id (node.merge now) }) ∨
      (∃ node now, e = .handleSync "POST" (some node) now ∧ node.id ∉ t.cluster.nodes ∧
        t.step e = { t with cluster := t.cluster.insert (node.seen now) }) ∨
      ((∀ cfg, NoInterference cfg t e) ∧
        (t.step e = t ∨
          ∃ id f, t.step e = { t with cluster := t.cluster.write id f } ∧ KeepsUsage f)) := by
  cases e with
  | updateLocalLoad activeConns load now => exact .inl ⟨activeConns, load, now, rfl⟩
  | reportNodeDown nodeID =>
    exact .inr (.inr (.inr ⟨fun _ => trivial, .inr ⟨nodeID, _, rfl, fun n => ⟨rfl, rfl⟩⟩⟩))
  | reportNodeUp nodeID now =>
    exact .inr (.inr (.inr ⟨fun _ => trivial, .inr ⟨nodeID, _, rfl, fun n => ⟨rfl, rfl⟩⟩⟩))
  | checked id healthy latency now =>
    refine .inr (.inr (.inr ⟨fun _ => trivial, ?_⟩))
    by_cases hid : id = t.cluster.localNode.id
    · left
      simp [Trace.step, Cluster.checked, hid]
    · right
      refine ⟨id, _, by simp [Trace.step, Cluster.checked, hid]; rfl, ?_⟩
      intro n
      split_ifs <;> exact ⟨rfl, rfl⟩
  | handleSync method body now =>
    by_cases hmethod : method = "POST"
    · subst hmethod
      cases body with
      | none => exact .inr (.inr (.inr ⟨fun cfg _ node hnode => (by cases hnode), .inl rfl⟩))
      | some node =>
        by_cases hmem : node.id ∈ t.cluster.nodes
        · refine .inr (.inl ⟨node, now, rfl, hmem, ?_⟩)
          simp [Trace.step, Cluster.handleSync, hmem]
        · refine .inr (.inr (.inl ⟨node, now, rfl, hmem, ?_⟩))
          simp [Trace.step, Cluster.handleSync, hmem]
    · refine .inr (.inr (.inr ⟨fun cfg hpost => absurd hpost hmethod, .inl ?_⟩))
      simp [Trace.step, Cluster.handleSync, hmethod]

theorem merge_id (node : Node F) (now : ℤ) (n : Node F) : (node.merge now n).id = n.id := rfl

/-- **Every step** keeps the map. -/
theorem WellFormed.step (h : WellFormed cfg t) (e : Event F) : WellFormed cfg (t.step e) := by
  rcases step_cases t e with ⟨activeConns, load, now, rfl⟩ | ⟨node, now, -, -, hstep⟩ |
    ⟨node, now, -, hnew, hstep⟩ | ⟨-, hstep | ⟨id, f, hstep, hf⟩⟩
  · exact h.updateLocalLoad activeConns load now
  · rw [hstep]
    exact h.write (merge_id node now) node.id
  · rw [hstep]
    exact (h.insert (node.seen now) hnew).1
  · rw [hstep]
    exact h
  · rw [hstep]
    exact h.write (fun n => (hf n).1) id

/-- **The step.**  A report that is right stays right exactly if the call does not interfere. -/
theorem WellFormed.latest_step_iff (h : WellFormed cfg t) (hlatest : Latest finite t)
    (e : Event F) : Latest finite (t.step e) ↔ NoInterference cfg t e := by
  rcases step_cases t e with ⟨activeConns, load, now, rfl⟩ | ⟨node, now, rfl, -, hstep⟩ |
    ⟨node, now, rfl, hnew, hstep⟩ | ⟨hquiet, hstep | ⟨id, f, hstep, hf⟩⟩
  · exact h.latest_updateLocalLoad_iff hlatest activeConns load now
  · rw [hstep, h.latest_write_iff (merge_id node now)]
    obtain ⟨n, hn⟩ := h.exists_nodeAt
    have husage := h.latest_iff.1 hlatest n hn
    constructor
    · rintro hmerge - node' hnode hid
      obtain rfl : node = node' := Option.some.inj hnode
      have hmerged := hmerge n hn
      rwa [if_pos hid.symm] at hmerged
    · intro hok m hm
      obtain rfl : n = m := Option.some.inj (hn.symm.trans hm)
      split_ifs with hid
      · exact hok rfl node rfl hid.symm
      · exact husage
  · have hinsert := h.insert (node.seen now) hnew
    rw [hstep, hinsert.1.latest_iff, hinsert.2]
    refine iff_of_true (h.latest_iff.1 hlatest) ?_
    rintro - node' hnode hid
    obtain rfl : node = node' := Option.some.inj hnode
    obtain ⟨n, hn⟩ := h.exists_nodeAt
    obtain ⟨p, hp, -⟩ := Option.map_eq_some_iff.1 hn
    rw [hid, ← AList.lookup_eq_none, hp] at hnew
    cases hnew
  · rw [hstep]
    exact iff_of_true hlatest (hquiet cfg)
  · rw [hstep]
    exact iff_of_true (h.latest_write hf hlatest id) (hquiet cfg)

/-! ### The start -/

/-- The map that `NewCluster` fills: the last node of the list that has the id, or what was there
before. -/
theorem lookup_foldl_insert (l : List (Node F)) (nodes : AList fun _ : String => Pointer F)
    (k : String) :
    (∃ n ∈ l, n.id = k ∧
        (l.foldl (fun nodes n => nodes.insert n.id (.other n)) nodes).lookup k = some (.other n)) ∨
      ((∀ n ∈ l, n.id ≠ k) ∧
        (l.foldl (fun nodes n => nodes.insert n.id (.other n)) nodes).lookup k =
          nodes.lookup k) := by
  induction l generalizing nodes with
  | nil => exact .inr ⟨fun n hn => absurd hn List.not_mem_nil, rfl⟩
  | cons a l ih =>
    rcases ih (nodes.insert a.id (.other a)) with ⟨n, hn, hid, hlookup⟩ | ⟨hne, hlookup⟩
    · exact .inl ⟨n, List.mem_cons_of_mem _ hn, hid, hlookup⟩
    · by_cases hk : a.id = k
      · subst hk
        exact .inl ⟨a, List.mem_cons_self, rfl, hlookup.trans (AList.lookup_insert _)⟩
      · refine .inr ⟨List.forall_mem_cons.2 ⟨hk, hne⟩, hlookup.trans ?_⟩
        exact AList.lookup_insert_ne (Ne.symm hk)

variable [Zero F]

theorem mem_peers {cfg : ClusterConfig} {n : Node F} (hn : n ∈ cfg.peerAddrs.mapIdx peer) :
    n.id ∈ cfg.peerIDs ∧ n.usage = (0, 0) := by
  obtain ⟨i, hi, rfl⟩ := List.mem_mapIdx.1 hn
  exact ⟨List.mem_map.2 ⟨i, List.mem_range.2 hi, rfl⟩, rfl⟩

theorem exists_peer {cfg : ClusterConfig} {k : String} (hk : k ∈ cfg.peerIDs) :
    ∃ n : Node F, n ∈ cfg.peerAddrs.mapIdx peer ∧ n.id = k := by
  obtain ⟨i, hi, rfl⟩ := List.mem_map.1 hk
  exact ⟨_, List.mem_mapIdx.2 ⟨i, List.mem_range.1 hi, rfl⟩, rfl⟩

theorem lookup_newCluster (cfg : ClusterConfig) (now : ℤ) (k : String) :
    (∃ n : Node F, n ∈ cfg.peerAddrs.mapIdx peer ∧ n.id = k ∧
        (newCluster cfg now).nodes.lookup k = some (.other n)) ∨
      (k ∉ cfg.peerIDs ∧ (newCluster cfg now : Cluster F).nodes.lookup k =
        if k = cfg.localID then some .localNode else none) := by
  rcases lookup_foldl_insert (F := F) (cfg.peerAddrs.mapIdx peer)
    (AList.singleton cfg.localID .localNode) k with ⟨n, hn, hid, hlookup⟩ | ⟨hne, hlookup⟩
  · exact .inl ⟨n, hn, hid, hlookup⟩
  · refine .inr ⟨?_, hlookup.trans ?_⟩
    · intro hk
      obtain ⟨n, hn, hid⟩ := exists_peer (F := F) hk
      exact hne n hn hid
    · rw [← AList.insert_empty]
      split_ifs with hk
      · rw [hk, AList.lookup_insert]
      · rw [AList.lookup_insert_ne hk, AList.lookup_empty]

/-- A new cluster. -/
theorem wellFormed_start (cfg : ClusterConfig) (now : ℤ) :
    WellFormed cfg (Trace.start cfg now : Trace F) := by
  refine ⟨rfl, ?_, ?_⟩
  · intro k n hn
    obtain ⟨p, hp, rfl⟩ := Option.map_eq_some_iff.1 hn
    replace hp : (newCluster cfg now).nodes.lookup k = some p := hp
    rcases lookup_newCluster (F := F) cfg now k with ⟨m, -, hid, hlookup⟩ | ⟨-, hlookup⟩
    · obtain rfl : Pointer.other m = p := Option.some.inj (hlookup.symm.trans hp)
      exact hid
    · rw [hlookup] at hp
      split_ifs at hp with hk
      obtain rfl : Pointer.localNode = p := Option.some.inj hp
      exact hk.symm
  · rcases lookup_newCluster (F := F) cfg now cfg.localID with
      ⟨m, hm, hid, hlookup⟩ | ⟨hnot, hlookup⟩
    · refine .inr ⟨?_, rfl, m, hlookup⟩
      rw [← hid]
      exact (mem_peers hm).1
    · rw [if_pos rfl] at hlookup
      exact .inl ⟨hnot, hlookup⟩

/-- It is right. -/
theorem latest_start (cfg : ClusterConfig) (now : ℤ) :
    Latest finite (Trace.start cfg now : Trace F) := by
  rw [(wellFormed_start cfg now).latest_iff]
  intro n hn
  obtain ⟨p, hp, rfl⟩ := Option.map_eq_some_iff.1 hn
  replace hp : (newCluster cfg now).nodes.lookup cfg.localID = some p := hp
  rcases lookup_newCluster (F := F) cfg now cfg.localID with ⟨m, hm, -, hlookup⟩ | ⟨-, hlookup⟩
  · obtain rfl : Pointer.other m = p := Option.some.inj (hlookup.symm.trans hp)
    exact (mem_peers hm).2
  · rw [if_pos rfl] at hlookup
    obtain rfl : Pointer.localNode = p := Option.some.inj (hlookup.symm.trans hp)
    rfl

/-- **The local node and the records of others.**  Along a run from `NewCluster`, the local node is
always reported and pushed with the values of the latest `UpdateLocalLoad`, exactly if every record
that is accepted for its id carries these values, and no peer has its id or the values never
change. -/
theorem usage_always_iff (finite : F → Bool) (cfg : ClusterConfig) (now : ℤ)
    (es : List (Event F)) :
    Always Trace.step (Latest finite) (Trace.start cfg now) es ↔
      EachStep Trace.step (NoInterference cfg) (Trace.start cfg now) es :=
  always_iff_eachStep_of_invariant (J := WellFormed cfg) (fun _ e h => h.step e)
    (fun _ e h hlatest => h.latest_step_iff hlatest e) (wellFormed_start cfg now)
    (latest_start cfg now) es

/-- A node `a` without peers is at 5 connections and a load of 0.2, and a record arrives that has
its id: it is reported with the values of the record. -/
theorem usage_overwritten :
    let cfg : ClusterConfig := ⟨"a", "10.0.0.1:443", "", 100, []⟩
    let record : Node ℚ := ⟨"a", "", "", 0, false, 0, 0, 0, 0, 99⟩
    let es := [.updateLocalLoad 5 (1 / 5) 1, .handleSync "POST" (some record) 2]
    (run Trace.step (Trace.start cfg 0) es).cluster.getNodes.map (fun n => (n.id, n.usage)) =
        [("a", (99, 0))] ∧
      ¬ Always Trace.step (Latest fun _ => true) (Trace.start cfg 0) es := by
  intro cfg record es
  have hnodes : (run Trace.step (Trace.start cfg 0) es).cluster.getNodes.map
      (fun n => (n.id, n.usage)) = [("a", (99, 0))] := by decide +kernel
  refine ⟨hnodes, fun h => ?_⟩
  have hmem : ("a", ((99 : ℤ), (0 : ℚ))) ∈
      (run Trace.step (Trace.start cfg 0) es).cluster.getNodes.map fun n => (n.id, n.usage) := by
    rw [hnodes]
    exact List.mem_cons_self
  obtain ⟨n, hn, hpair⟩ := List.mem_map.1 hmem
  obtain ⟨hid, husage⟩ := Prod.mk.inj hpair
  have hlatest := h.last.1 n hn hid
  rw [husage] at hlatest
  exact absurd hlatest (by decide +kernel)

end Runs

end ClusterNodes
