/-
# The paths that a client dials

Model of the part of `internal/multipath/multipath.go` that a `Client` uses, and of how
`client.New` sets it up: with any paths configured, `dialTransport` leaves the choice to a
`Manager` of its own with the strategy `priority`, and not to the address and the transport
that the engine's switch callback has put into the configuration.

The manager sorts the paths by priority with `sort.Slice`, which may put paths of one
priority in any order: `ByPriority` is the type of the possible results.

A connection goes to the first path in that order that is available and can be dialed
(`dialPriority_eq`), whichever the failover manager has switched to (`opened_target_iff`).
-/
import IPShadowT.Engine
import IPShadowT.Runs

open Failover (PathConfig)
open Runs

namespace Multipath

/-! ## Transports -/

/-- The kinds of transport. -/
inductive Kind where
  | tcpmux
  | wsmux
  | reality
  | h2mux
  | shadowtls
  | grpc
  | quic
  | kcp
  | reverse
  | faketcp
  deriving DecidableEq, Repr

/-- The `switch` of `NewTransport`. -/
def kindOf (transport : String) : Kind :=
  if transport = "tcpmux" then .tcpmux
  else if transport = "wsmux" then .wsmux
  else if transport = "reality" then .reality
  else if transport = "h2mux" then .h2mux
  else if transport = "shadowtls" then .shadowtls
  else if transport = "grpc" then .grpc
  else if transport = "quic" then .quic
  else if transport = "kcp" then .kcp
  else if transport = "reverse" then .reverse
  else if transport = "faketcp" then .faketcp
  else .tcpmux

/-- What a call of `NewTransport` comes to. -/
inductive Built where
  | transport (kind : Kind)
  | refused
  /-- `NewReverse` calls `NewTransport` with the same name again, without end -/
  | unending
  deriving DecidableEq, Repr

/-- `NewTransport`; `realityOk` says whether `NewReality` accepts the configuration, and no
other constructor refuses. -/
def newTransport (realityOk : Bool) (transport : String) : Built :=
  match kindOf transport with
  | .reality => if realityOk then .transport .reality else .refused
  | .reverse => .unending
  | kind => .transport kind

/-- Where a connection goes, and over what. -/
structure Endpoint where
  remoteAddr : String
  transport : Kind
  deriving DecidableEq, Repr

/-- The remote address and the transport of a path. -/
def endpointOf (p : PathConfig) : Endpoint := ⟨p.remoteAddr, kindOf p.transport⟩

/-! ## The manager -/

/-- `Path`, without what only `GetStatus` reads. -/
structure Path where
  config : PathConfig
  available : Bool
  failures : ℕ
  deriving DecidableEq, Repr

/-- The results `sort.Slice` may have on a list of paths. -/
abbrev ByPriority (paths : List PathConfig) :=
  { order : List PathConfig //
    order.Perm paths ∧ order.Pairwise fun p q => p.priority ≤ q.priority }

/-- `NewManager` after sorting; `none` if it returns an error or, because of a transport
`reverse`, does not return. -/
def newManager (realityOk : Bool) {paths : List PathConfig} (order : ByPriority paths) :
    Option (List Path) :=
  if ∃ p ∈ order.1, newTransport realityOk p.transport = .unending then none
  else
    let made := (order.1.filter fun p => newTransport realityOk p.transport ≠ .refused).map
      fun p => ⟨p, true, 0⟩
    if made = [] then none else some made

/-- `dialPriority`, where `up i` says whether the `i`-th path can be dialed: the path a
connection has been opened to, and the failures counted. -/
def dialPriority : (up : ℕ → Bool) → List Path → Option PathConfig × List Path
  | _, [] => (none, [])
  | up, p :: ps =>
    if p.available then
      if up 0 then (some p.config, { p with failures := 0 } :: ps)
      else
        let (opened, ps) := dialPriority (fun i => up (i + 1)) ps
        (opened, { p with failures := p.failures + 1 } :: ps)
    else
      let (opened, ps) := dialPriority (fun i => up (i + 1)) ps
      (opened, p :: ps)

/-- What `checkPaths` does with one path, after dialing it. -/
def checkPath (p : Path) (ok : Bool) : Path :=
  if ok then { p with available := true, failures := 0 } else { p with available := false }

/-! ## The client -/

/-- The part of `Client` that `dialTransport` reads, and all connections it has opened, the
last one first. -/
structure Client where
  transport : Endpoint
  paths : Option (List Path)
  opened : List Endpoint
  deriving DecidableEq, Repr

/-- `New` with the configuration that the engine holds. -/
def newClient (realityOk : Bool) (e : Engine) (order : ByPriority e.paths) : Option Client :=
  match newTransport realityOk e.transport with
  | .transport kind =>
    if e.paths = [] then some ⟨⟨e.remoteAddr, kind⟩, none, []⟩
    else (newManager realityOk order).map fun made => ⟨⟨e.remoteAddr, kind⟩, some made, []⟩
  | .refused | .unending => none

/-- A call of `dialTransport`, and the check of one path by the manager. -/
inductive Event where
  | dial (up : ℕ → Bool)
  | check (i : ℕ) (ok : Bool)

def step (c : Client) : Event → Client
  | .dial up =>
    match c.paths with
    | none => if up 0 then { c with opened := c.transport :: c.opened } else c
    | some paths =>
      let (opened, paths) := dialPriority up paths
      { c with
        paths := some paths
        opened := (opened.map endpointOf).toList ++ c.opened }
  | .check i ok =>
    match c.paths with
    | none => c
    | some paths => { c with paths := some (paths.modify i (checkPath · ok)) }

/-! ## Which path is in use -/

/-- The first path, in the order of the manager, that is available and can be dialed. -/
def firstUp (up : ℕ → Bool) (paths : List Path) : Option PathConfig :=
  (paths.zipIdx.find? fun q => q.1.available && up q.2).map fun q => q.1.config

theorem firstUp_cons (up : ℕ → Bool) (p : Path) (ps : List Path) :
    firstUp up (p :: ps)
      = if p.available && up 0 then some p.config else firstUp (fun i => up (i + 1)) ps := by
  rw [firstUp, List.zipIdx_cons, List.find?_cons, firstUp]
  cases p.available && up 0 with
  | true => rfl
  | false =>
    rw [Nat.zero_add, List.zipIdx_succ, List.find?_map, Option.map_map]
    rfl

/-- A connection goes to the first path that is available and can be dialed. -/
theorem dialPriority_eq (up : ℕ → Bool) (paths : List Path) :
    (dialPriority up paths).1 = firstUp up paths := by
  induction paths generalizing up with
  | nil => rfl
  | cons p ps ih =>
    rw [firstUp_cons, dialPriority]
    cases p.available <;> cases hup : up 0 <;> simp [ih]

/-! ### The order stays that of the priorities -/

/-- The paths of the manager, as configured. -/
def Client.configs (c : Client) : Option (List PathConfig) := c.paths.map (·.map Path.config)

theorem map_config_dialPriority (up : ℕ → Bool) (paths : List Path) :
    (dialPriority up paths).2.map Path.config = paths.map Path.config := by
  induction paths generalizing up with
  | nil => rfl
  | cons p ps ih =>
    rw [dialPriority]
    split_ifs
    · rfl
    · exact congrArg (p.config :: ·) (ih _)
    · exact congrArg (p.config :: ·) (ih _)

theorem map_config_checkPath (paths : List Path) (i : ℕ) (ok : Bool) :
    (paths.modify i (checkPath · ok)).map Path.config = paths.map Path.config := by
  have hconfig : ∀ p, (checkPath p ok).config = p.config := by
    intro p
    cases ok <;> rfl
  induction paths generalizing i with
  | nil => simp
  | cons p ps ih => cases i <;> simp [hconfig, ih]

theorem configs_step (c : Client) (ev : Event) : (step c ev).configs = c.configs := by
  unfold Client.configs
  cases hpaths : c.paths with
  | none =>
    cases ev with
    | check i ok => simp [step, hpaths]
    | dial up => cases hup : up 0 <;> simp [step, hpaths, hup]
  | some paths =>
    cases ev with
    | check i ok => simp [step, hpaths, map_config_checkPath]
    | dial up => simp [step, hpaths, map_config_dialPriority]

/-- A new client has paths that are configured, in order of priority. -/
theorem configs_newClient {realityOk : Bool} {e : Engine} {order : ByPriority e.paths}
    {c : Client} (hnew : newClient realityOk e order = some c) :
    ∀ configs ∈ c.configs,
      configs ⊆ e.paths ∧ configs.Pairwise fun p q => p.priority ≤ q.priority := by
  unfold newClient at hnew
  split at hnew
  · split_ifs at hnew with hpaths
    · cases hnew
      rintro _ ⟨⟩
    · rw [Option.map_eq_some_iff] at hnew
      obtain ⟨made, hmade, rfl⟩ := hnew
      rintro _ ⟨⟩
      unfold newManager at hmade
      split_ifs at hmade with hunending
      dsimp only at hmade
      split_ifs at hmade
      cases hmade
      have hconfigs (l : List PathConfig) : (l.map fun p => Path.mk p true 0).map Path.config = l :=
        (List.map_map ..).trans (List.map_id l)
      dsimp only
      rw [hconfigs]
      refine ⟨fun p hp => ?_, order.2.2.sublist List.filter_sublist⟩
      exact order.2.1.subset (List.mem_of_mem_filter hp)
  · cases hnew
  · cases hnew

/-- The first path that is available and can be dialed is both. -/
theorem firstUp_spec {up : ℕ → Bool} {paths : List Path} {p : PathConfig}
    (hp : firstUp up paths = some p) :
    ∃ (i : ℕ) (r : Path), paths[i]? = some r ∧ r.config = p ∧ r.available ∧ up i := by
  induction paths generalizing up with
  | nil => cases hp
  | cons r ps ih =>
    rw [firstUp_cons] at hp
    split_ifs at hp with hr
    · rw [Bool.and_eq_true] at hr
      exact ⟨0, r, rfl, Option.some.inj hp, hr⟩
    · obtain ⟨i, r', hr', hfound⟩ := ih hp
      exact ⟨i + 1, r', hr', hfound⟩

/-- In paths in order of priority, the first one that is available and can be dialed has the
smallest priority among those. -/
theorem firstUp_least {up : ℕ → Bool} {paths : List Path}
    (hsorted : (paths.map Path.config).Pairwise fun p q => p.priority ≤ q.priority)
    {p : PathConfig} (hp : firstUp up paths = some p) {i : ℕ} {q : Path}
    (hq : paths[i]? = some q) (havailable : q.available) (hup : up i) :
    p.priority ≤ q.config.priority := by
  induction paths generalizing up i with
  | nil => cases hq
  | cons r ps ih =>
    obtain ⟨hhead, htail⟩ := List.pairwise_cons.1 hsorted
    rw [firstUp_cons] at hp
    split_ifs at hp with hr
    · cases hp
      cases i with
      | zero =>
        cases hq
        exact Int.le_refl _
      | succ i => exact hhead _ (List.mem_map_of_mem (List.mem_of_getElem? hq))
    · cases i with
      | zero =>
        cases hq
        simp [havailable, hup] at hr
      | succ i => exact ih htail hp hq hup

/-- **A client dials in order of priority.**  In every run of a new client, a connection goes to a
configured path that is available and can be dialed, with the smallest priority among those that
are and can. -/
theorem dials_least {realityOk : Bool} {e : Engine} {order : ByPriority e.paths} {c : Client}
    (hnew : newClient realityOk e order = some c) (es : List Event) {paths : List Path}
    (hpaths : (run step c es).paths = some paths) (up : ℕ → Bool) {p : PathConfig}
    (hp : (dialPriority up paths).1 = some p) :
    (step (run step c es) (.dial up)).opened = endpointOf p :: (run step c es).opened ∧
      p ∈ e.paths ∧
      (∃ (i : ℕ) (r : Path), paths[i]? = some r ∧ r.config = p ∧ r.available ∧ up i) ∧
      ∀ (i : ℕ) (q : Path), paths[i]? = some q → q.available → up i →
        p.priority ≤ q.config.priority := by
  have hconfigs : (run step c es).configs = c.configs :=
    run_invariant (I := fun c' => c'.configs = c.configs)
      (fun c' ev h => (configs_step c' ev).trans h) rfl es
  have hmem : paths.map Path.config ∈ c.configs := by
    rw [← hconfigs, Client.configs, hpaths]
    rfl
  obtain ⟨hconfigured, hsorted⟩ := configs_newClient hnew _ hmem
  have hopened : (step (run step c es) (.dial up)).opened
      = endpointOf p :: (run step c es).opened := by
    simp [step, hpaths, hp]
  rw [dialPriority_eq] at hp
  obtain ⟨i, r, hr, hfound⟩ := firstUp_spec hp
  refine ⟨hopened, ?_, ⟨i, r, hr, hfound⟩, fun i q hq => firstUp_least hsorted hp hq⟩
  rw [← hfound.1]
  exact hconfigured (List.mem_map_of_mem (List.mem_of_getElem? hr))

/-! ### The target of a switch -/

/-- All connections have gone to the address of `target`, over its transport. -/
def AllTo (target : PathConfig) (c : Client) : Prop :=
  ∀ q ∈ c.opened, q = endpointOf target

/-- If the client dials, `target` is the first path that is available and can be dialed, or
that one has the same address and transport. -/
def DialsTarget (target : PathConfig) (c : Client) : Event → Prop
  | .dial up => ∀ paths ∈ c.paths, ∀ p ∈ firstUp up paths, endpointOf p = endpointOf target
  | .check .. => True

/-- The client has a manager. -/
def Managed (c : Client) : Prop := c.paths ≠ none

theorem managed_newClient {realityOk : Bool} {e : Engine} (hpaths : e.paths ≠ [])
    {order : ByPriority e.paths} {c : Client} (hnew : newClient realityOk e order = some c) :
    Managed c ∧ c.opened = [] := by
  unfold newClient at hnew
  split at hnew
  · rw [if_neg hpaths, Option.map_eq_some_iff] at hnew
    obtain ⟨made, -, rfl⟩ := hnew
    exact ⟨Option.some_ne_none made, rfl⟩
  · cases hnew
  · cases hnew

theorem managed_step {c : Client} (ev : Event) (h : Managed c) : Managed (step c ev) := by
  obtain ⟨paths, hpaths⟩ := Option.ne_none_iff_exists'.1 h
  cases ev <;> simp [step, hpaths, Managed]

/-- A step of the client opens a connection to the first path, or opens none. -/
theorem allTo_step_iff {target : PathConfig} {c : Client} (hmanaged : Managed c)
    (h : AllTo target c) (ev : Event) : AllTo target (step c ev) ↔ DialsTarget target c ev := by
  obtain ⟨paths, hpaths⟩ := Option.ne_none_iff_exists'.1 hmanaged
  cases ev with
  | check i ok => exact iff_of_true (by simpa [step, hpaths, AllTo] using h) trivial
  | dial up =>
    have hopened : (step c (.dial up)).opened
        = ((firstUp up paths).map endpointOf).toList ++ c.opened := by
      simp only [step, hpaths, dialPriority_eq]
    unfold AllTo DialsTarget
    rw [hopened, hpaths]
    constructor
    · rintro hall _ ⟨⟩ p hp
      refine hall (endpointOf p) (List.mem_append_left _ ?_)
      rw [hp, Option.map_some, Option.toList_some]
      exact List.mem_singleton_self _
    · intro hfirst q hq
      rcases List.mem_append.1 hq with hnew | hold
      · obtain ⟨p, hp, rfl⟩ : ∃ p, firstUp up paths = some p ∧ endpointOf p = q := by
          simpa using hnew
        exact hfirst paths rfl p hp
      · exact h q hold

/-- **When the active path is the path in use.**  The switch callback has moved the
configuration to `target`, and has made a client.  All connections of that client go to
`target` exactly if, at each call of `dialTransport`, `target` is the first path in order of
priority that is available and can be dialed (or that one has its address and transport). -/
theorem opened_target_iff {e : Engine} {target : PathConfig} (hmem : target ∈ e.paths) (k : ℕ)
    (retry : Option ℕ) {realityOk : Bool} {order : ByPriority e.paths} {c : Client}
    (hnew : newClient realityOk (e.stopOld k target retry) order = some c) (es : List Event) :
    Always step (AllTo target) c es ↔ EachStep step (DialsTarget target) c es := by
  have hpaths : (e.stopOld k target retry).paths ≠ [] := List.ne_nil_of_mem hmem
  obtain ⟨hmanaged, hopened⟩ := managed_newClient hpaths hnew
  have hnone : AllTo target c := by
    intro q hq
    rw [hopened] at hq
    cases hq
  refine always_iff_eachStep_of_invariant (J := Managed) (fun _ ev => managed_step ev) ?_
    hmanaged hnone es
  intro c ev hc h
  exact allTo_step_iff hc h ev

/-- The path that is to be used first. -/
def mainPath : PathConfig := ⟨"main", "192.0.2.1:443", "tcpmux", 1, 1⟩

/-- The path behind it. -/
def backupPath : PathConfig := ⟨"backup", "192.0.2.2:443", "wsmux", 2, 1⟩

/-- An engine with both. -/
def twoPaths : Engine := Engine.new [mainPath, backupPath] "192.0.2.1:443" "tcpmux"

def twoPathsOrder : ByPriority twoPaths.paths :=
  ⟨[mainPath, backupPath], .refl _, by decide⟩

/-- The client made by a switch to the second path. -/
def switched : Client :=
  ⟨⟨"192.0.2.2:443", .wsmux⟩, some [⟨mainPath, true, 0⟩, ⟨backupPath, true, 0⟩], []⟩

theorem newClient_switched :
    newClient true (twoPaths.stopOld 0 backupPath none) twoPathsOrder = some switched := by
  decide

/-- While the first path cannot be dialed, the second is in use. -/
theorem opened_backup :
    Always step (AllTo backupPath) switched
      [.dial fun i => i == 1, .check 0 false, .dial fun _ => true] := by
  refine (opened_target_iff (by decide) 0 none newClient_switched _).2 ⟨?_, trivial, ?_, trivial⟩
  · rintro _ ⟨⟩ _ ⟨⟩
    rfl
  · rintro _ ⟨⟩ _ ⟨⟩
    rfl

/-- **The active path is not the path in use**: after a switch to the second path, with both
paths up, the new client connects to the first. -/
theorem opened_main_after_switch :
    newClient true (twoPaths.stopOld 0 backupPath none) twoPathsOrder = some switched ∧
      (run step switched [.dial fun _ => true]).opened = [endpointOf mainPath] ∧
      endpointOf mainPath ≠ endpointOf backupPath := by
  decide

/-- A third path. -/
def sparePath : PathConfig := ⟨"spare", "192.0.2.3:443", "kcp", 3, 1⟩

/-- A new client with the three paths in order. -/
def threePaths : Client :=
  ⟨⟨"192.0.2.1:443", .tcpmux⟩,
    some [⟨mainPath, true, 0⟩, ⟨backupPath, true, 0⟩, ⟨sparePath, true, 0⟩], []⟩

/-- With the first path out, the second is dialed and not the third. -/
theorem dials_least_backup :
    let c := run step threePaths [.check 0 false]
    (step c (.dial fun _ => true)).opened = [endpointOf backupPath] ∧
      backupPath ∈ [sparePath, mainPath, backupPath] ∧
      backupPath.priority ≤ sparePath.priority := by
  let e := Engine.new [sparePath, mainPath, backupPath] "192.0.2.1:443" "tcpmux"
  let order : ByPriority e.paths := ⟨[mainPath, backupPath, sparePath], by decide, by decide⟩
  have hnew : newClient true e order = some threePaths := by decide
  obtain ⟨hopened, hconfigured, -, hleast⟩ :=
    dials_least hnew [.check 0 false] rfl (fun _ => true) rfl
  exact ⟨hopened, hconfigured, hleast 2 _ rfl rfl rfl⟩

end Multipath
