/-
# The plugin registry

Model of `Registry` in `internal/plugin/plugin.go`.  A plugin is in the map `plugins` under its
name and, for each of the three special interfaces it implements, in one more collection: the map
`transports`, the list `auth` that `Authenticate` goes through, or the list `filters` that
`RunFilters` goes through.  `Unregister` takes it out of the maps.

`always_consistent_iff` says over which runs of calls the collections agree.
-/
import Mathlib.Data.List.Nodup
import Mathlib.Logic.Function.Basic
import IPShadowT.Bytes
import IPShadowT.Runs

open Runs

namespace Plugin

/-! ## The registry -/

/-- The plugins: their names, the interfaces `TransportPlugin`, `AuthPlugin` and `FilterPlugin`
each of them implements or not, and the methods that the registry calls on connections. -/
structure Plugins (P Conn : Type) where
  name : P → String
  isTransport : P → Bool
  isAuth : P → Bool
  isFilter : P → Bool
  authenticate : P → Conn → Bytes → Except String (String × Bool)
  onConnect : P → Conn → Except String Conn

variable {P Conn : Type} (m : Plugins P Conn)

/-- `Registry`.  A plugin is in the map under its own name. -/
structure Registry where
  plugins : String → Option P
  transports : String → Option P
  auth : List P
  filters : List P
  named : ∀ {name p}, plugins name = some p → m.name p = name

/-- `NewRegistry`. -/
def newRegistry : Registry m := ⟨fun _ => none, fun _ => none, [], [], nofun⟩

/-- The errors of `Register` and `Unregister`. -/
inductive RegistryError where
  | alreadyRegistered (name : String)
  | notFound (name : String)
  deriving DecidableEq, Repr

/-- The messages of the errors; `quote` is what the verb `%q` does with a string. -/
def RegistryError.message (quote : String → String) : RegistryError → String
  | alreadyRegistered name => s!"plugin {quote name} already registered"
  | notFound name => s!"plugin {quote name} not found"

variable {m}

/-- `Register`. -/
def Registry.register (r : Registry m) (p : P) : Except RegistryError (Registry m) :=
  let name := m.name p
  if (r.plugins name).isSome then .error (.alreadyRegistered name)
  else .ok
    { plugins := Function.update r.plugins name (some p)
      transports :=
        if m.isTransport p then Function.update r.transports name (some p) else r.transports
      auth := if m.isAuth p then r.auth ++ [p] else r.auth
      filters := if m.isFilter p then r.filters ++ [p] else r.filters
      named := by
        intro name' q hq
        by_cases hname : name' = name
        · subst hname
          rw [Function.update_self] at hq
          rw [← Option.some.inj hq]
        · rw [Function.update_of_ne hname] at hq
          exact r.named hq }

/-- `Unregister`. -/
def Registry.unregister (r : Registry m) (name : String) : Except RegistryError (Registry m) :=
  if (r.plugins name).isNone then .error (.notFound name)
  else .ok
    -- the lists `auth` and `filters` keep the plugin
    { r with
      plugins := Function.update r.plugins name none
      transports := Function.update r.transports name none
      named := by
        intro name' q hq
        by_cases hname : name' = name
        · subst hname
          rw [Function.update_self] at hq
          cases hq
        · rw [Function.update_of_ne hname] at hq
          exact r.named hq }

/-- The loop of `RunFilters`. -/
def runFiltersFrom (m : Plugins P Conn) : List P → Conn → Except String Conn
  | [], conn => .ok conn
  | f :: filters, conn =>
    match m.onConnect f conn with
    | .error err => .error s!"filter {m.name f} failed: {err}"
    | .ok conn => runFiltersFrom m filters conn

/-- `RunFilters`. -/
def Registry.runFilters (r : Registry m) (conn : Conn) : Except String Conn :=
  runFiltersFrom m r.filters conn

/-- The loop of `Authenticate`; `none` if no plugin accepts. -/
def authenticateFrom (m : Plugins P Conn) (conn : Conn) (data : Bytes) :
    List P → Except String (Option String)
  | [] => .ok none
  | a :: auths =>
    match m.authenticate a conn data with
    | .error err => .error err
    | .ok (userID, ok) => if ok then .ok (some userID) else authenticateFrom m conn data auths

/-- `Authenticate`, which lets everyone in if there is no plugin to ask. -/
def Registry.authenticate (r : Registry m) (conn : Conn) (data : Bytes) :
    Except String (String × Bool) :=
  match authenticateFrom m conn data r.auth with
  | .error err => .error err
  | .ok (some userID) => .ok (userID, true)
  | .ok none => .ok ("", r.auth.length = 0)

/-! ## Consistency -/

/-- The plugin is registered. -/
def Registry.Registered (r : Registry m) (p : P) : Prop := r.plugins (m.name p) = some p

/-- The list has exactly the registered plugins of a kind, each once. -/
def Registry.ListsExactly (r : Registry m) (l : List P) (kind : P → Bool) : Prop :=
  l.Nodup ∧ ∀ p, p ∈ l ↔ r.Registered p ∧ kind p

/-- The three collections have exactly the registered plugins of their kind. -/
structure Registry.Consistent (r : Registry m) : Prop where
  transports : ∀ name, r.transports name = (r.plugins name).filter m.isTransport
  auth : r.ListsExactly r.auth m.isAuth
  filters : r.ListsExactly r.filters m.isFilter

/-- Whoever `Authenticate` lets in was accepted by a registered plugin, unless none is registered
that could. -/
def Registry.AuthenticatesByRegistered (r : Registry m) : Prop :=
  ∀ conn data userID, r.authenticate conn data = .ok (userID, true) →
    (∃ p, r.Registered p ∧ m.isAuth p ∧ m.authenticate p conn data = .ok (userID, true)) ∨
      ∀ p, r.Registered p → ¬ m.isAuth p

variable {p : P} {name : String} {conn : Conn}

/-- A plugin that the loop of `Authenticate` stops at with success. -/
theorem authenticateFrom_some {data : Bytes} {userID : String} {auths : List P}
    (h : authenticateFrom m conn data auths = .ok (some userID)) :
    ∃ p ∈ auths, m.authenticate p conn data = .ok (userID, true) := by
  induction auths with
  | nil => cases h
  | cons a auths ih =>
    rw [authenticateFrom] at h
    split at h
    · cases h
    · next user ok heq =>
        split_ifs at h with hok
        · cases h
          exact ⟨a, List.mem_cons_self, by rw [heq, hok]⟩
        · obtain ⟨p, hp, haccepts⟩ := ih h
          exact ⟨p, List.mem_cons_of_mem a hp, haccepts⟩

theorem Registry.Consistent.authenticatesByRegistered {r : Registry m} (h : r.Consistent) :
    r.AuthenticatesByRegistered := by
  intro conn data userID haccepted
  unfold Registry.authenticate at haccepted
  split at haccepted
  · cases haccepted
  · next user heq =>
      cases haccepted
      obtain ⟨p, hp, haccepts⟩ := authenticateFrom_some heq
      obtain ⟨hreg, hauth⟩ := (h.auth.2 p).1 hp
      exact .inl ⟨p, hreg, hauth, haccepts⟩
  · have hempty : r.auth = [] := by
      have := congrArg Prod.snd (Except.ok.inj haccepted)
      exact List.length_eq_zero_iff.1 (of_decide_eq_true this)
    refine .inr fun p hreg hauth => ?_
    have := (h.auth.2 p).2 ⟨hreg, hauth⟩
    rw [hempty] at this
    cases this

/-- A filter that the loop of `RunFilters` stops at. -/
theorem runFiltersFrom_error {msg : String} {filters : List P}
    (h : runFiltersFrom m filters conn = .error msg) :
    ∃ p ∈ filters, ∃ conn' err, m.onConnect p conn' = .error err ∧
      msg = s!"filter {m.name p} failed: {err}" := by
  induction filters generalizing conn with
  | nil => cases h
  | cons f filters ih =>
    rw [runFiltersFrom] at h
    split at h
    · next err heq =>
        cases h
        exact ⟨f, List.mem_cons_self, conn, err, heq, rfl⟩
    · obtain ⟨p, hp, hstop⟩ := ih h
      exact ⟨p, List.mem_cons_of_mem f hp, hstop⟩

/-- An error of `RunFilters` is that of a registered filter, which it names. -/
theorem Registry.Consistent.runFilters_error {r : Registry m} (h : r.Consistent) {msg : String}
    (herror : r.runFilters conn = .error msg) :
    ∃ p, r.Registered p ∧ m.isFilter p ∧ ∃ conn' err, m.onConnect p conn' = .error err ∧
      msg = s!"filter {m.name p} failed: {err}" := by
  obtain ⟨p, hp, hstop⟩ := runFiltersFrom_error herror
  obtain ⟨hreg, hfilter⟩ := (h.filters.2 p).1 hp
  exact ⟨p, hreg, hfilter, hstop⟩

/-! ## Runs -/

/-- The calls that change the registry. -/
inductive Call (P : Type) where
  | register (p : P)
  | unregister (name : String)
  deriving DecidableEq, Repr

def Registry.call (r : Registry m) : Call P → Except RegistryError (Registry m)
  | .register p => r.register p
  | .unregister name => r.unregister name

/-- A call that fails leaves the registry as it is. -/
def step (r : Registry m) (c : Call P) : Registry m :=
  match r.call c with
  | .ok r' => r'
  | .error _ => r

/-- The call does not unregister a plugin that authenticates or filters. -/
def Registry.Keeps (r : Registry m) : Call P → Prop
  | .register _ => True
  | .unregister name => ∀ p ∈ r.plugins name, ¬ m.isAuth p ∧ ¬ m.isFilter p

instance (r : Registry m) (c : Call P) : Decidable (r.Keeps c) := by
  cases c <;> unfold Registry.Keeps <;> infer_instance

section Steps

variable {r r' : Registry m}

/-- What `Register` does when the name is free. -/
theorem Registry.register_ok (hok : r.register p = .ok r') :
    r.plugins (m.name p) = none ∧
      r'.plugins = Function.update r.plugins (m.name p) (some p) ∧
      r'.transports = (if m.isTransport p then Function.update r.transports (m.name p) (some p)
        else r.transports) ∧
      r'.auth = (if m.isAuth p then r.auth ++ [p] else r.auth) ∧
      r'.filters = if m.isFilter p then r.filters ++ [p] else r.filters := by
  unfold Registry.register at hok
  dsimp only at hok
  by_cases hfree : (r.plugins (m.name p)).isSome
  · rw [if_pos hfree] at hok
    cases hok
  · rw [if_neg hfree] at hok
    cases hok
    exact ⟨by simpa using hfree, rfl, rfl, rfl, rfl⟩

/-- What `Unregister` does with a plugin that is there. -/
theorem Registry.unregister_ok (hok : r.unregister name = .ok r') :
    (∃ p, r.plugins name = some p) ∧ r'.plugins = Function.update r.plugins name none ∧
      r'.transports = Function.update r.transports name none ∧ r'.auth = r.auth ∧
      r'.filters = r.filters := by
  unfold Registry.unregister at hok
  split_ifs at hok with hnone
  cases hok
  exact ⟨Option.ne_none_iff_exists'.1 fun h => hnone (by rw [h]; rfl), rfl, rfl, rfl, rfl⟩

theorem Registry.not_registered_of_none (h : r.plugins (m.name p) = none) : ¬ r.Registered p := by
  rw [Registered, h]
  nofun

theorem Registry.register_registered (hok : r.register p = .ok r') (q : P) :
    r'.Registered q ↔ r.Registered q ∨ q = p := by
  obtain ⟨hnone, hplugins, -⟩ := Registry.register_ok hok
  rw [Registered, hplugins]
  by_cases hname : m.name q = m.name p
  · have hq : ¬ r.Registered q := Registry.not_registered_of_none (hname ▸ hnone)
    rw [hname, Function.update_self, Option.some_inj]
    exact ⟨fun h => .inr h.symm, fun h => (h.resolve_left hq).symm⟩
  · rw [Function.update_of_ne hname]
    exact ⟨.inl, fun h => h.resolve_right fun heq => hname (congrArg m.name heq)⟩

theorem Registry.unregister_registered (hok : r.unregister name = .ok r') (q : P) :
    r'.Registered q ↔ r.Registered q ∧ m.name q ≠ name := by
  obtain ⟨-, hplugins, -⟩ := Registry.unregister_ok hok
  rw [Registered, hplugins]
  by_cases hname : m.name q = name
  · rw [hname, Function.update_self]
    exact ⟨nofun, fun h => absurd rfl h.2⟩
  · rw [Function.update_of_ne hname]
    exact ⟨fun h => ⟨h, hname⟩, fun h => h.1⟩

/-- A list that a new plugin of its kind is appended to. -/
theorem Registry.ListsExactly.register {l : List P} {kind : P → Bool} (h : r.ListsExactly l kind)
    (hok : r.register p = .ok r') :
    r'.ListsExactly (if kind p then l ++ [p] else l) kind := by
  have hnew : p ∉ l := fun hmem =>
    Registry.not_registered_of_none (Registry.register_ok hok).1 ((h.2 p).1 hmem).1
  split_ifs with hkind
  · refine ⟨?_, fun q => ?_⟩
    · rw [List.nodup_append]
      refine ⟨h.1, List.nodup_singleton p, fun a ha b hb heq => ?_⟩
      rw [List.mem_singleton] at hb
      exact hnew (hb ▸ heq ▸ ha)
    · rw [List.mem_append, List.mem_singleton, h.2 q, Registry.register_registered hok q]
      constructor
      · rintro (⟨hreg, hk⟩ | rfl)
        · exact ⟨.inl hreg, hk⟩
        · exact ⟨.inr rfl, hkind⟩
      · rintro ⟨hreg | rfl, hk⟩
        · exact .inl ⟨hreg, hk⟩
        · exact .inr rfl
  · refine ⟨h.1, fun q => ?_⟩
    rw [h.2 q, Registry.register_registered hok q]
    constructor
    · rintro ⟨hreg, hk⟩
      exact ⟨.inl hreg, hk⟩
    · rintro ⟨hreg | rfl, hk⟩
      · exact ⟨hreg, hk⟩
      · exact absurd hk hkind

/-- A list stays exact under `Unregister` exactly if the plugin is not of its kind. -/
theorem Registry.ListsExactly.unregister_iff {l : List P} {kind : P → Bool}
    (h : r.ListsExactly l kind) (hp : r.plugins name = some p) (hok : r.unregister name = .ok r') :
    r'.ListsExactly l kind ↔ ¬ kind p := by
  have hname : m.name p = name := r.named hp
  have hreg : r.Registered p := by rw [Registered, hname, hp]
  constructor
  · intro hafter hkind
    have hmem : p ∈ l := (h.2 p).2 ⟨hreg, hkind⟩
    exact ((Registry.unregister_registered hok p).1 ((hafter.2 p).1 hmem).1).2 hname
  · intro hkind
    refine ⟨h.1, fun q => ?_⟩
    rw [h.2 q, Registry.unregister_registered hok q]
    constructor
    · rintro ⟨hq, hk⟩
      refine ⟨⟨hq, fun heq => hkind ?_⟩, hk⟩
      rw [Registered, heq, hp] at hq
      rwa [Option.some.inj hq]
    · rintro ⟨⟨hq, -⟩, hk⟩
      exact ⟨hq, hk⟩

/-- **`Register` keeps the registry consistent.** -/
theorem Registry.Consistent.register (h : r.Consistent) (hok : r.register p = .ok r') :
    r'.Consistent := by
  obtain ⟨-, hplugins, htransports, hauth, hfilters⟩ := Registry.register_ok hok
  refine ⟨fun name => ?_, ?_, ?_⟩
  · rw [htransports, hplugins]
    by_cases hname : name = m.name p
    · subst hname
      rw [Function.update_self, Option.filter_some]
      split_ifs
      · rw [Function.update_self]
      · rw [h.transports, (Registry.register_ok hok).1]
        rfl
    · rw [Function.update_of_ne hname, ← h.transports]
      split_ifs
      · rw [Function.update_of_ne hname]
      · rfl
  · rw [hauth]
    exact h.auth.register hok
  · rw [hfilters]
    exact h.filters.register hok

/-- `Unregister` does so exactly if the plugin neither authenticates nor filters. -/
theorem Registry.Consistent.unregister_iff (h : r.Consistent) (hp : r.plugins name = some p)
    (hok : r.unregister name = .ok r') :
    r'.Consistent ↔ ¬ m.isAuth p ∧ ¬ m.isFilter p := by
  obtain ⟨-, hplugins, htransports, hauth, hfilters⟩ := Registry.unregister_ok hok
  have hauth_iff := h.auth.unregister_iff hp hok
  have hfilters_iff := h.filters.unregister_iff hp hok
  rw [← hauth] at hauth_iff
  rw [← hfilters] at hfilters_iff
  constructor
  · intro hafter
    exact ⟨hauth_iff.1 hafter.auth, hfilters_iff.1 hafter.filters⟩
  · rintro ⟨ha, hf⟩
    refine ⟨fun name' => ?_, hauth_iff.2 ha, hfilters_iff.2 hf⟩
    rw [htransports, hplugins]
    by_cases hname : name' = name
    · rw [hname, Function.update_self, Function.update_self]
      rfl
    · rw [Function.update_of_ne hname, Function.update_of_ne hname, h.transports]

theorem consistent_step_iff (c : Call P) (h : r.Consistent) :
    (step r c).Consistent ↔ r.Keeps c := by
  unfold step
  cases hcall : r.call c with
  | error err =>
    -- a name that is not registered has no plugin to be asked for
    refine iff_of_true h ?_
    cases c with
    | register p => trivial
    | unregister name =>
      intro p hp
      rw [Registry.call, Registry.unregister, hp] at hcall
      cases hcall
  | ok r' =>
    cases c with
    | register p => exact iff_of_true (h.register hcall) trivial
    | unregister name =>
      obtain ⟨⟨p, hp⟩, -⟩ := Registry.unregister_ok hcall
      rw [Registry.Keeps, hp]
      refine (h.unregister_iff hp hcall).trans ?_
      simp

/-- **The collections agree, and only registered plugins let anyone in,** over a run of calls of
`Register` and `Unregister` exactly if none of them unregisters a plugin that authenticates or
filters. -/
theorem always_consistent_iff (m : Plugins P Conn) (cs : List (Call P)) :
    Always step (fun r => r.Consistent ∧ r.AuthenticatesByRegistered) (newRegistry m) cs ↔
      EachStep step Registry.Keeps (newRegistry m) cs := by
  have hstart : (newRegistry m).Consistent := by
    refine ⟨fun _ => rfl, ⟨List.nodup_nil, fun p => ?_⟩, ⟨List.nodup_nil, fun p => ?_⟩⟩
    · exact ⟨nofun, fun h => nomatch h.1⟩
    · exact ⟨nofun, fun h => nomatch h.1⟩
  rw [← always_iff_eachStep (fun r c => consistent_step_iff c) hstart cs]
  constructor
  · exact Always.mono fun r h => h.1
  · exact Always.mono fun r h => ⟨h, h.authenticatesByRegistered⟩

end Steps

/-- A plugin that lets everyone in as `guest`. -/
def guestBook : Plugins Unit Unit :=
  ⟨fun _ => "guests", fun _ => false, fun _ => true, fun _ => false,
    fun _ _ _ => .ok ("guest", true), fun _ _ => .ok ()⟩

/-- After it is unregistered, the plugin still lets everyone in. -/
theorem unregistered_authenticates :
    let calls : List (Call Unit) := [.register (), .unregister "guests"]
    let r := run step (newRegistry guestBook) calls
    ¬ r.Registered () ∧ r.authenticate () [] = .ok ("guest", true) ∧
      ¬ Always step (fun r => r.Consistent ∧ r.AuthenticatesByRegistered) (newRegistry guestBook)
        calls := by
  intro calls r
  have hgone : ¬ r.Registered () := by
    rw [Registry.Registered]
    decide
  refine ⟨hgone, by decide, fun h => ?_⟩
  exact hgone ((h.last.1.auth.2 ()).1 (by decide)).1

end Plugin
