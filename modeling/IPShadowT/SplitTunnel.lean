/-
# Split tunnelling

Model of `internal/tun/split_tunnel.go`: the modes, the rules and what they match, and the changes
to the list of rules.  Parsing and comparing addresses is left to package `net` (`Net`).

In custom mode the first rule in the list that matches and has a known action decides.  Nothing
reads the priorities (`shouldTunnel_byPriority_iff`), and a range of ports is read as its lower end
(`matchRule_port_iff`).
-/
import IPShadowT.Fragment
import IPShadowT.Runs
import IPShadowT.Sscanf

open Fragment (trimSpace)
open Go (Arch)
open Runs Sscanf

namespace SplitTunnel

/-! ## Rules -/

/-- What is used of package `net`. -/
structure Net (IP CIDR : Type) where
  parseIP : List Char → Option IP
  equal : IP → IP → Bool
  parseCIDR : List Char → Option CIDR
  contains : CIDR → IP → Bool

/-- `SplitMode`. -/
inductive Mode where
  | all
  | bypassIR
  | onlyForeign
  | custom
  | other (name : String)
  deriving DecidableEq, Repr

/-- `Rule.Type`. -/
inductive RuleType where
  | ip
  | cidr
  | domain
  | port
  | other (name : String)
  deriving DecidableEq, Repr

/-- `RuleAction`. -/
inductive Action where
  | tunnel
  | direct
  | block
  | other (name : String)
  deriving DecidableEq, Repr

structure Rule where
  name : String
  type : RuleType
  value : List Char
  action : Action
  /-- lower is higher -/
  priority : ℤ
  deriving DecidableEq, Repr

/-- Where traffic goes to. -/
structure Dest (IP : Type) where
  ip : IP
  port : ℤ
  domain : List Char

section Matching

variable {IP CIDR : Type} (net : Net IP CIDR) (a : Arch)

def matchPort (spec : List Char) (port : ℤ) : Bool :=
  match sscanf a [.int] spec with
  | some [p] => p = port
  | _ =>
    match sscanf a [.int, .lit '-', .int] spec with
    | some [low, high] => port ≥ low ∧ port ≤ high
    | _ => false

/-- The branch of `matchRule` for domains; `*.example.com` is a pattern. -/
def matchDomain (value domain : List Char) : Bool :=
  if domain = [] then false
  else if ['*', '.'] <+: value then value.drop 1 <:+ domain ∨ domain = value.drop 2
  else domain = value

def matchRule (rule : Rule) (dest : Dest IP) : Bool :=
  match rule.type with
  | .ip => (net.parseIP rule.value).any fun ip => net.equal ip dest.ip
  | .cidr => (net.parseCIDR rule.value).any fun cidr => net.contains cidr dest.ip
  | .domain => matchDomain rule.value dest.domain
  | .port => matchPort a rule.value dest.port
  | .other _ => false

/-- What a known action decides. -/
def Action.decision : Action → Option Bool
  | .tunnel => some true
  | .direct => some false
  -- the connection will fail
  | .block => some false
  | .other _ => none

def evaluateRules : List Rule → Dest IP → Bool
  | [], _ => true
  | rule :: rules, dest =>
    if matchRule net a rule dest then
      match rule.action.decision with
      | some decision => decision
      | none => evaluateRules rules dest
    else evaluateRules rules dest

end Matching

/-! ## The router -/

/-- `SplitTunnel`. -/
structure Router (CIDR : Type) where
  rules : List Rule
  mode : Mode
  irCIDRs : List CIDR
  customIPs : List CIDR

/-- `SplitConfig`; `irList` are the lines of the file `IRListFile`, none if it cannot be opened. -/
structure Config where
  mode : Mode
  rules : List Rule
  irListFile : String
  irList : Option (List (List Char))
  bypassLAN : Bool

def lanRanges : List String :=
  ["10.0.0.0/8", "172.16.0.0/12", "192.168.0.0/16", "127.0.0.0/8"]

def privateRanges : List String :=
  ["10.0.0.0/8", "172.16.0.0/12", "192.168.0.0/16", "127.0.0.0/8", "169.254.0.0/16", "::1/128",
    "fe80::/10"]

def iranRanges : List String :=
  [
    "2.144.0.0/14", "2.176.0.0/12", "5.22.0.0/17", "5.52.0.0/15", "5.56.128.0/17", "5.57.32.0/21",
    "5.61.24.0/21", "5.62.160.0/19", "5.63.8.0/21", "5.72.0.0/13", "5.104.208.0/21",
    "5.106.0.0/16", "5.112.0.0/12", "5.134.128.0/18", "5.144.128.0/21", "5.145.112.0/21",
    "5.160.0.0/16", "5.190.0.0/16", "5.198.160.0/19", "5.200.64.0/18", "5.201.128.0/17",
    "5.202.0.0/16", "5.208.0.0/12", "31.2.0.0/17", "31.7.64.0/21", "31.14.80.0/20",
    "31.24.200.0/21", "31.40.0.0/18", "31.56.0.0/14", "37.10.64.0/22", "37.19.0.0/17",
    "37.32.0.0/14", "37.44.56.0/21", "37.63.128.0/17", "37.98.0.0/17", "37.114.192.0/18",
    "37.128.128.0/17", "37.129.0.0/16", "37.130.200.0/21", "37.137.0.0/16", "37.148.0.0/17",
    "37.152.160.0/19", "37.153.128.0/18", "37.156.0.0/16", "37.191.64.0/19", "37.202.128.0/17",
    "37.221.0.0/18", "37.228.131.0/24", "37.235.16.0/20", "37.254.0.0/16", "46.18.248.0/21",
    "46.21.80.0/20", "46.28.72.0/21", "46.32.0.0/19", "46.34.96.0/19", "46.36.96.0/20",
    "46.38.128.0/17", "46.41.192.0/18", "46.51.0.0/17", "46.62.128.0/17", "46.100.0.0/16",
    "46.143.0.0/17", "46.148.32.0/20", "46.164.0.0/16", "46.167.128.0/19", "46.182.32.0/21",
    "46.209.0.0/16", "46.224.0.0/15", "46.235.76.0/23", "46.245.0.0/17", "46.248.32.0/19",
    "46.249.96.0/24", "46.251.224.0/24", "46.255.216.0/21"]

section Router

variable {IP CIDR : Type} (net : Net IP CIDR) (a : Arch)

/-- The ranges among the texts. -/
def parseCIDRs (texts : List String) : List CIDR :=
  texts.filterMap fun text => net.parseCIDR text.toList

/-- `loadIRList`, which falls back to `loadDefaultIRRanges`. -/
def loadIRList : Option (List (List Char)) → List CIDR
  | none => parseCIDRs net iranRanges
  | some lines =>
    ((lines.map trimSpace).filter fun line => line ≠ [] ∧ line.head? ≠ some '#').filterMap
      net.parseCIDR

def newSplitTunnel (cfg : Config) : Router CIDR where
  rules := cfg.rules
  mode := if cfg.mode = .other "" then .all else cfg.mode
  irCIDRs :=
    if cfg.mode = .bypassIR ∨ cfg.mode = .onlyForeign then
      if cfg.irListFile ≠ "" then loadIRList net cfg.irList else parseCIDRs net iranRanges
    else []
  customIPs := if cfg.bypassLAN then parseCIDRs net lanRanges else []

def Router.isIranIP (st : Router CIDR) (ip : IP) : Bool := st.irCIDRs.any (net.contains · ip)

def Router.isLocalIP (st : Router CIDR) (ip : IP) : Bool :=
  st.customIPs.any (net.contains · ip) || (parseCIDRs net privateRanges).any (net.contains · ip)

def Router.shouldTunnel (st : Router CIDR) (dest : Dest IP) : Bool :=
  match st.mode with
  | .all => true
  | .bypassIR => !st.isIranIP net dest.ip && !st.isLocalIP net dest.ip
  | .onlyForeign => !(st.isIranIP net dest.ip || st.isLocalIP net dest.ip)
  | .custom => evaluateRules net a st.rules dest
  | .other _ => true

/-- `AddRule` and `RemoveRule`. -/
inductive Edit where
  | addRule (rule : Rule)
  | removeRule (name : String)
  deriving DecidableEq, Repr

/-- What an edit does to the list of rules. -/
def Edit.apply (rules : List Rule) : Edit → List Rule
  | .addRule rule => rules ++ [rule]
  | .removeRule name => rules.eraseP fun r => r.name = name

def step (st : Router CIDR) (e : Edit) : Router CIDR := { st with rules := e.apply st.rules }

end Router

/-! ## Priorities -/

section Priority

variable {IP CIDR : Type} (net : Net IP CIDR) (a : Arch)

/-- The rule matches and has a known action. -/
def Applies (dest : Dest IP) (rule : Rule) : Bool :=
  matchRule net a rule dest && rule.action.decision.isSome

/-- The rule applies, and none that applies has a smaller priority value. -/
structure Least (rules : List Rule) (dest : Dest IP) (rule : Rule) : Prop where
  mem : rule ∈ rules
  applies : Applies net a dest rule = true
  le : ∀ r ∈ rules, Applies net a dest r = true → rule.priority ≤ r.priority

/-- The result is the decision of a rule with the smallest priority value among those that apply,
and true if none does. -/
def ByPriority (rules : List Rule) (dest : Dest IP) (result : Bool) : Prop :=
  (∃ rule, Least net a rules dest rule ∧ rule.action.decision = some result) ∨
    ((∀ rule ∈ rules, Applies net a dest rule = false) ∧ result = true)

/-- The first rule in the list that applies has the action of one with the smallest priority value,
up to what the action decides. -/
def FirstDecides (rules : List Rule) (dest : Dest IP) : Prop :=
  ∀ first, rules.find? (Applies net a dest) = some first →
    ∃ rule, Least net a rules dest rule ∧ rule.action.decision = first.action.decision

variable {net a} {dest : Dest IP}

theorem evaluateRules_of_none {rules : List Rule}
    (h : ∀ rule ∈ rules, Applies net a dest rule = false) :
    evaluateRules net a rules dest = true := by
  induction rules with
  | nil => rfl
  | cons rule rules ih =>
    have hrest := ih fun r hr => h r (List.mem_cons_of_mem rule hr)
    have hrule := h rule List.mem_cons_self
    unfold evaluateRules
    cases hmatch : matchRule net a rule dest with
    | false => exact hrest
    | true =>
      rw [Applies, hmatch, Bool.true_and] at hrule
      have hunknown : rule.action.decision = none := by simpa using hrule
      rw [hunknown]
      exact hrest

/-- The first rule that applies decides. -/
theorem evaluateRules_of_find {rules : List Rule} {first : Rule}
    (h : rules.find? (Applies net a dest) = some first) :
    first.action.decision = some (evaluateRules net a rules dest) := by
  induction rules with
  | nil => cases h
  | cons rule rules ih =>
    unfold evaluateRules
    rw [List.find?_cons] at h
    cases hmatch : matchRule net a rule dest with
    | false =>
      rw [Applies, hmatch, Bool.false_and] at h
      exact ih h
    | true =>
      rw [Applies, hmatch, Bool.true_and] at h
      cases hdecision : rule.action.decision with
      | none =>
        rw [hdecision] at h
        exact ih h
      | some decision =>
        rw [hdecision] at h
        obtain rfl : rule = first := Option.some.inj h
        exact hdecision

theorem byPriority_iff (rules : List Rule) :
    ByPriority net a rules dest (evaluateRules net a rules dest) ↔
      FirstDecides net a rules dest := by
  cases hfind : rules.find? (Applies net a dest) with
  | none =>
    have hnone : ∀ rule ∈ rules, Applies net a dest rule = false :=
      fun rule hrule => Bool.not_eq_true _ ▸ List.find?_eq_none.1 hfind rule hrule
    refine iff_of_true (.inr ⟨hnone, evaluateRules_of_none hnone⟩) ?_
    intro first hfirst
    rw [hfind] at hfirst
    cases hfirst
  | some first =>
    have hdecides := evaluateRules_of_find hfind
    have hmem := List.mem_of_find?_eq_some hfind
    have happlies := List.find?_some hfind
    constructor
    · rintro (⟨rule, hleast, hrule⟩ | ⟨hnone, -⟩) first' hfirst'
      · obtain rfl : first = first' := Option.some.inj (hfind.symm.trans hfirst')
        exact ⟨rule, hleast, hrule.trans hdecides.symm⟩
      · rw [hnone first hmem] at happlies
        cases happlies
    · intro h
      obtain ⟨rule, hleast, hrule⟩ := h first hfind
      exact .inl ⟨rule, hleast, hrule.trans hdecides⟩

/-- Edits leave everything but the rules. -/
theorem run_mode (st : Router CIDR) (edits : List Edit) : (run step st edits).mode = st.mode := by
  have hstep : ∀ (t : Router CIDR) (e : Edit), t.mode = st.mode → (step t e).mode = st.mode :=
    fun _ _ h => h
  exact run_invariant hstep rfl edits

theorem shouldTunnel_run {cfg : Config} (hmode : cfg.mode = .custom) (edits : List Edit) :
    (run step (newSplitTunnel net cfg) edits).shouldTunnel net a dest =
      evaluateRules net a (run step (newSplitTunnel net cfg) edits).rules dest := by
  have hcustom : (newSplitTunnel net cfg).mode = .custom := by
    show (if cfg.mode = .other "" then Mode.all else cfg.mode) = .custom
    rw [hmode]
    rfl
  rw [Router.shouldTunnel, run_mode, hcustom]

/-- **Priorities.**  In custom mode, after any edits, the decision is that of an applicable rule
with the smallest priority value, if and only if such a rule decides as the first applicable one in
the order of the list does. -/
theorem shouldTunnel_byPriority_iff (net : Net IP CIDR) (a : Arch) (cfg : Config)
    (hmode : cfg.mode = .custom) (edits : List Edit) (dest : Dest IP) :
    ByPriority net a (run step (newSplitTunnel net cfg) edits).rules dest
        ((run step (newSplitTunnel net cfg) edits).shouldTunnel net a dest) ↔
      FirstDecides net a (run step (newSplitTunnel net cfg) edits).rules dest := by
  rw [shouldTunnel_run hmode]
  exact byPriority_iff _

/-- A machine without addresses: rules for ports and domains are all there is. -/
def noAddresses : Net Unit Unit :=
  ⟨fun _ => none, fun _ _ => false, fun _ => none, fun _ _ => false⟩

/-- A rule that sends port 443 through the tunnel, with a low priority. -/
def tunnelRule : Rule := ⟨"tunnel", .port, "443".toList, .tunnel, 10⟩

/-- A rule that sends it directly, with a high priority. -/
def directRule : Rule := ⟨"direct", .port, "443".toList, .direct, 1⟩

def customConfig (rules : List Rule) : Config := ⟨.custom, rules, "", none, false⟩

/-- A connection to port 443. -/
def httpsDest : Dest Unit := ⟨(), 443, []⟩

theorem shouldTunnel_byPriority_sorted :
    ByPriority noAddresses .bits64
      (run step (newSplitTunnel noAddresses (customConfig [directRule]))
        [.addRule tunnelRule]).rules httpsDest
      ((run step (newSplitTunnel noAddresses (customConfig [directRule]))
        [.addRule tunnelRule]).shouldTunnel noAddresses .bits64 httpsDest) := by
  refine (shouldTunnel_byPriority_iff noAddresses .bits64 _ rfl _ httpsDest).2 ?_
  intro first hfirst
  obtain rfl : directRule = first := by
    have hfind : [directRule, tunnelRule].find? (Applies noAddresses .bits64 httpsDest) =
        some directRule := by decide +kernel
    exact Option.some.inj (hfind.symm.trans hfirst)
  exact ⟨directRule, ⟨by decide, by decide +kernel, by decide +kernel⟩, rfl⟩

/-- The rule with the high priority is added last, and the other decides. -/
theorem late_rule_ignored :
    (run step (newSplitTunnel noAddresses (customConfig [tunnelRule]))
        [.addRule directRule]).shouldTunnel noAddresses .bits64 httpsDest = true ∧
      ¬ ByPriority noAddresses .bits64
        (run step (newSplitTunnel noAddresses (customConfig [tunnelRule]))
          [.addRule directRule]).rules httpsDest true := by
  refine ⟨by decide +kernel, ?_⟩
  rintro (⟨rule, hleast, hdecision⟩ | ⟨hnone, -⟩)
  · have hle : rule.priority ≤ 1 := hleast.le directRule (by decide) (by decide +kernel)
    have hmem : rule ∈ [tunnelRule, directRule] := hleast.mem
    rcases List.mem_cons.1 hmem with rfl | hmem
    · exact absurd hle (by decide)
    · rw [List.mem_singleton.1 hmem] at hdecision
      cases hdecision
  · have happlies := hnone tunnelRule (by decide)
    exact absurd happlies (by decide +kernel)

end Priority

/-! ## Ports -/

section Ports

variable {IP CIDR : Type}

/-- The text `low-high`. -/
def portRange (low high : ℕ) : List Char := Nat.toDigits 10 low ++ '-' :: Nat.toDigits 10 high

example : portRange 80 443 = "80-443".toList := by decide +kernel

theorem sscanf_int {a : Arch} {n : ℕ} (hn : n ≤ 65535) {rest : List Char}
    (hrest : ∀ c ∈ rest.head?, c.isDigit = false) :
    sscanf a [.int] (Nat.toDigits 10 n ++ rest) = some [(n : ℤ)] := by
  have hmax := a.maxInt_bounds
  rw [sscanf, scanInt_toDigits (by omega) hrest]
  rfl

/-- A range is read as its lower end. -/
theorem matchPort_portRange {a : Arch} {low : ℕ} (hlow : low ≤ 65535) (high : ℕ) (port : ℤ) :
    matchPort a (portRange low high) port = decide ((low : ℤ) = port) := by
  have hscan : sscanf a [.int] (portRange low high) = some [(low : ℤ)] := by
    apply sscanf_int hlow
    rintro c hc
    obtain rfl : '-' = c := Option.some.inj hc
    decide
  rw [matchPort, hscan]

theorem matchPort_single {a : Arch} {q : ℕ} (hq : q ≤ 65535) (port : ℤ) :
    matchPort a (Nat.toDigits 10 q) port = decide ((q : ℤ) = port) := by
  have hscan : sscanf a [.int] (Nat.toDigits 10 q ++ []) = some [(q : ℤ)] :=
    sscanf_int hq nofun
  rw [List.append_nil] at hscan
  rw [matchPort, hscan]

/-- **Port rules.**  A rule for a range of ports and one for a single port match what they say, if
and only if the port of the destination is not above the lower end of the range, or above its upper
end. -/
theorem matchRule_port_iff (net : Net IP CIDR) (a : Arch) (rule : Rule) (dest : Dest IP)
    {low high q : ℕ} (hrange : low ≤ high) (hhigh : high ≤ 65535) (hq : q ≤ 65535) :
    ((matchRule net a { rule with type := .port, value := portRange low high } dest = true ↔
        (low : ℤ) ≤ dest.port ∧ dest.port ≤ high) ∧
      (matchRule net a { rule with type := .port, value := Nat.toDigits 10 q } dest = true ↔
        dest.port = q)) ↔
      (dest.port ≤ low ∨ (high : ℤ) < dest.port) := by
  show ((matchPort a (portRange low high) dest.port = true ↔ _) ∧
    (matchPort a (Nat.toDigits 10 q) dest.port = true ↔ _)) ↔ _
  rw [matchPort_portRange (by omega), matchPort_single hq, decide_eq_true_iff, decide_eq_true_iff]
  omega

theorem matchRule_port_80 :
    matchRule noAddresses .bits64 { tunnelRule with value := portRange 80 443 } ⟨(), 80, []⟩ =
        true ↔ (80 : ℤ) ≤ 80 ∧ (80 : ℤ) ≤ 443 :=
  ((matchRule_port_iff noAddresses .bits64 tunnelRule ⟨(), 80, []⟩ (show 80 ≤ 443 by decide)
    (by decide) (show 443 ≤ 65535 by decide)).2 (by decide)).1

/-- The rule `80-443` does not match port 443. -/
theorem range_misses_upper_end :
    ¬ (matchRule noAddresses .bits64 { tunnelRule with value := portRange 80 443 } httpsDest =
      true ↔ (80 : ℤ) ≤ httpsDest.port ∧ httpsDest.port ≤ 443) := by
  decide +kernel

end Ports

end SplitTunnel
