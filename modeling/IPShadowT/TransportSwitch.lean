/-
# Switching the transport of a client

Model of the function that `client.New` gives to the reconnector to switch the transport, and of
`GetRecommendation` of the detector that tells it where to.

The function writes the recommendation into the configuration before it knows whether
`NewTransport` accepts it, and compares the next recommendation with what it has written.  So a
refusal leaves a client that holds one transport under the name of another (`inStep_switch_iff`),
and that takes the same recommendation for one it has already followed.

An invocation brings with it what the function does not decide: the counts of the detector in the
order in which the loop visits them, and the errors of `NewTransport` and `createSession`.
-/
import IPShadowT.Runs
import IPShadowT.Transports

open Config (File)
open Multipath (Kind Built kindOf)
open Runs
open Transports (TransportError label_kindOf)

namespace TransportSwitch

/-! ## The recommendation -/

/-- `DPIPattern`. -/
inductive DPIPattern where
  | tcpReset
  | timeout
  | tlsBlock
  | throttle
  | dataReset
  | dnsPoison
  | none
  deriving DecidableEq, Repr

/-- The loop of `GetRecommendation` over the entries of `d.patterns`, in the order of the visit.
No pattern is dominant until one has a count. -/
def dominant (patterns : List (DPIPattern × ℕ)) : Option DPIPattern :=
  (patterns.foldl
    (fun acc entry => if entry.2 > acc.2 then (some entry.1, entry.2) else acc)
    ((Option.none, 0) : Option DPIPattern × ℕ)).1

/-- The `switch` of `GetRecommendation`. -/
def recommend : Option DPIPattern → String
  | some .tcpReset => "reality"
  | some .timeout => "kcp"
  | some .tlsBlock => "shadowtls"
  | some .throttle => "wsmux"
  | some .dataReset => "h2mux"
  | some .dnsPoison => "reality"
  | _ => "reality"

/-- `GetRecommendation`. -/
def getRecommendation (patterns : List (DPIPattern × ℕ)) : String := recommend (dominant patterns)

/-- What `GetRecommendation` can return. -/
def recommendations : List String := ["reality", "kcp", "shadowtls", "wsmux", "h2mux"]

theorem getRecommendation_mem (patterns : List (DPIPattern × ℕ)) :
    getRecommendation patterns ∈ recommendations := by
  unfold getRecommendation
  rcases dominant patterns with _ | pattern
  · decide
  · cases pattern <;> decide

/-- A recommendation is a name that no other name stands for. -/
theorem kindOf_eq_kindOf_getRecommendation_iff {transport : String}
    {patterns : List (DPIPattern × ℕ)} :
    kindOf transport = kindOf (getRecommendation patterns)
      ↔ transport = getRecommendation patterns := by
  constructor
  · intro hkind
    have hall : ∀ r ∈ recommendations, kindOf r ≠ .tcpmux := by decide
    have hrec := hall _ (getRecommendation_mem patterns)
    rw [← label_kindOf hrec, ← hkind, label_kindOf (hkind ▸ hrec)]
  · exact congrArg kindOf

/-! ## The switch function -/

/-- What the switch function reads and writes of a client. -/
structure Client where
  /-- `c.cfg` -/
  cfg : File
  /-- The kind of the transport in `c.transport`. -/
  transport : Kind
  /-- How many sessions the function has put into `c.pool`. -/
  pooled : ℕ

/-- What an invocation of the switch function meets. -/
structure Invocation where
  /-- `d.patterns`, as the loop of `GetRecommendation` visits it. -/
  patterns : List (DPIPattern × ℕ)
  /-- The error of `NewTransport`, if it is called. -/
  refusal : Option TransportError
  /-- The error of `createSession`, if it is called. -/
  sessionError : Option String
  deriving DecidableEq, Repr

/-- The recommendation that the invocation gets. -/
def Invocation.recommended (i : Invocation) : String := getRecommendation i.patterns

/-- The errors of the switch function. -/
inductive SwitchError where
  | refused (err : TransportError)
  | session (err : String)
  | noAlternative
  deriving DecidableEq, Repr

/-- The texts of the errors. -/
def SwitchError.message (quote : String → String) : SwitchError → String
  | refused err => "transport switch failed: " ++ err.message quote
  | session err => err
  | noAlternative => "no alternative transport available"

/-- The client that `New` makes when `NewTransport` has accepted the configuration. -/
def newClient (cfg : File) : Client := ⟨cfg, kindOf cfg.transport, 0⟩

/-- The switch function. -/
def switch (c : Client) (i : Invocation) : Except SwitchError Unit × Client :=
  if i.recommended ≠ "" ∧ i.recommended ≠ c.cfg.transport then
    let named : Client := { c with cfg := { c.cfg with transport := i.recommended } }
    match i.refusal with
    | some err => (.error (.refused err), named)
    | none =>
      let switched : Client := { named with transport := kindOf i.recommended }
      match i.sessionError with
      | some err => (.error (.session err), switched)
      | none => (.ok (), { switched with pooled := switched.pooled + 1 })
  else (.error .noAlternative, c)

/-- The client after an invocation. -/
def step (c : Client) (i : Invocation) : Client := (switch c i).2

/-- **The configuration names the transport** that the client holds. -/
def InStep (c : Client) : Prop := kindOf c.cfg.transport = c.transport

instance : DecidablePred InStep := fun _ => inferInstanceAs (Decidable (_ = _))

/-- The transport is asked for under another name than the one in the configuration. -/
def Asks (c : Client) (i : Invocation) : Prop := i.recommended ≠ c.cfg.transport

instance (c : Client) (i : Invocation) : Decidable (Asks c i) := inferInstanceAs (Decidable (_ ≠ _))

/-! ## What an invocation does -/

/-- The four ways through the function. -/
theorem switch_cases (c : Client) (i : Invocation) :
    (¬ Asks c i ∧ switch c i = (.error .noAlternative, c))
      ∨ (Asks c i ∧ ∃ err, i.refusal = some err ∧ switch c i
          = (.error (.refused err), { c with cfg := { c.cfg with transport := i.recommended } }))
      ∨ (Asks c i ∧ i.refusal = none ∧ ∃ err, i.sessionError = some err ∧ switch c i
          = (.error (.session err),
            ⟨{ c.cfg with transport := i.recommended }, kindOf i.recommended, c.pooled⟩))
      ∨ (Asks c i ∧ i.refusal = none ∧ i.sessionError = none ∧ switch c i
          = (.ok (),
            ⟨{ c.cfg with transport := i.recommended }, kindOf i.recommended, c.pooled + 1⟩)) := by
  unfold switch
  by_cases hasks : Asks c i
  · have hcond : i.recommended ≠ "" ∧ i.recommended ≠ c.cfg.transport :=
      ⟨ne_of_mem_of_not_mem (getRecommendation_mem _) (by decide), hasks⟩
    rw [if_pos hcond]
    rcases hrefusal : i.refusal with _ | err
    · rcases hsession : i.sessionError with _ | err
      · exact .inr (.inr (.inr ⟨hasks, rfl, rfl, rfl⟩))
      · exact .inr (.inr (.inl ⟨hasks, rfl, err, rfl, rfl⟩))
    · exact .inr (.inl ⟨hasks, err, rfl, rfl⟩)
  · rw [if_neg fun hne => hasks hne.2]
    exact .inl ⟨hasks, rfl⟩

/-- What an invocation does to the configuration and the transport. -/
theorem step_cases (c : Client) (i : Invocation) :
    (¬ Asks c i ∧ step c i = c)
      ∨ (Asks c i ∧ i.refusal ≠ none
          ∧ step c i = { c with cfg := { c.cfg with transport := i.recommended } })
      ∨ (Asks c i ∧ i.refusal = none
          ∧ (step c i).cfg = { c.cfg with transport := i.recommended }
          ∧ (step c i).transport = kindOf i.recommended) := by
  unfold step
  obtain ⟨hasks, heq⟩ | ⟨hasks, err, hrefusal, heq⟩ | ⟨hasks, hrefusal, err, -, heq⟩
    | ⟨hasks, hrefusal, -, heq⟩ := switch_cases c i <;> rw [heq]
  · exact .inl ⟨hasks, rfl⟩
  · exact .inr (.inl ⟨hasks, by simp [hrefusal], rfl⟩)
  · exact .inr (.inr ⟨hasks, hrefusal, rfl, rfl⟩)
  · exact .inr (.inr ⟨hasks, hrefusal, rfl, rfl⟩)

/-- **One invocation**: a client in step stays in step exactly if no transport is refused. -/
theorem inStep_switch_iff {c : Client} (h : InStep c) (i : Invocation) :
    InStep (step c i) ↔ (Asks c i → i.refusal = none) := by
  obtain ⟨hasks, heq⟩ | ⟨hasks, hrefusal, heq⟩ | ⟨-, hrefusal, hcfg, htransport⟩ := step_cases c i
  · rw [heq]
    exact iff_of_true h fun hasks' => absurd hasks' hasks
  · -- the name is the recommended one, the transport is the old one
    refine iff_of_false (fun hin => ?_) fun hok => hrefusal (hok hasks)
    rw [heq] at hin
    have hkind : kindOf c.cfg.transport = kindOf i.recommended := h.trans hin.symm
    exact hasks (kindOf_eq_kindOf_getRecommendation_iff.1 hkind).symm
  · refine iff_of_true ?_ fun _ => hrefusal
    rw [InStep, hcfg, htransport]

/-- **The configuration and the transport of a client stay in step** through all invocations of the
switch function exactly if `NewTransport` never refuses the transport it is asked for. -/
theorem always_inStep_iff (cfg : File) (is : List Invocation) :
    Always step InStep (newClient cfg) is
      ↔ EachStep step (fun c i => Asks c i → i.refusal = none) (newClient cfg) is := by
  have hstep : ∀ c i, InStep c → (InStep (step c i) ↔ (Asks c i → i.refusal = none)) :=
    fun _ i h => inStep_switch_iff h i
  have hstart : InStep (newClient cfg) := rfl
  exact always_iff_eachStep hstep hstart is

/-- A client over TCP, without keys for REALITY, before its detector has seen anything: the key is
refused, and the client holds TCP under the name of REALITY.  The next invocation finds nothing to
do. -/
theorem keyless_out_of_step :
    let cfg := Transports.bareFile "client" "tcpmux" true ""
    let err := TransportError.realityClient "failed to parse public key"
    let i : Invocation := ⟨[], some err, none⟩
    Transports.newTransport 1 { cfg with transport := "reality" } = some (.error err)
      ∧ (switch (newClient cfg) i).1 = .error (.refused err)
      ∧ (step (newClient cfg) i).cfg.transport = "reality"
      ∧ (step (newClient cfg) i).transport = .tcpmux
      ∧ ¬ Always step InStep (newClient cfg) [i]
      ∧ (switch (step (newClient cfg) i) i).1 = .error .noAlternative := by
  intro cfg err i
  refine ⟨rfl, by decide, by decide, by decide, ?_, by decide⟩
  intro h
  have hin : InStep (step (newClient cfg) i) := h.last
  revert hin
  decide

end TransportSwitch
