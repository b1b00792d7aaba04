/-
# The engine and its switch callback

Model of `Engine` in `core/engine.go`, in client mode: `Start`, `Stop`,
`initFailover` with the callback it registers, and the failover manager behind it.
The callback runs in the goroutine that called `ReportConnectionFailure` or
`ForceSwitch`, or in one that `checkPaths` starts, and takes no lock, so a run
interleaves the pieces between its calls to `Client.Stop`, `client.New` and
`Client.Start`, whose outcome is an input.

A client is the number of the `client.New` call that made it, and `stops` records
on which clients `Stop` has been called: a second call closes a closed channel.
-/
import IPShadowT.Failover

open Failover (PathConfig newFailover defaultFailoverConfig)

/-- `State`, without the states that only a holder of the lock can see. -/
inductive Engine.Phase where
  | stopped
  | running
  | stopping
  | error
  deriving DecidableEq, Repr

/-- What a goroutine has yet to do; `retry` is the index that `doFailover` goes on with
when its callback fails. -/
inductive Engine.Task where
  /-- call `doFailover` with this index -/
  | failover (idx : ℕ)
  /-- run the callback, from its start -/
  | stopOld (toPath : PathConfig) (retry : Option ℕ)
  /-- run the callback, from `client.New` on -/
  | create (retry : Option ℕ)
  /-- run the callback, from `cli.Start` on -/
  | startNew (cli : ℕ) (retry : Option ℕ)
  | done
  deriving DecidableEq, Repr

/-- The engine between two steps of its goroutines. -/
structure Engine where
  /-- `cfg.Paths` -/
  paths : List PathConfig
  /-- `cfg.RemoteAddr` -/
  remoteAddr : String
  /-- `cfg.Transport` -/
  transport : String
  phase : Engine.Phase
  client : Option ℕ
  failover : Option Failover
  /-- how many clients have been made -/
  nextClient : ℕ
  tasks : List Engine.Task
  /-- the calls of `Client.Stop`, the last one first -/
  stops : List ℕ
  deriving DecidableEq, Repr

namespace Engine

/-! ## Start and Stop -/

/-- `New`. -/
def new (paths : List PathConfig) (remoteAddr transport : String) : Engine :=
  ⟨paths, remoteAddr, transport, .stopped, none, none, 0, [], []⟩

/-- `initFailover`. -/
def initFailover (e : Engine) (clock : ℕ → Int) : Engine :=
  { e with failover := some (newFailover e.paths defaultFailoverConfig clock) }

/-- `Start` in client mode; `newOk` and `startOk` say whether `client.New` and `cli.Start`
succeed. -/
def start (e : Engine) (newOk startOk : Bool) (clock : ℕ → Int) : Engine :=
  if e.phase = .running then e
  else if ¬ newOk then { e with phase := .error }
  else if ¬ startOk then { e with phase := .error, nextClient := e.nextClient + 1 }
  else
    let e₁ := { e with client := some e.nextClient, nextClient := e.nextClient + 1 }
    let e₂ := if 1 < e₁.paths.length then e₁.initFailover clock else e₁
    { e₂ with phase := .running }

/-- `Stop` up to the return of `failover.Stop`, after which there are no more health
checks. -/
def beginStop (e : Engine) : Engine :=
  if e.phase = .running then { e with phase := .stopping } else e

/-- The rest of `Stop`. -/
def finishStop (e : Engine) : Engine :=
  if e.phase = .stopping then
    { e with phase := .stopped, stops := e.client.toList ++ e.stops }
  else e

/-! ## The callback -/

/-- The call of the callback for a switch to path `idx`. -/
def callback (f : Failover) (retry : Option ℕ) (idx : ℕ) : Option Task :=
  f.paths[idx]?.map fun p => .stopOld p.config retry

/-- A goroutine whose callback has failed. -/
def afterError : Option ℕ → Task
  | some idx => .failover idx
  | none => .done

/-- Goroutine `k` enters `doFailover`. -/
def enterFailover (e : Engine) (k idx : ℕ) (now : Int) : Engine :=
  match e.failover with
  | none => e
  | some f =>
    let (next, f₁) := f.doFailover idx now
    let task := (next.bind fun j => callback f₁ (some j) j).getD .done
    { e with failover := some f₁, tasks := e.tasks.set k task }

/-- The callback updates the configuration and stops the old client. -/
def stopOld (e : Engine) (k : ℕ) (toPath : PathConfig) (retry : Option ℕ) : Engine :=
  { e with
    remoteAddr := toPath.remoteAddr
    transport := if toPath.transport ≠ "" then toPath.transport else e.transport
    stops := e.client.toList ++ e.stops
    tasks := e.tasks.set k (.create retry) }

/-- The callback calls `client.New`. -/
def create (e : Engine) (k : ℕ) (retry : Option ℕ) (ok : Bool) : Engine :=
  if ok then
    { e with
      nextClient := e.nextClient + 1
      tasks := e.tasks.set k (.startNew e.nextClient retry) }
  else { e with tasks := e.tasks.set k (afterError retry) }

/-- The callback calls `cli.Start`, and installs the client. -/
def startNew (e : Engine) (k cli : ℕ) (retry : Option ℕ) (ok : Bool) : Engine :=
  if ok then { e with client := some cli, tasks := e.tasks.set k .done }
  else { e with tasks := e.tasks.set k (afterError retry) }

/-! ## Steps -/

/-- A step of some goroutine. -/
inductive Event where
  | reportConnectionFailure (err : String)
  | reportConnectionSuccess
  | checkPaths (now : Int)
  | forceSwitch (pathName : String)
  | disablePath (pathName : String)
  | enablePath (pathName : String) (now : Int)
  /-- goroutine `k` goes on; `ok` is the outcome of the call it makes -/
  | resume (k : ℕ) (ok : Bool) (now : Int)
  | beginStop
  | finishStop
  deriving DecidableEq, Repr

/-- A call of a method of the failover manager, which may leave a goroutine with a task. -/
def onFailover (e : Engine) (g : Failover → Option Task × Failover) : Engine :=
  match e.failover with
  | none => e
  | some f => { e with failover := some (g f).2, tasks := e.tasks ++ (g f).1.toList }

def step (e : Engine) : Event → Engine
  | .reportConnectionFailure err => e.onFailover fun f =>
    ((f.reportFailure err).1.map Task.failover, (f.reportFailure err).2)
  | .reportConnectionSuccess => e.onFailover fun f => (none, f.reportSuccess)
  | .checkPaths now =>
    if e.phase = .running then e.onFailover fun f =>
      ((f.checkPaths now).1.bind (callback f none), (f.checkPaths now).2)
    else e
  | .forceSwitch pathName => e.onFailover fun f =>
    ((f.forceSwitch pathName).1.bind (callback f none), (f.forceSwitch pathName).2)
  | .disablePath pathName => e.onFailover fun f => (none, f.disablePath pathName)
  | .enablePath pathName now => e.onFailover fun f => (none, f.enablePath pathName now)
  | .resume k ok now =>
    match e.tasks[k]? with
    | some (.failover idx) => e.enterFailover k idx now
    | some (.stopOld toPath retry) => e.stopOld k toPath retry
    | some (.create retry) => e.create k retry ok
    | some (.startNew cli retry) => e.startNew k cli retry ok
    | some .done => e
    | none => e
  | .beginStop => e.beginStop
  | .finishStop => e.finishStop

end Engine
