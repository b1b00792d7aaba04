/-
# User management

Model of `Manager` in `internal/users/manager.go`: the map of users, the file it is saved to, and
who may connect.  Whether the file can be written is an input; it is kept as the map that `load`
would make of it.

`AddUser` and `RemoveUser` change the map before they save it and do not change it back:
`allOrNothing_iff` says when a call that returns an error leaves the users as they were, and
`inSync_run_iff` when the file has the users that are in memory.
-/
import Mathlib.Data.Int.Notation
import IPShadowT.Runs

open Runs

namespace Users

/-! ## Users -/

/-- `User`, without what no function here reads. -/
structure User where
  id : String
  name : String
  password : String
  shortID : String
  /-- in bytes, 0 for no limit -/
  maxTraffic : Int64
  expiresAt : String
  enabled : Bool
  createdAt : String
  bytesUp : Int64
  bytesDown : Int64
  deriving DecidableEq, Repr

/-- What is saved of a user. -/
def User.persisted (u : User) : User := { u with bytesUp := 0, bytesDown := 0 }

/-- A map from ids to users. -/
abbrev Directory := String → Option User

/-- The map with another entry for `id`. -/
def Directory.set (d : Directory) (id : String) (u : Option User) : Directory :=
  fun x => if x = id then u else d x

@[simp] theorem Directory.set_self (d : Directory) (id : String) (u : Option User) :
    d.set id u id = u := if_pos rfl

/-- What is saved of the users. -/
def Directory.persisted (d : Directory) : Directory := fun id => (d id).map User.persisted

/-- `Manager`, and the users in its file; none if the file has been damaged. -/
structure Manager where
  users : Directory
  file : Option Directory

/-! ## The calls -/

/-- What becomes of `save`.  An error of `Close` in `os.WriteFile`, after all has been written, is
left out. -/
inductive Outcome where
  | ok
  /-- `json.MarshalIndent` returns an error -/
  | marshalFails
  /-- `os.WriteFile` cannot open the file -/
  | openFails
  /-- `os.WriteFile` fails after the file was truncated -/
  | writeFails
  deriving DecidableEq, Repr

/-- The errors of `AddUser` and `RemoveUser`. -/
inductive Error where
  | exists (id : String)
  | notFound (id : String)
  | save (outcome : Outcome)
  deriving DecidableEq, Repr

/-- The text of an error, with `quote` for the verb `%q`; that of `save` is the error it was
given. -/
def Error.message (quote : String → String) : Error → Option String
  | .exists id => some ("user " ++ quote id ++ " already exists")
  | .notFound id => some ("user " ++ quote id ++ " not found")
  | .save _ => none

def Manager.save (m : Manager) (outcome : Outcome) : Option Error × Manager :=
  match outcome with
  | .ok => (none, { m with file := some m.users.persisted })
  | .marshalFails => (some (.save outcome), m)
  | .openFails => (some (.save outcome), m)
  | .writeFails => (some (.save outcome), { m with file := none })

/-- `AddUser`; `stamp` is the time it is called at. -/
def Manager.addUser (m : Manager) (user : User) (stamp : String) (outcome : Outcome) :
    Option Error × Manager :=
  match m.users user.id with
  | some _ => (some (.exists user.id), m)
  | none =>
    let user := if user.createdAt = "" then { user with createdAt := stamp } else user
    { m with users := m.users.set user.id (some user) }.save outcome

def Manager.removeUser (m : Manager) (id : String) (outcome : Outcome) : Option Error × Manager :=
  match m.users id with
  | none => (some (.notFound id), m)
  | some _ => { m with users := m.users.set id none }.save outcome

def Manager.getUser (m : Manager) (id : String) : Option User := m.users id

/-- `Authenticate`, at the time `now`; `parse` is `time.Parse` for the layout of RFC 3339. -/
def Manager.authenticate (parse : String → Option ℤ) (now : ℤ) (m : Manager) (id : String) :
    Bool × String :=
  match m.getUser id with
  | none => (false, "user not found")
  | some user =>
    if ¬ user.enabled then (false, "user disabled")
    else if user.expiresAt ≠ "" ∧ (parse user.expiresAt).any (· < now) then
      (false, "user expired")
    else if 0 < user.maxTraffic ∧ user.maxTraffic ≤ user.bytesUp + user.bytesDown then
      (false, "traffic limit exceeded")
    else (true, "")

def Manager.recordTraffic (m : Manager) (id : String) (bytesUp bytesDown : Int64) : Manager :=
  match m.getUser id with
  | none => m
  | some user =>
    { m with
      users := m.users.set id (some
        { user with
          bytesUp := user.bytesUp + bytesUp
          bytesDown := user.bytesDown + bytesDown }) }

/-! ## All or nothing -/

/-- A call of `AddUser` or `RemoveUser`. -/
inductive Change where
  | add (user : User) (stamp : String)
  | remove (id : String)
  deriving DecidableEq, Repr

/-- What the call returns, and what it leaves. -/
def Change.apply (m : Manager) (outcome : Outcome) : Change → Option Error × Manager
  | .add user stamp => m.addUser user stamp outcome
  | .remove id => m.removeUser id outcome

/-- The id that the call is about. -/
def Change.id : Change → String
  | .add user _ => user.id
  | .remove id => id

/-- The call is refused before anything is changed. -/
def Change.Refused (m : Manager) : Change → Prop
  | .add user _ => m.users user.id ≠ none
  | .remove id => m.users id = none

/-- `GetUser` and `Authenticate` see the same users, at any time. -/
def SameUsers (m m' : Manager) : Prop :=
  ∀ id, m'.getUser id = m.getUser id ∧
    ∀ parse now, m'.authenticate parse now id = m.authenticate parse now id

@[simp] theorem users_save (m : Manager) (outcome : Outcome) :
    (m.save outcome).2.users = m.users := by
  cases outcome <;> rfl

theorem error_save (m : Manager) (outcome : Outcome) :
    (m.save outcome).1 = none ↔ outcome = .ok := by
  cases outcome with
  | ok => exact iff_of_true rfl rfl
  | marshalFails => exact iff_of_false nofun nofun
  | openFails => exact iff_of_false nofun nofun
  | writeFails => exact iff_of_false nofun nofun

/-- A call that is refused returns an error and changes nothing. -/
theorem Change.apply_of_refused {m : Manager} {c : Change} (h : c.Refused m) (outcome : Outcome) :
    ∃ e, c.apply m outcome = (some e, m) := by
  cases c with
  | add user stamp =>
    obtain ⟨old, hold⟩ := Option.ne_none_iff_exists'.1 h
    exact ⟨.exists user.id, by rw [Change.apply, Manager.addUser, hold]⟩
  | remove id =>
    have hold : m.users id = none := h
    exact ⟨.notFound id, by rw [Change.apply, Manager.removeUser, hold]⟩

/-- A call that is not refused changes whether there is a user, and is then saved. -/
theorem Change.apply_of_not_refused {m : Manager} {c : Change} (h : ¬ c.Refused m)
    (outcome : Outcome) :
    ∃ u, (u = none ↔ m.users c.id ≠ none) ∧
      c.apply m outcome = { m with users := m.users.set c.id u }.save outcome := by
  cases c with
  | add user stamp =>
    have hold : m.users user.id = none := not_not.1 h
    have hsome : ∀ u : User, some u = none ↔ m.users user.id ≠ none :=
      fun u => iff_of_false nofun (not_not.2 hold)
    rw [Change.apply, Manager.addUser, hold]
    by_cases hcreated : user.createdAt = ""
    · exact ⟨_, hsome { user with createdAt := stamp }, by simp only [if_pos hcreated]; rfl⟩
    · exact ⟨_, hsome user, by simp only [if_neg hcreated]; rfl⟩
  | remove id =>
    obtain ⟨old, hold⟩ := Option.ne_none_iff_exists'.1 h
    rw [Change.apply, Manager.removeUser, hold]
    exact ⟨none, iff_of_true rfl h, rfl⟩

/-- **All or nothing.**  If the call returns an error, the users are as they were, if and only if
the call was refused or the file was written. -/
theorem allOrNothing_iff (m : Manager) (c : Change) (outcome : Outcome) :
    ((c.apply m outcome).1 ≠ none → SameUsers m (c.apply m outcome).2) ↔
      c.Refused m ∨ outcome = .ok := by
  by_cases hrefused : c.Refused m
  · obtain ⟨e, happly⟩ := Change.apply_of_refused hrefused outcome
    rw [happly]
    exact iff_of_true (fun _ _ => ⟨rfl, fun _ _ => rfl⟩) (.inl hrefused)
  · obtain ⟨u, hu, happly⟩ := Change.apply_of_not_refused hrefused outcome
    rw [happly, Ne, error_save, or_iff_right hrefused]
    constructor
    · intro h
      by_contra hfails
      have hsaved := users_save { m with users := m.users.set c.id u } outcome
      have hsame : m.users.set c.id u c.id = m.users c.id :=
        (congrFun hsaved c.id).symm.trans (h hfails c.id).1
      rw [Directory.set_self] at hsame
      rw [hsame] at hu
      exact iff_not_self hu
    · intro hok hfails
      exact absurd hok hfails

/-- A user. -/
def alice : User := ⟨"alice", "Alice", "", "", 0, "", true, "2024-01-01T00:00:00Z", 0, 0⟩

/-- The disk is full: the call that adds the user fails, and the user may connect; the call that
removes them fails, and they may not. -/
theorem failed_calls_take_effect :
    (Manager.addUser ⟨fun _ => none, none⟩ alice "" .writeFails).1 = some (.save .writeFails) ∧
      (Manager.addUser ⟨fun _ => none, none⟩ alice "" .writeFails).2.authenticate (fun _ => none) 0
        "alice" = (true, "") ∧
      (Manager.removeUser ⟨fun _ => some alice, none⟩ "alice" .writeFails).1 =
        some (.save .writeFails) ∧
      (Manager.removeUser ⟨fun _ => some alice, none⟩ "alice" .writeFails).2.authenticate
        (fun _ => none) 0 "alice" = (false, "user not found") := by
  decide +kernel

/-! ## Memory and file -/

inductive Event where
  | change (c : Change) (outcome : Outcome)
  | recordTraffic (id : String) (bytesUp bytesDown : Int64)
  deriving DecidableEq, Repr

def step (m : Manager) : Event → Manager
  | .change c outcome => (c.apply m outcome).2
  | .recordTraffic id bytesUp bytesDown => m.recordTraffic id bytesUp bytesDown

/-- The file has the users that are in memory. -/
def InSync (m : Manager) : Prop := m.file = some m.users.persisted

/-- A call is refused or its write is successful. -/
def Kept (m : Manager) : Event → Prop
  | .change c outcome => c.Refused m ∨ outcome = .ok
  | .recordTraffic _ _ _ => True

/-- Traffic is not saved. -/
theorem persisted_recordTraffic (m : Manager) (id : String) (bytesUp bytesDown : Int64) :
    (m.recordTraffic id bytesUp bytesDown).users.persisted = m.users.persisted := by
  unfold Manager.recordTraffic
  cases hold : m.getUser id with
  | none => rfl
  | some user =>
    funext x
    show (m.users.set id _ x).map User.persisted = (m.users x).map User.persisted
    unfold Directory.set
    by_cases hx : x = id
    · have hold : m.users id = some user := hold
      rw [if_pos hx, hx, hold]
      rfl
    · rw [if_neg hx]

theorem inSync_step_iff {m : Manager} (h : InSync m) (ev : Event) :
    InSync (step m ev) ↔ Kept m ev := by
  cases ev with
  | recordTraffic id bytesUp bytesDown =>
    refine iff_of_true ?_ trivial
    have hfile : (m.recordTraffic id bytesUp bytesDown).file = m.file := by
      unfold Manager.recordTraffic
      cases m.getUser id with
      | none => rfl
      | some user => rfl
    show (m.recordTraffic id bytesUp bytesDown).file =
      some (m.recordTraffic id bytesUp bytesDown).users.persisted
    rw [hfile, persisted_recordTraffic]
    exact h
  | change c outcome =>
    show InSync (c.apply m outcome).2 ↔ c.Refused m ∨ outcome = .ok
    by_cases hrefused : c.Refused m
    · obtain ⟨e, happly⟩ := Change.apply_of_refused hrefused outcome
      rw [happly]
      exact iff_of_true h (.inl hrefused)
    · obtain ⟨u, hu, happly⟩ := Change.apply_of_not_refused hrefused outcome
      rw [happly, or_iff_right hrefused]
      -- the users in memory are not those that the file had
      have hnew : (m.users.set c.id u).persisted ≠ m.users.persisted := by
        intro heq
        have hid := congrFun heq c.id
        have hnone : u = none ↔ m.users c.id = none := by
          rw [← Option.map_eq_none_iff (f := User.persisted),
            ← Option.map_eq_none_iff (x := m.users c.id) (f := User.persisted)]
          show u.map User.persisted = none ↔ m.users.persisted c.id = none
          rw [← hid]
          show _ ↔ (m.users.set c.id u c.id).map User.persisted = none
          rw [Directory.set_self]
        exact iff_not_self (hnone.symm.trans hu)
      cases outcome with
      | ok => exact iff_of_true rfl rfl
      | writeFails => exact iff_of_false nofun nofun
      | marshalFails =>
        refine iff_of_false (fun hsync => hnew ?_) nofun
        exact (Option.some.inj (h.symm.trans hsync)).symm
      | openFails =>
        refine iff_of_false (fun hsync => hnew ?_) nofun
        exact (Option.some.inj (h.symm.trans hsync)).symm

/-- **The file keeps up with memory** exactly as long as no call that is not refused fails to
write it. -/
theorem inSync_run_iff {m : Manager} (h : InSync m) (es : List Event) :
    Always step InSync m es ↔ EachStep step Kept m es := by
  have hstep : ∀ (m : Manager) (ev : Event), InSync m → (InSync (step m ev) ↔ Kept m ev) :=
    fun _ ev hsync => inSync_step_iff hsync ev
  exact always_iff_eachStep hstep h es

/-- The disk is full. -/
theorem inSync_run_iff_writeFails :
    ¬ Always step InSync ⟨fun _ => none, some fun _ => none⟩
      [.change (.add alice "") .writeFails] := by
  have hsync : InSync ⟨fun _ => none, some fun _ => none⟩ := rfl
  rw [inSync_run_iff hsync]
  rintro ⟨hrefused | hok, -⟩
  · exact hrefused rfl
  · cases hok

end Users
