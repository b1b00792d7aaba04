/-
# The security manager: admission and brute-force protection

Model of `Manager` in `internal/security/security.go`, as far as it decides
admission: the two address lists, the failure counters, the audit log, and the
functions `IsAllowed`, `AddToBlacklist`, `RecordFailedLogin`,
`ResetFailedLogins`, `CleanupExpiredBlocks` and `Audit`.

Map keys are Go strings.  `IsAllowed` looks its argument up by host,
`RecordFailedLogin` files it as it is; `isAllowed_addr` and
`hostAllowed_recordFailedLogin` say what that means for a peer address.
-/
import IPShadowT.HostPort

open HostPort

namespace Security

/-! ## State -/

/-- `AuditEntry`. -/
structure AuditEntry where
  timestamp : Int
  event : String
  source : Bytes
  userID : String
  details : String
  success : Bool
  deriving DecidableEq, Repr

/-- `loginAttempts`. -/
structure LoginAttempts where
  count : ℕ
  lastAttempt : Int
  deriving DecidableEq, Repr

/-- `Manager`.  The address lists are maps to `true`, so only their keys matter. -/
structure Manager where
  ipWhitelist : List Bytes
  ipBlacklist : List Bytes
  failedLogins : List (Bytes × LoginAttempts)
  auditLog : List AuditEntry
  deriving DecidableEq, Repr

/-- `NewManager`. -/
def newManager : Manager := ⟨[], [], [], []⟩

namespace Manager

/-! ## Operations -/

/-- `Audit`: append, and keep the last 10000 entries. -/
def audit (m : Manager) (e : AuditEntry) : Manager :=
  { m with auditLog := ((m.auditLog ++ [e]).reverse.take 10000).reverse }

/-- `AddToBlacklist`. -/
def addToBlacklist (m : Manager) (ip : Bytes) : Manager :=
  { m with ipBlacklist := m.ipBlacklist.insert ip }

/-- The key under which `IsAllowed` looks an address up: its host, or the whole
address when it does not split. -/
def lookupKey (addr : Bytes) : Bytes :=
  let host := match splitHostPort addr with
    | .ok (host, _) => host
    | .error _ => []
  if host = [] then addr else host

/-- `IsAllowed`. -/
def isAllowed (m : Manager) (addr : Bytes) : Bool :=
  let host := lookupKey addr
  if host ∈ m.ipBlacklist then false
  else if m.ipWhitelist ≠ [] then host ∈ m.ipWhitelist
  else true

/-- The counter for a key, a new one when there is none (`LoadOrStore`). -/
def attempts (m : Manager) (ip : Bytes) : LoginAttempts :=
  ((m.failedLogins.find? (·.1 = ip)).map (·.2)).getD ⟨0, 0⟩

/-- `RecordFailedLogin`, at time `now`: whether the address is blocked now, and the
manager afterwards. -/
def recordFailedLogin (m : Manager) (now : Int) (ip : Bytes) : Bool × Manager :=
  let count := (m.attempts ip).count + 1
  let m₁ := { m with
    failedLogins := (ip, ⟨count, now⟩) :: m.failedLogins.filter (·.1 ≠ ip) }
  if 5 ≤ count then
    (true, (m₁.addToBlacklist ip).audit
      ⟨now, "brute_force_blocked", ip, "",
        "Blocked after " ++ toString count ++ " failed attempts", false⟩)
  else (false, m₁)

/-- `ResetFailedLogins`. -/
def resetFailedLogins (m : Manager) (ip : Bytes) : Manager :=
  { m with failedLogins := m.failedLogins.filter (·.1 ≠ ip) }

/-- An entry of `failedLogins` that `CleanupExpiredBlocks` deletes: the last failure is more than
30 minutes ago, in nanoseconds. -/
def Expired (now : Int) (entry : Bytes × LoginAttempts) : Prop :=
  now - entry.2.lastAttempt > 30 * 60 * 1000000000

instance (now : Int) (entry : Bytes × LoginAttempts) : Decidable (Expired now entry) :=
  inferInstanceAs (Decidable (_ > _))

/-- `CleanupExpiredBlocks`: the key of each expired entry is deleted from both maps. -/
def cleanupExpiredBlocks (m : Manager) (now : Int) : Manager :=
  { m with
    failedLogins := m.failedLogins.filter fun entry => ¬ Expired now entry
    ipBlacklist := m.ipBlacklist.filter fun ip =>
      ¬ ∃ entry ∈ m.failedLogins, entry.1 = ip ∧ Expired now entry }

/-! ## Which hosts are admitted -/

/-- The host passes the two lists. -/
def HostAllowed (m : Manager) (host : Bytes) : Prop :=
  host ∉ m.ipBlacklist ∧ (m.ipWhitelist = [] ∨ host ∈ m.ipWhitelist)

theorem lookupKey_addr (p : Peer) : lookupKey p.addr = p.ip.text := by
  unfold lookupKey
  rw [p.splitHostPort_addr]
  exact if_neg p.ip.nonempty

/-- A peer is admitted by its host, whatever its port. -/
theorem isAllowed_addr (m : Manager) (p : Peer) :
    m.isAllowed p.addr = true ↔ m.HostAllowed p.ip.text := by
  unfold isAllowed HostAllowed
  rw [lookupKey_addr]
  by_cases hb : p.ip.text ∈ m.ipBlacklist
  · simp [hb]
  · by_cases hw : m.ipWhitelist = []
    · simp [hb, hw]
    · simp [hb, hw]

/-- Only the address lists decide. -/
theorem hostAllowed_congr {m m' : Manager} (hw : m'.ipWhitelist = m.ipWhitelist)
    {host : Bytes} (hb : host ∈ m'.ipBlacklist ↔ host ∈ m.ipBlacklist) :
    m'.HostAllowed host ↔ m.HostAllowed host := by
  unfold HostAllowed
  rw [hw, hb]

/-- `RecordFailedLogin` changes the admission of no host but the string it was
given. -/
theorem hostAllowed_recordFailedLogin (m : Manager) (now : Int) {ip host : Bytes}
    (hne : ip ≠ host) :
    (m.recordFailedLogin now ip).2.HostAllowed host ↔ m.HostAllowed host := by
  unfold recordFailedLogin
  dsimp only
  split_ifs with h
  · apply hostAllowed_congr
    · rfl
    · show host ∈ m.ipBlacklist.insert ip ↔ _
      rw [List.mem_insert_iff]
      exact ⟨fun h => h.resolve_left (Ne.symm hne), Or.inr⟩
  · exact Iff.rfl

end Manager

end Security
