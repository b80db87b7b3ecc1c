import RatatoskrTelegram.Schema
import Mathlib.Data.Prod.Lex

/-!
# Updates

The insert is the deduplication decision, and the row outlives its processing.
A claim takes the oldest eligible update under a lease; a worker then defers or
settles it by its key.
-/

namespace RatatoskrTelegram

structure AdmittedUpdate where
  botId : ℤ
  updateId : ℤ
  kind : String
  payload : Json
  deriving DecidableEq, Repr

inductive RecordOutcome
  | inserted | duplicate
  deriving DecidableEq, Repr

/-- The row of an admitted update; `now` is the database clock its defaults read. -/
def AdmittedUpdate.row (update : AdmittedUpdate) (now : ℤ) : Update where
  botId := update.botId
  updateId := update.updateId
  kind := update.kind
  payload := some update.payload
  state := .accepted
  attemptCount := 0
  receivedAt := now
  nextAttemptAt := now
  leaseExpiresAt := none
  settledAt := none

def recordUpdate (update : AdmittedUpdate) (now : ℤ) :
    Database → Except PersistenceError RecordOutcome × Database :=
  transaction fun db =>
    match db.updates.insert (update.row now) with
    | none => .rollback .duplicate
    | some updates => .commit .inserted {db with updates := updates}

def updateLeaseSecs : ℤ := 30

def updateRecoveryAttempts : ℤ := 8

structure PendingUpdate where
  botId : ℤ
  updateId : ℤ
  payload : Json
  deriving DecidableEq, Repr

/-- Waiting past its `next_attempt_at`, or processing past its lease. -/
def Update.Eligible (now : ℤ) (u : Update) : Prop :=
  u.payload ≠ none ∧ ((u.state = .accepted ∧ u.nextAttemptAt ≤ now) ∨
    (u.state = .processing ∧ ∃ l ∈ u.leaseExpiresAt, l ≤ now))

instance (now : ℤ) : DecidablePred (Update.Eligible now) := fun u => by
  delta Update.Eligible
  infer_instance

/-- `order by next_attempt_at, received_at, bot_id, update_id`. -/
def Update.ClaimedBefore (u v : Update) : Prop :=
  toLex (u.nextAttemptAt,toLex (u.receivedAt,toLex (u.botId,u.updateId))) ≤
    toLex (v.nextAttemptAt,toLex (v.receivedAt,toLex (v.botId,v.updateId)))

instance : DecidableRel Update.ClaimedBefore := fun u v => by
  delta Update.ClaimedBefore
  infer_instance

/-- The row the claim locks; rows that other transactions hold are skipped. -/
def pendingUpdate (locked : Finset (ℤ × ℤ)) (now : ℤ) (updates : Table Update) : Option Update :=
  (updates.orderedBy (fun u => u.Eligible now ∧ Keyed.key u ∉ locked) Update.ClaimedBefore).head?

theorem pendingUpdate_eq_some {locked : Finset (ℤ × ℤ)} {now : ℤ} {updates : Table Update}
    {u : Update} (h : pendingUpdate locked now updates = some u) :
    u ∈ updates ∧ u.Eligible now ∧ Keyed.key u ∉ locked :=
  Table.mem_orderedBy.mp (List.mem_of_mem_head? (Option.mem_def.mpr h))

def takeUpdate (now : ℤ) : Assignment Update where
  set u := {u with
    state := .processing
    leaseExpiresAt := some (now + updateLeaseSecs)
    attemptCount := u.attemptCount + 1}
  keepsKey _ := rfl

@[simp] theorem takeUpdate_set (now : ℤ) (u : Update) : (takeUpdate now).set u =
    {u with
      state := .processing
      leaseExpiresAt := some (now + updateLeaseSecs)
      attemptCount := u.attemptCount + 1} := rfl

/-- `now` is the database clock of the statement. -/
def claimUpdate (locked : Finset (ℤ × ℤ)) (now : ℤ) (db : Database) :
    Option PendingUpdate × Database :=
  match pendingUpdate locked now db.updates with
  | none => (none,db)
  | some u => (u.payload.map fun payload => ⟨u.botId,u.updateId,payload⟩,
      {db with updates := db.updates.update (Keyed.key · = Keyed.key u) (takeUpdate now)})

/-- `where bot_id = … and update_id = … and state = 'processing' and payload is not null`. -/
def Update.Releasable (botId updateId : ℤ) (u : Update) : Prop :=
  u.botId = botId ∧ u.updateId = updateId ∧ u.state = .processing ∧ u.payload ≠ none

instance (botId updateId : ℤ) : DecidablePred (Update.Releasable botId updateId) := fun u => by
  delta Update.Releasable
  infer_instance

def releaseUpdate (retryAt : ℤ) : Assignment Update where
  set u := {u with
    state := if updateRecoveryAttempts ≤ u.attemptCount then .recoveryRequired else .accepted
    leaseExpiresAt := none
    nextAttemptAt := retryAt}
  keepsKey _ := rfl

@[simp] theorem releaseUpdate_set (retryAt : ℤ) (u : Update) : (releaseUpdate retryAt).set u =
    {u with
      state := if updateRecoveryAttempts ≤ u.attemptCount then .recoveryRequired else .accepted
      leaseExpiresAt := none
      nextAttemptAt := retryAt} := rfl

def deferUpdateRetry (botId updateId retryAt : ℤ) :
    Database → Except PersistenceError Unit × Database :=
  transaction fun db =>
    if db.updates.any (Update.Releasable botId updateId) then
      .commit () {db with
        updates := db.updates.update (Update.Releasable botId updateId) (releaseUpdate retryAt)}
    else .abort .unknownUpdate

/-- The states a worker moves a row to; `accepted` is the insert's alone. -/
inductive SettledState
  | processing | processed | unsupported | failed | denied
  deriving DecidableEq, Repr

namespace SettledState

/-- The column value `state.as_str()` stands for. -/
def stored : SettledState → UpdateState
  | processing => .processing
  | processed => .processed
  | unsupported => .unsupported
  | failed => .failed
  | denied => .denied

/-- `state in ('processed', 'unsupported', 'failed', 'denied')`. -/
def isTerminal : SettledState → Bool
  | processing => false
  | _ => true

end SettledState

/-- Entering processing renews the lease; a terminal state stamps the settle time and drops the
payload. -/
def writeState (state : SettledState) (now : ℤ) : Assignment Update where
  set u := {u with
    state := state.stored
    leaseExpiresAt := if state.isTerminal then none else some (now + updateLeaseSecs)
    settledAt := if state.isTerminal then some now else u.settledAt
    payload := if state.isTerminal then none else u.payload}
  keepsKey _ := rfl

@[simp] theorem writeState_set (state : SettledState) (now : ℤ) (u : Update) :
    (writeState state now).set u =
      {u with
        state := state.stored
        leaseExpiresAt := if state.isTerminal then none else some (now + updateLeaseSecs)
        settledAt := if state.isTerminal then some now else u.settledAt
        payload := if state.isTerminal then none else u.payload} := rfl

/-- The row checks of `updates`. -/
def Update.Checked (u : Update) : Prop :=
  0 ≤ u.attemptCount ∧
    (u.state = .accepted ∨ u.state = .processing ∨ u.state = .recoveryRequired ↔
      u.payload ≠ none) ∧
    (u.state = .processing ↔ u.leaseExpiresAt ≠ none)

instance : DecidablePred Update.Checked := fun u => by
  delta Update.Checked
  infer_instance

def settleUpdate (botId updateId : ℤ) (state : SettledState) (now : ℤ) :
    Database → Except PersistenceError Unit × Database :=
  transaction fun db =>
    match db.updates.select (botId,updateId) with
    | none => .abort .unknownUpdate
    | some u =>
      if ((writeState state now).set u).Checked then
        .commit () {db with
          updates := db.updates.update (Keyed.key · = (botId,updateId)) (writeState state now)}
      else .abort (.query .checkViolation)

end RatatoskrTelegram
