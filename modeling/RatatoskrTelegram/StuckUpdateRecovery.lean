import Mathlib.Algebra.Group.Nat.Defs
import RatatoskrTelegram.Updates

/-!
# Operator recovery of a stuck update

The script opens a row for another claim if it is in the state the operator expects.
The one state the tool lets through is the one whose lease the script leaves behind.
-/

namespace RatatoskrTelegram

inductive UpdateRecoveryReport
  | recoveredOne | refusedStateMismatch
  deriving DecidableEq, Repr

/-- The `where` clause of `recover-stuck-update.sql`. -/
def Update.Stuck (botId updateId : ℤ) (expected : UpdateState) (u : Update) : Prop :=
  u.botId = botId ∧ u.updateId = updateId ∧ u.state = expected ∧ u.payload ≠ none

instance (botId updateId : ℤ) (expected : UpdateState) :
    DecidablePred (Update.Stuck botId updateId expected) := fun u => by
  delta Update.Stuck
  infer_instance

/-- `set state = 'accepted', settled_at = null`. -/
def reopenUpdate : Assignment Update where
  set u := {u with
    state := .accepted
    settledAt := none}
  keepsKey _ := rfl

@[simp] theorem reopenUpdate_set (u : Update) : reopenUpdate.set u =
    {u with
      state := .accepted
      settledAt := none} := rfl

/-- `recover-stuck-update.sql`; a row that fails its checks takes the statement back. -/
def recoverStuckUpdate (botId updateId : ℤ) (expected : UpdateState) :
    Database → Except PersistenceError UpdateRecoveryReport × Database :=
  transaction fun db =>
    let recovered := db.updates.rows.filter fun u => u.Stuck botId updateId expected
    if recovered.all fun u => (reopenUpdate.set u).Checked then
      .commit (if recovered.length = 1 then .recoveredOne else .refusedStateMismatch) {db with
        updates := db.updates.update (Update.Stuck botId updateId expected) reopenUpdate}
    else .abort (.query .checkViolation)

/-- What the operator is promised of the row that is named, and of every other. -/
structure StuckUpdateRecovered (db : Database) (botId updateId : ℤ) (expected : UpdateState) :
    Prop where
  recovers : ∀ u payload, db.updates.select (botId,updateId) = some u → u.state = expected →
    u.payload = some payload →
    (recoverStuckUpdate botId updateId expected db).1 = .ok .recoveredOne ∧
      ∃ since, ∀ now, since ≤ now → ∃ locked,
        (claimUpdate locked now (recoverStuckUpdate botId updateId expected db).2).1 =
          some ⟨botId,updateId,payload⟩
  others : ∀ key, key ≠ (botId,updateId) →
    (recoverStuckUpdate botId updateId expected db).2.updates.select key = db.updates.select key
  mismatch : ∀ u, db.updates.select (botId,updateId) = some u → u.state ≠ expected →
    (recoverStuckUpdate botId updateId expected db).2.updates.select (botId,updateId) = some u

theorem Table.filter_eq_singleton {ρ κ : Type} [Keyed ρ κ] {t : Table ρ} {r : ρ}
    {p : ρ → Prop} [DecidablePred p] (hr : r ∈ t) (h : ∀ s ∈ t, p s ↔ s = r) :
    (t.rows.filter fun s => p s) = [r] := by
  have hnodup : (t.rows.filter fun s => p s).Nodup := (List.Nodup.of_map _ t.unique).filter _
  refine List.perm_singleton.mp ((List.perm_ext_iff_of_nodup hnodup (List.nodup_singleton r)).mpr ?_)
  intro s
  rw [List.mem_filter,List.mem_singleton,decide_eq_true_iff]
  exact ⟨fun hs => (h s hs.1).mp hs.2,fun hs => hs ▸ ⟨hr,(h r hr).mpr rfl⟩⟩

section Script

variable {db : Database} {botId updateId : ℤ} {expected : UpdateState} {u : Update}

theorem Update.Stuck.key (h : u.Stuck botId updateId expected) :
    Keyed.key u = (botId,updateId) := by
  obtain ⟨rfl,rfl,_⟩ := h
  rfl

theorem stuck_iff_of_select (hu : db.updates.select (botId,updateId) = some u)
    (hs : u.Stuck botId updateId expected) :
    ∀ v ∈ db.updates, v.Stuck botId updateId expected ↔ v = u := by
  intro v hv
  constructor
  · intro hstuck
    refine Table.eq_of_key hv (Table.mem_of_select hu) ?_
    rw [hstuck.key,hs.key]
  · rintro rfl
    exact hs

theorem recoverStuckUpdate_stuck (hu : db.updates.select (botId,updateId) = some u)
    (hs : u.Stuck botId updateId expected) :
    recoverStuckUpdate botId updateId expected db =
      if (reopenUpdate.set u).Checked then
        (.ok .recoveredOne,{db with
          updates := db.updates.update (Update.Stuck botId updateId expected) reopenUpdate})
      else (.error (.query .checkViolation),db) := by
  have hrows : (db.updates.rows.filter fun v => v.Stuck botId updateId expected) = [u] :=
    Table.filter_eq_singleton (Table.mem_of_select hu) (stuck_iff_of_select hu hs)
  simp only [recoverStuckUpdate,transaction,hrows]
  have hall : ([u].all fun v => decide (reopenUpdate.set v).Checked) =
      decide (reopenUpdate.set u).Checked := Bool.and_true _
  rw [hall]
  by_cases hc : (reopenUpdate.set u).Checked
  · rw [if_pos (decide_eq_true hc),if_pos hc]
    rfl
  · rw [if_neg (fun h => hc (of_decide_eq_true h)),if_neg hc]

theorem recoverStuckUpdate_refused
    (h : ∀ v ∈ db.updates, ¬ v.Stuck botId updateId expected) :
    recoverStuckUpdate botId updateId expected db = (.ok .refusedStateMismatch,db) := by
  have hrows : (db.updates.rows.filter fun v => v.Stuck botId updateId expected) = [] :=
    List.filter_eq_nil_iff.mpr fun v hv => by simpa using h v hv
  have hkept : db.updates.update (Update.Stuck botId updateId expected) reopenUpdate = db.updates :=
    Table.update_of_forall_not h
  simp [recoverStuckUpdate,transaction,hrows,hkept]

/-- A row with a lease is not one to wait for a claim: an accepted row has none. -/
theorem reopen_checked_iff (h : u.Checked) (hp : u.payload ≠ none) :
    (reopenUpdate.set u).Checked ↔ u.state ≠ .processing := by
  have hlease : u.state = .processing ↔ u.leaseExpiresAt ≠ none := h.2.2
  have hattempts : 0 ≤ u.attemptCount := h.1
  simp only [Update.Checked,reopenUpdate_set]
  constructor
  · rintro ⟨_,_,hnone⟩ hstate
    have hsome := hlease.mp hstate
    exact absurd (hnone.mpr hsome) (by decide)
  · intro hstate
    have hnone : u.leaseExpiresAt = none := by
      by_contra hsome
      exact hstate (hlease.mpr hsome)
    exact ⟨hattempts,by simp [hp],by simp [hnone]⟩

/-- A stuck row that is being processed is never opened: the script ends in an error, and
nothing has changed. -/
theorem recoverStuckUpdate_processing (hdb : ∀ v ∈ db.updates, v.Checked)
    (hu : db.updates.select (botId,updateId) = some u)
    (hs : u.Stuck botId updateId .processing) :
    recoverStuckUpdate botId updateId .processing db = (.error (.query .checkViolation),db) := by
  have hstate : u.state = .processing := hs.2.2.1
  have hchecked : ¬ (reopenUpdate.set u).Checked := fun hc =>
    (reopen_checked_iff (hdb u (Table.mem_of_select hu)) hs.2.2.2).mp hc hstate
  rw [recoverStuckUpdate_stuck hu hs,if_neg hchecked]

theorem claimUpdate_takes {v : Update} {payload : Json} (now : ℤ) (hv : v ∈ db.updates)
    (hstate : v.state = .accepted) (hp : v.payload = some payload) (hdue : v.nextAttemptAt ≤ now) :
    ∃ locked, (claimUpdate locked now db).1 = some ⟨v.botId,v.updateId,payload⟩ := by
  have heligible : v.Eligible now := ⟨by simp [hp],.inl ⟨hstate,hdue⟩⟩
  have honly : ∀ w ∈ db.updates, (w.Eligible now ∧
      Keyed.key w ∉ ((db.updates.rows.map Keyed.key).toFinset.erase (Keyed.key v))) ↔ w = v := by
    intro w hw
    constructor
    · rintro ⟨_,hfree⟩
      refine Table.eq_of_key hw hv ?_
      by_contra hne
      have hkeys : Keyed.key w ∈ db.updates.rows.map Keyed.key := List.mem_map.mpr ⟨w,hw,rfl⟩
      exact hfree (Finset.mem_erase.mpr ⟨hne,List.mem_toFinset.mpr hkeys⟩)
    · rintro rfl
      exact ⟨heligible,by simp⟩
  have hpending : pendingUpdate ((db.updates.rows.map Keyed.key).toFinset.erase (Keyed.key v)) now
      db.updates = some v := by
    rw [pendingUpdate,Table.orderedBy,Table.filter_eq_singleton hv honly]
    rfl
  have hclaim : (claimUpdate ((db.updates.rows.map Keyed.key).toFinset.erase (Keyed.key v)) now
      db).1 = some ⟨v.botId,v.updateId,payload⟩ := by
    rw [claimUpdate,hpending]
    simp [hp]
  exact ⟨_,hclaim⟩

theorem stuckUpdateRecovered_of_unmet
    (h : ∀ v ∈ db.updates, ¬ v.Stuck botId updateId expected) :
    StuckUpdateRecovered db botId updateId expected where
  recovers u payload hu hstate hp := by
    have hkey : Keyed.key u = (botId,updateId) := Table.key_of_select hu
    have hids : u.botId = botId ∧ u.updateId = updateId := by simpa [Keyed.key] using hkey
    exact absurd ⟨hids.1,hids.2,hstate,by simp [hp]⟩ (h u (Table.mem_of_select hu))
  others key _ := by rw [recoverStuckUpdate_refused h]
  mismatch u hu _ := by
    rw [recoverStuckUpdate_refused h]
    exact hu

theorem stuckUpdateRecovered_of_checked (hu : db.updates.select (botId,updateId) = some u)
    (hs : u.Stuck botId updateId expected) (hc : (reopenUpdate.set u).Checked) :
    StuckUpdateRecovered db botId updateId expected := by
  have hrun : recoverStuckUpdate botId updateId expected db =
      (.ok .recoveredOne,{db with
        updates := db.updates.update (Update.Stuck botId updateId expected) reopenUpdate}) := by
    rw [recoverStuckUpdate_stuck hu hs,if_pos hc]
  have hselect : (db.updates.update (Update.Stuck botId updateId expected) reopenUpdate).select
      (botId,updateId) = some (reopenUpdate.set u) := by simp [hu,hs]
  constructor
  · intro v payload hv hstate hp
    obtain rfl : u = v := Option.some.inj (hu.symm.trans hv)
    rw [hrun]
    refine ⟨rfl,u.nextAttemptAt,fun now hnow => ?_⟩
    have hclaim := @claimUpdate_takes
      {db with updates := db.updates.update (Update.Stuck botId updateId expected) reopenUpdate}
      (reopenUpdate.set u) payload now (Table.mem_of_select hselect) rfl hp hnow
    have hids : u.botId = botId ∧ u.updateId = updateId := ⟨hs.1,hs.2.1⟩
    simpa [hids] using hclaim
  · intro key hkey
    rw [hrun]
    simp only [Table.select_update]
    cases hv : db.updates.select key with
    | none => rfl
    | some v =>
      have hne : ¬ v.Stuck botId updateId expected := fun hstuck =>
        hkey ((Table.key_of_select hv).symm.trans hstuck.key)
      rw [Option.map_some,if_neg hne]
  · intro v hv hstate
    obtain rfl : u = v := Option.some.inj (hu.symm.trans hv)
    exact absurd hs.2.2.1 hstate

/-- Recovery does what it promises exactly where the expected state is not `processing`, or
where no row is there to be recovered from it. -/
theorem stuckUpdateRecovered_iff (db : Database) (botId updateId : ℤ) (expected : UpdateState)
    (hdb : ∀ v ∈ db.updates, v.Checked) :
    StuckUpdateRecovered db botId updateId expected ↔
      (expected = .processing →
        ∀ u, db.updates.select (botId,updateId) = some u → u.state ≠ .processing) := by
  constructor
  · rintro h rfl u hu hstate
    have hchecked : u.Checked := hdb u (Table.mem_of_select hu)
    have hp : u.payload ≠ none := hchecked.2.1.mp (.inr (.inl hstate))
    obtain ⟨payload,hpayload⟩ := Option.ne_none_iff_exists'.mp hp
    have hkey : Keyed.key u = (botId,updateId) := Table.key_of_select hu
    have hids : u.botId = botId ∧ u.updateId = updateId := by simpa [Keyed.key] using hkey
    have hrecovered := (h.recovers u payload hu hstate hpayload).1
    rw [recoverStuckUpdate_processing hdb hu ⟨hids.1,hids.2,hstate,hp⟩] at hrecovered
    simp at hrecovered
  · intro h
    by_cases hmet : ∃ u ∈ db.updates, u.Stuck botId updateId expected
    · obtain ⟨u,hu,hs⟩ := hmet
      have hselect : db.updates.select (botId,updateId) = some u := by
        rw [← hs.key]
        exact Table.select_of_mem hu
      refine stuckUpdateRecovered_of_checked hselect hs ?_
      refine (reopen_checked_iff (hdb u hu) hs.2.2.2).mpr fun hstate => ?_
      exact h (hs.2.2.1.symm.trans hstate) u hselect hstate
    · refine stuckUpdateRecovered_of_unmet fun v hv hs => hmet ⟨v,hv,hs⟩

end Script

structure RecoverUpdateOptions where
  botId : String
  updateId : String
  expected : String
  dryRun : Bool
  execute : Bool
  ack : String
  deriving DecidableEq, Repr

inductive OperatorOutcome
  | died (text : String) (code : ℕ)
  | dryRun (text : String)
  | ran (report : Except PersistenceError UpdateRecoveryReport)
  | castFailed
  deriving DecidableEq

def isUint (text : String) : Bool := text ≠ "" && text.toList.all Char.isDigit

def bigint (text : String) : Option ℤ :=
  let value := text.toList.foldl (fun n c => 10 * n + (c.toNat - '0'.toNat)) 0
  if value < 2 ^ 63 then some value else none

/-- `recover_update`; `database` tells whether the URL of the database is set. -/
def recoverUpdate (options : RecoverUpdateOptions) (database : Bool) (db : Database) :
    OperatorOutcome × Database :=
  if ¬ isUint options.botId ∨ ¬ isUint options.updateId then
    (.died "bot-id and update-id must be unsigned integers" 64,db)
  else if options.expected ≠ "processing" then (.died "expected-state must be processing" 64,db)
  else if options.dryRun then
    if options.execute then (.died "--dry-run and --execute are mutually exclusive" 64,db)
    else (.dryRun (s!"DRY-RUN: recover Telegram update {options.botId}/{options.updateId}; " ++
      s!"expected state: {options.expected}; conditional mutation affects at most one row\n"),db)
  else if ¬ options.execute then (.died "recovery requires --dry-run or --execute" 64,db)
  else
    let expectedAck := s!"recover {options.botId}/{options.updateId} from {options.expected}"
    if options.ack ≠ expectedAck then (.died s!"--ack must equal: {expectedAck}" 64,db)
    else if ¬ database then (.died "RATATOSKR_TELEGRAM_DATABASE_URL is required" 78,db)
    else
      match bigint options.botId, bigint options.updateId with
      | some botId, some updateId =>
        let run := recoverStuckUpdate botId updateId .processing db
        (.ran run.1,run.2)
      | _, _ => (.castFailed,db)

theorem recoverStuckUpdate_keeps {db : Database} (hdb : ∀ v ∈ db.updates, v.Checked)
    (botId updateId : ℤ) : (recoverStuckUpdate botId updateId .processing db).2 = db := by
  by_cases hmet : ∃ u ∈ db.updates, u.Stuck botId updateId .processing
  · obtain ⟨u,hu,hs⟩ := hmet
    have hselect : db.updates.select (botId,updateId) = some u := by
      rw [← hs.key]
      exact Table.select_of_mem hu
    rw [recoverStuckUpdate_processing hdb hselect hs]
  · rw [recoverStuckUpdate_refused fun v hv hs => hmet ⟨v,hv,hs⟩]

/-- Whatever the operator asks for, the tool leaves the database as it finds it. -/
theorem recoverUpdate_keeps {db : Database} (hdb : ∀ v ∈ db.updates, v.Checked)
    (options : RecoverUpdateOptions) (database : Bool) :
    (recoverUpdate options database db).2 = db := by
  simp only [recoverUpdate]
  repeat' split
  all_goals first | rfl | exact recoverStuckUpdate_keeps hdb _ _

namespace AbandonedUpdate

/-- Recorded and claimed at 0; the lease of the claim runs out at 30. -/
def database : Database :=
  (claimUpdate ∅ 0 (recordUpdate ⟨7,42,"message","\x7b\x7d"⟩ 0 .fresh).2).2

theorem checked : ∀ u ∈ database.updates, u.Checked := by
  have hrows : ∀ u ∈ database.updates.rows, u.Checked := by decide +kernel
  exact hrows

/-- The tool is told to recover it, and the script ends at the check of the lease. -/
theorem not_recovered : ¬ ∀ (db : Database) (botId updateId : ℤ),
    (∀ u ∈ db.updates, u.Checked) → StuckUpdateRecovered db botId updateId .processing := by
  intro h
  have hrow : database.updates.select (7,42) =
      some ⟨7,42,"message",some "\x7b\x7d",.processing,1,0,0,some 30,none⟩ := by decide +kernel
  have hrecovered := ((h database 7 42 checked).recovers _ _ hrow rfl rfl).1
  exact absurd hrecovered (by decide +kernel)

/-- A row nobody recovers from `processing` is no trouble to the script. -/
theorem recovered_elsewhere : (∀ u ∈ database.updates, u.Checked) ∧
    StuckUpdateRecovered database 7 43 .processing :=
  ⟨checked,(stuckUpdateRecovered_iff database 7 43 .processing checked).mpr fun _ u hu => by
    have hnone : database.updates.select (7,43) = none := by decide +kernel
    simp [hnone] at hu⟩

end AbandonedUpdate

end RatatoskrTelegram
