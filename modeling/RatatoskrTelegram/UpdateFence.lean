import RatatoskrTelegram.Calls
import Mathlib.Logic.Function.Basic

/-!
# Intake workers over one table of updates

Any number of workers claim updates and settle them by their key. A statement
does not name the claim it is issued for, so a row is safe from a worker that
has lost its claim only while no such worker writes it.
-/

namespace RatatoskrTelegram

def Call.handlesUpdates : Call → Bool
  | claimUpdate _ _ | deferUpdateRetry _ _ _ | settleUpdate _ _ _ _ => true
  | _ => false

theorem AdmittedUpdate.row_checked (update : AdmittedUpdate) (now : ℤ) :
    (update.row now).Checked := by
  simp [Update.Checked,AdmittedUpdate.row]

theorem Call.updates_admitted {c : Call} (hc : c.handlesUpdates = false) (db : Database) :
    Table.Evolves (· = ·) (fun u => ∃ (update : AdmittedUpdate) (now : ℤ), u = update.row now)
      db.updates (c.apply db).updates := by
  have hrefl : Table.Evolves (· = ·)
      (fun u => ∃ (update : AdmittedUpdate) (now : ℤ), u = update.row now) db.updates db.updates :=
    .refl fun _ => rfl
  cases c with
  | recordUpdate update now =>
    refine transaction_rel (R := fun s t : Database => Table.Evolves (· = ·)
      (fun u => ∃ (update : AdmittedUpdate) (now : ℤ), u = update.row now)
      s.updates t.updates) hrefl ?_
    intro v t h
    split at h
    · simp at h
    · rename_i updates hi
      obtain ⟨-,rfl⟩ := Ending.commit.inj h
      exact hrefl.insert hi ⟨update,now,rfl⟩
  | claimUpdate _ _ => simp [Call.handlesUpdates] at hc
  | deferUpdateRetry _ _ _ => simp [Call.handlesUpdates] at hc
  | settleUpdate _ _ _ _ => simp [Call.handlesUpdates] at hc
  | _ =>
    rw [(frame _ db).updates (by simp [writes])]
    exact hrefl

theorem Call.updates_kept {c : Call} (hc : c.handlesUpdates = false) (db : Database) :
    Table.Evolves (· = ·) Update.Checked db.updates (c.apply db).updates := by
  refine (updates_admitted hc db).mono (fun _ _ h => h) ?_
  rintro _ ⟨update,now,rfl⟩
  exact update.row_checked now

/-- What a worker writes to the update it has claimed. -/
inductive UpdateWrite
  | settle (state : SettledState)
  | defer (retryAt : ℤ)
  deriving DecidableEq, Repr

namespace UpdateWrite

/-- The statement, issued by the key of the update alone. -/
def run (w : UpdateWrite) (update : PendingUpdate) (now : ℤ) :
    Database → Except PersistenceError Unit × Database :=
  match w with
  | settle state => settleUpdate update.botId update.updateId state now
  | defer retryAt => deferUpdateRetry update.botId update.updateId retryAt

def assignment (now : ℤ) : UpdateWrite → Assignment Update
  | settle state => writeState state now
  | defer retryAt => releaseUpdate retryAt

/-- The row passes the statement's filter and, written, the table's checks. -/
def Applies (now : ℤ) (u : Update) : UpdateWrite → Prop
  | settle state => ((writeState state now).set u).Checked
  | defer _ => u.state = .processing ∧ u.payload ≠ none

@[simp] theorem assignment_attemptCount (w : UpdateWrite) (now : ℤ) (u : Update) :
    ((w.assignment now).set u).attemptCount = u.attemptCount := by
  cases w <;> rfl

theorem Applies.checked {w : UpdateWrite} {now : ℤ} {u : Update} (h : w.Applies now u)
    (hu : u.Checked) : ((w.assignment now).set u).Checked := by
  cases w with
  | settle state => exact h
  | defer retryAt =>
    refine ⟨hu.1,?_,?_⟩
    · simp only [assignment,releaseUpdate_set]
      split <;> simp [h.2]
    · simp only [assignment,releaseUpdate_set]
      split <;> simp

end UpdateWrite

def PendingUpdate.key (update : PendingUpdate) : ℤ × ℤ :=
  (update.botId,update.updateId)

/-- A write fails and leaves every row, or succeeds and writes one. -/
inductive UpdateWrite.Outcome (w : UpdateWrite) (update : PendingUpdate) (now : ℤ) (db : Database) :
    Except PersistenceError Unit → Database → Prop
  | failed (e : PersistenceError) : (∀ u ∈ db.updates.select update.key, ¬ w.Applies now u) →
      Outcome w update now db (.error e) db
  | written {u : Update} {db' : Database} : db.updates.select update.key = some u →
      w.Applies now u → (∀ key, db'.updates.select key =
        if key = update.key then some ((w.assignment now).set u) else db.updates.select key) →
      Outcome w update now db (.ok ()) db'

theorem settleUpdate_outcome (update : PendingUpdate) (state : SettledState) (now : ℤ)
    (db : Database) : (UpdateWrite.settle state).Outcome update now db
      (settleUpdate update.botId update.updateId state now db).1
      (settleUpdate update.botId update.updateId state now db).2 := by
  cases hu : db.updates.select (update.botId,update.updateId) with
  | none =>
    have he : settleUpdate update.botId update.updateId state now db =
        (.error .unknownUpdate,db) := by
      simp [settleUpdate,transaction,hu]
    rw [he]
    exact .failed _ (by simp [PendingUpdate.key,hu])
  | some u =>
    by_cases hc : ((writeState state now).set u).Checked
    · have he : settleUpdate update.botId update.updateId state now db =
          (.ok (),{db with updates :=
            db.updates.update (Keyed.key · = update.key) (writeState state now)}) := by
        simp only [settleUpdate,transaction,hu,if_pos hc]
        rfl
      rw [he]
      exact .written hu hc (Table.select_update_key hu (writeState state now))
    · have he : settleUpdate update.botId update.updateId state now db =
          (.error (.query .checkViolation),db) := by
        simp only [settleUpdate,transaction,hu,if_neg hc]
      rw [he]
      refine .failed _ ?_
      intro v hv
      have hsel : some u = some v := hu.symm.trans hv
      rw [← Option.some.inj hsel]
      exact hc

theorem deferUpdateRetry_outcome (update : PendingUpdate) (retryAt now : ℤ) (db : Database) :
    (UpdateWrite.defer retryAt).Outcome update now db
      (deferUpdateRetry update.botId update.updateId retryAt db).1
      (deferUpdateRetry update.botId update.updateId retryAt db).2 := by
  by_cases ha : db.updates.any (Update.Releasable update.botId update.updateId) = true
  · have he : deferUpdateRetry update.botId update.updateId retryAt db =
        (.ok (),{db with
          updates := db.updates.update (Update.Releasable update.botId update.updateId)
            (releaseUpdate retryAt)}) := by
      simp only [deferUpdateRetry,transaction,if_pos ha]
    rw [he]
    obtain ⟨u,hu,hr⟩ := Table.any_iff.mp ha
    have hkey : Keyed.key u = update.key := by
      rw [key_update,PendingUpdate.key,hr.1,hr.2.1]
    have hsel : db.updates.select update.key = some u := hkey ▸ Table.select_of_mem hu
    refine .written hsel hr.2.2 ?_
    intro key
    simp only [Table.select_update]
    by_cases hk : key = update.key
    · subst hk
      rw [hsel,Option.map_some,if_pos hr,if_pos rfl]
      rfl
    · rw [if_neg hk]
      cases hs : db.updates.select key with
      | none => rfl
      | some v =>
        have hv : ¬ v.Releasable update.botId update.updateId := by
          intro h
          refine hk ((Table.key_of_select hs).symm.trans ?_)
          rw [key_update,PendingUpdate.key,h.1,h.2.1]
        rw [Option.map_some,if_neg hv]
  · have he : deferUpdateRetry update.botId update.updateId retryAt db =
        (.error .unknownUpdate,db) := by
      simp only [deferUpdateRetry,transaction,if_neg ha]
    rw [he]
    refine .failed _ ?_
    intro u hu happ
    have hkey := Table.key_of_select hu
    simp only [key_update,PendingUpdate.key,Prod.mk.injEq] at hkey
    exact ha (Table.any_iff.mpr ⟨u,Table.mem_of_select hu,hkey.1,hkey.2,happ⟩)

theorem UpdateWrite.run_outcome (w : UpdateWrite) (update : PendingUpdate) (now : ℤ)
    (db : Database) :
    w.Outcome update now db (w.run update now db).1 (w.run update now db).2 := by
  cases w with
  | settle state => exact settleUpdate_outcome update state now db
  | defer retryAt => exact deferUpdateRetry_outcome update retryAt now db

/-- Where a worker stands with the update it has claimed. -/
inductive WorkerStage
  | claimed
  | processing
  | unsettled
  deriving DecidableEq, Repr

/-- The `attempt` is the attempt count the worker's claim has written; no statement names it. -/
inductive Worker
  | idle
  | working (update : PendingUpdate) (attempt : ℤ) (stage : WorkerStage)
  deriving DecidableEq, Repr

/-- What a worker sees of its statement. On a lost connection it may have committed or not. -/
inductive Reply
  | answered
  | lost (committed : Bool)
  deriving DecidableEq, Repr

/-- The writes of `process_one_with_recovery`: where a success and a failure leave the worker,
`none` for idle. -/
def WorkerStage.next : WorkerStage → UpdateWrite → Option (Option WorkerStage × Option WorkerStage)
  | .claimed, .settle .processing => some (some .processing,none)
  -- the stored payload cannot be parsed
  | .claimed, .settle .failed => some (none,none)
  | .processing, .settle _ => some (none,some .unsettled)
  | .processing, .defer _ => some (none,none)
  | .unsettled, .settle .failed => some (none,none)
  | _, _ => none

structure Intake where
  database : Database
  clock : ℤ
  workers : ℕ → Worker

/-- One step of the system; `i` is the worker that takes it. -/
inductive IntakeAction
  | tick (secs : ℕ)
  | call (c : Call)
  | claim (i : ℕ) (locked : Finset (ℤ × ℤ))
  | write (i : ℕ) (w : UpdateWrite) (reply : Reply)
  | crash (i : ℕ)

namespace Intake

def initial : Intake := ⟨Database.fresh,0,fun _ => .idle⟩

def row (s : Intake) (key : ℤ × ℤ) : Option Update :=
  s.database.updates.select key

def standing (update : PendingUpdate) (attempt : ℤ) : Option WorkerStage → Worker
  | some stage => .working update attempt stage
  | none => .idle

/-- What has become of the database and of the worker once the statement is over. -/
def issue (s : Intake) (i : ℕ) (statement : Database → Except PersistenceError Unit × Database)
    (reply : Reply) (succeeded failed : Worker) : Intake :=
  match reply with
  | .lost false => {s with workers := Function.update s.workers i failed}
  | .lost true => {s with
      database := (statement s.database).2
      workers := Function.update s.workers i failed}
  | .answered => {s with
      database := (statement s.database).2
      workers := Function.update s.workers i
        (match (statement s.database).1 with
        | .ok _ => succeeded
        | .error _ => failed)}

def step (s : Intake) : IntakeAction → Option Intake
  | .tick secs => some {s with clock := s.clock + secs}
  | .call c =>
    if c.handlesUpdates = false then some {s with database := c.apply s.database} else none
  | .claim i locked =>
    match s.workers i, pendingUpdate locked s.clock s.database.updates with
    | .idle, some u =>
      some {s with
        database := (claimUpdate locked s.clock s.database).2
        workers := Function.update s.workers i
          (match (claimUpdate locked s.clock s.database).1 with
          | some update => .working update (u.attemptCount + 1) .claimed
          | none => .idle)}
    | .idle, none => some s
    | _, _ => none
  | .write i w reply =>
    match s.workers i with
    | .working update attempt stage => (stage.next w).map fun stages =>
        s.issue i (w.run update s.clock) reply (standing update attempt stages.1)
          (standing update attempt stages.2)
    | .idle => none
  | .crash i => some {s with workers := Function.update s.workers i .idle}

end Intake

def UpdateState.isSettled : UpdateState → Bool
  | processed | unsupported | failed | denied => true
  | accepted | processing | recoveryRequired => false

/-- The row is still under that claim where the write would touch it, and the last resort does not
follow a settlement that has committed after all. -/
def UpdateWrite.Fits (attempt : ℤ) (stage : WorkerStage) (u : Update) : UpdateWrite → Prop
  | .settle .processing => u.attemptCount = attempt ∨ u.state.isSettled = true
  | .settle _ => u.attemptCount = attempt ∧ (stage = .unsettled → u.state.isSettled = false)
  | .defer _ => u.state = .processing → u.attemptCount = attempt

instance (attempt : ℤ) (stage : WorkerStage) (u : Update) (w : UpdateWrite) :
    Decidable (w.Fits attempt stage u) := by
  unfold UpdateWrite.Fits
  split <;> infer_instance

namespace Intake

/-- No later claim has taken over the update a worker writes. -/
def WritesFit (s : Intake) : IntakeAction → Prop
  | .write i w _ =>
    match s.workers i with
    | .working update attempt stage => ∀ u ∈ s.row update.key, w.Fits attempt stage u
    | .idle => True
  | _ => True

instance (s : Intake) (a : IntakeAction) : Decidable (s.WritesFit a) := by
  induction a using IntakeAction.casesOn with
  | write i w reply =>
    show Decidable (match s.workers i with | .working update attempt stage => _ | .idle => _)
    induction s.workers i using Worker.casesOn <;> infer_instance
  | _ => exact instDecidableTrue

/-- What a step leaves unchanged: the row a superseded claim is written for, every settled row, and
what a worker holds from the writes of another. -/
structure FencedStep (s : Intake) (a : IntakeAction) (t : Intake) : Prop where
  superseded : ∀ {i : ℕ} {w : UpdateWrite} {reply : Reply} {update : PendingUpdate} {attempt : ℤ}
    {stage : WorkerStage} {u : Update}, a = .write i w reply →
    s.workers i = .working update attempt stage → s.row update.key = some u →
    attempt < u.attemptCount → t.row update.key = some u
  settled : ∀ {key : ℤ × ℤ} {u : Update}, s.row key = some u → u.state.isSettled = true →
    t.row key = some u
  held : ∀ {i k : ℕ} {w : UpdateWrite} {reply : Reply} {update : PendingUpdate}
    {stage : WorkerStage} {u : Update}, a = .write i w reply → k ≠ i →
    s.row update.key = some u → s.workers k = .working update u.attemptCount stage →
    u.state = .processing → t.row update.key = some u

def Fenced (step : Intake → IntakeAction → Intake → Prop) : Prop :=
  ∀ {tr : List IntakeAction} {s t : Intake} {a : IntakeAction}, Run step initial tr s →
    step s a t → FencedStep s a t

/-- What one step can do, with the guards that led there. -/
inductive Steps (s : Intake) : IntakeAction → Intake → Prop
  | ticked (secs : ℕ) : Steps s (.tick secs) {s with clock := s.clock + secs}
  | called {c : Call} : c.handlesUpdates = false →
      Steps s (.call c) {s with database := c.apply s.database}
  | vacant {i : ℕ} {locked : Finset (ℤ × ℤ)} : Steps s (.claim i locked) s
  | claimed {i : ℕ} {locked : Finset (ℤ × ℤ)} {u : Update} {update : PendingUpdate}
      {database : Database} : u ∈ s.database.updates → u.Eligible s.clock →
      update.key = Keyed.key u →
      database = {s.database with
        updates := s.database.updates.update (Keyed.key · = Keyed.key u) (takeUpdate s.clock)} →
      Steps s (.claim i locked) {s with
        database := database
        workers := Function.update s.workers i (.working update (u.attemptCount + 1) .claimed)}
  | wrote {i : ℕ} {w : UpdateWrite} {reply : Reply} {update : PendingUpdate} {attempt : ℤ}
      {stage : WorkerStage} {succeeded failed : Option WorkerStage} :
      s.workers i = .working update attempt stage → stage.next w = some (succeeded,failed) →
      Steps s (.write i w reply) (s.issue i (w.run update s.clock) reply
        (standing update attempt succeeded) (standing update attempt failed))
  | crashed (i : ℕ) : Steps s (.crash i) {s with workers := Function.update s.workers i .idle}

theorem steps_of_step {s t : Intake} {a : IntakeAction} (h : step s a = some t) : Steps s a t := by
  cases a with
  | tick secs =>
    obtain rfl := Option.some.inj h
    exact .ticked secs
  | call c =>
    simp only [step] at h
    split at h
    · rename_i hc
      obtain rfl := Option.some.inj h
      exact .called hc
    · simp at h
  | claim i locked =>
    simp only [step] at h
    split at h
    · rename_i u hi hu
      obtain rfl := Option.some.inj h
      obtain ⟨hmem,helig,_⟩ := pendingUpdate_eq_some hu
      obtain ⟨payload,hp⟩ := Option.ne_none_iff_exists'.mp helig.1
      simp only [claimUpdate,hu,hp,Option.map_some]
      exact .claimed hmem helig rfl rfl
    · obtain rfl := Option.some.inj h
      exact .vacant
    · simp at h
  | write i w reply =>
    simp only [step] at h
    split at h
    · rename_i update attempt stage hi
      obtain ⟨⟨succeeded,failed⟩,hnext,rfl⟩ := Option.map_eq_some_iff.mp h
      exact .wrote hi hnext
    · simp at h
  | crash i =>
    obtain rfl := Option.some.inj h
    exact .crashed i

inductive Issued (s : Intake) (i : ℕ) (w : UpdateWrite) (update : PendingUpdate)
    (succeeded failed : Worker) (t : Intake) : Prop
  | kept : (∀ key, t.row key = s.row key) → t.workers = Function.update s.workers i failed →
      Issued s i w update succeeded failed t
  | written {u : Update} {worker : Worker} : s.row update.key = some u → w.Applies s.clock u →
      (∀ key, t.row key =
        if key = update.key then some ((w.assignment s.clock).set u) else s.row key) →
      t.workers = Function.update s.workers i worker → worker = succeeded ∨ worker = failed →
      Issued s i w update succeeded failed t

theorem issue_issued (s : Intake) (i : ℕ) (w : UpdateWrite) (update : PendingUpdate) (reply : Reply)
    (succeeded failed : Worker) : Issued s i w update succeeded failed
      (s.issue i (w.run update s.clock) reply succeeded failed) := by
  have h := w.run_outcome update s.clock s.database
  generalize he : w.run update s.clock s.database = r at h
  obtain ⟨r,db⟩ := r
  cases reply with
  | answered =>
    simp only [issue,he]
    cases h with
    | failed e _ => exact .kept (fun _ => rfl) rfl
    | written hu happ hrows => exact .written hu happ hrows rfl (Or.inl rfl)
  | lost committed =>
    cases committed with
    | false => exact .kept (fun _ => rfl) rfl
    | true =>
      simp only [issue,he]
      cases h with
      | failed e _ => exact .kept (fun _ => rfl) rfl
      | written hu happ hrows => exact .written hu happ hrows rfl (Or.inr rfl)

end Intake

/-- A write that fits and takes effect is made under the latest claim. -/
theorem UpdateWrite.Fits.current {w : UpdateWrite} {attempt now : ℤ} {stage : WorkerStage}
    {u : Update} (h : w.Fits attempt stage u) (happ : w.Applies now u) (hu : u.Checked) :
    u.attemptCount = attempt ∧ (stage = .unsettled → u.state.isSettled = false) := by
  have hpayload (hs : u.state.isSettled = true) : u.payload = none := by
    have hpayload := hu.2.1
    by_contra hp
    rcases hpayload.mpr hp with hs' | hs' | hs' <;> simp [hs',UpdateState.isSettled] at hs
  cases w with
  | settle state =>
    cases state with
    | processing =>
      have hopen : u.state.isSettled = false := by
        by_contra hs
        have happ' := (UpdateWrite.Applies.checked happ hu).2.1.mp (Or.inr (Or.inl rfl))
        exact happ' (hpayload (by simpa using hs))
      refine ⟨h.resolve_right ?_,fun _ => hopen⟩
      simp [hopen]
    | _ => exact h
  | defer retryAt =>
    refine ⟨h happ.1,fun _ => ?_⟩
    rw [happ.1]
    rfl

theorem WorkerStage.next_cases {stage : WorkerStage} {w : UpdateWrite}
    {succeeded failed : Option WorkerStage} (h : stage.next w = some (succeeded,failed)) :
    (succeeded = none ∨ (succeeded = some .processing ∧ w = .settle .processing)) ∧
      (failed = none ∨ failed = some .unsettled) := by
  unfold WorkerStage.next at h
  split at h <;> simp at h <;> obtain ⟨rfl,rfl⟩ := h <;> simp

namespace Intake

theorem standing_eq_working {update update' : PendingUpdate} {attempt attempt' : ℤ}
    {place : Option WorkerStage} {stage : WorkerStage}
    (h : standing update attempt place = .working update' attempt' stage) :
    update' = update ∧ attempt' = attempt ∧ place = some stage := by
  cases place with
  | none => simp [standing] at h
  | some stage' =>
    obtain ⟨rfl,rfl,rfl⟩ := Worker.working.inj h
    exact ⟨rfl,rfl,rfl⟩

/-- The update of a claim is stored with at least its attempt, and with exactly its attempt only
while it is processing. -/
def Backed (s : Intake) (update : PendingUpdate) (attempt : ℤ) (stage : WorkerStage) : Prop :=
  ∃ u, s.row update.key = some u ∧ attempt ≤ u.attemptCount ∧
    (attempt = u.attemptCount → stage ≠ .unsettled → u.state = .processing)

structure Claims (s : Intake) : Prop where
  checked : ∀ u ∈ s.database.updates, u.Checked
  backed : ∀ {i : ℕ} {update : PendingUpdate} {attempt : ℤ} {stage : WorkerStage},
    s.workers i = .working update attempt stage → s.Backed update attempt stage
  unique : ∀ {i k : ℕ} {update update' : PendingUpdate} {attempt : ℤ} {stage stage' : WorkerStage},
    s.workers i = .working update attempt stage → s.workers k = .working update' attempt stage' →
    update.key = update'.key → i = k

namespace Claims

variable {s t : Intake} {a : IntakeAction}

theorem initial : Claims initial where
  checked u hu := absurd hu (Table.not_mem_empty u)
  backed hi := by simp [Intake.initial] at hi
  unique hi := by simp [Intake.initial] at hi

theorem checked_row (h : s.Claims) {key : ℤ × ℤ} {u : Update} (hu : s.row key = some u) :
    u.Checked :=
  h.checked u (Table.mem_of_select hu)

theorem called (h : s.Claims) {c : Call} (hc : c.handlesUpdates = false) :
    Claims {s with database := c.apply s.database} where
  checked := by
    refine (Call.updates_kept hc s.database).forall_mem h.checked ?_ fun _ hu => hu
    rintro u _ hu rfl
    exact hu
  backed hi := by
    obtain ⟨u,hu,hrest⟩ := h.backed hi
    obtain ⟨_,hu',rfl⟩ := (Call.updates_kept hc s.database).kept hu
    exact ⟨u,hu',hrest⟩
  unique := h.unique

theorem update (h : s.Claims) {i : ℕ} {worker : Worker}
    (hw : t.workers = Function.update s.workers i worker)
    (hchecked : ∀ u ∈ t.database.updates, u.Checked)
    (hothers : ∀ {k : ℕ} {update : PendingUpdate} {attempt : ℤ} {stage : WorkerStage}, k ≠ i →
      s.workers k = .working update attempt stage → t.Backed update attempt stage)
    (hself : ∀ {update : PendingUpdate} {attempt : ℤ} {stage : WorkerStage},
      worker = .working update attempt stage → t.Backed update attempt stage ∧
        ∀ {k : ℕ} {update' : PendingUpdate} {stage' : WorkerStage}, k ≠ i →
          s.workers k = .working update' attempt stage' → update'.key ≠ update.key) :
    t.Claims where
  checked := hchecked
  backed {k update attempt stage} hk := by
    rw [hw] at hk
    by_cases hki : k = i
    · subst hki
      rw [Function.update_self] at hk
      exact (hself hk).1
    · rw [Function.update_of_ne hki] at hk
      exact hothers hki hk
  unique {k l update update' attempt stage stage'} hk hl hkey := by
    rw [hw] at hk hl
    by_cases hki : k = i
    · by_cases hli : l = i
      · rw [hki,hli]
      · subst hki
        rw [Function.update_self] at hk
        rw [Function.update_of_ne hli] at hl
        exact absurd hkey.symm ((hself hk).2 hli hl)
    · rw [Function.update_of_ne hki] at hk
      by_cases hli : l = i
      · subst hli
        rw [Function.update_self] at hl
        exact absurd hkey ((hself hl).2 hki hk)
      · rw [Function.update_of_ne hli] at hl
        exact h.unique hk hl hkey

theorem crashed (h : s.Claims) (i : ℕ) :
    Claims {s with workers := Function.update s.workers i .idle} :=
  h.update rfl h.checked (fun _ hk => h.backed hk) (by simp)

theorem checked_of_rows (h : s.Claims) {key : ℤ × ℤ} {v : Update}
    (hrows : ∀ k, t.row k = if k = key then some v else s.row k) (hv : v.Checked) :
    ∀ u ∈ t.database.updates, u.Checked := by
  intro u hu
  have hsel : t.row (Keyed.key u) = some u := Table.select_of_mem hu
  rw [hrows] at hsel
  split at hsel
  · obtain rfl := Option.some.inj hsel
    exact hv
  · exact h.checked_row hsel

theorem claimed (h : s.Claims) {i : ℕ} {u : Update} {update : PendingUpdate}
    (hu : s.row update.key = some u) (helig : u.Eligible s.clock)
    (hrows : ∀ k, t.row k = if k = update.key then some ((takeUpdate s.clock).set u) else s.row k)
    (hw : t.workers = Function.update s.workers i (.working update (u.attemptCount + 1) .claimed)) :
    t.Claims := by
  refine h.update hw (h.checked_of_rows hrows ?_) ?_ ?_
  · have hc := h.checked_row hu
    have hpos := hc.1
    refine ⟨?_,by simp [helig.1],by simp⟩
    show 0 ≤ u.attemptCount + 1
    omega
  · intro k update' attempt stage _ hk
    obtain ⟨v,hv,hle,hstate⟩ := h.backed hk
    by_cases hkey : update'.key = update.key
    · refine ⟨_,by rw [hrows,if_pos hkey],?_⟩
      obtain rfl := Option.some.inj (hu.symm.trans (hkey ▸ hv))
      simp only [takeUpdate_set]
      exact ⟨by omega,fun _ _ => trivial⟩
    · exact ⟨v,by rw [hrows,if_neg hkey,hv],hle,hstate⟩
  · intro update' attempt stage he
    obtain ⟨rfl,rfl,rfl⟩ := Worker.working.inj he
    refine ⟨⟨_,by rw [hrows,if_pos rfl],le_rfl,fun _ _ => rfl⟩,?_⟩
    intro k update' stage' _ hk hkey
    obtain ⟨v,hv,hle,_⟩ := h.backed hk
    obtain rfl := Option.some.inj (hu.symm.trans (hkey ▸ hv))
    omega

theorem wrote (h : s.Claims) {i : ℕ} {w : UpdateWrite} {update : PendingUpdate} {attempt : ℤ}
    {stage : WorkerStage} {succeeded failed : Option WorkerStage}
    (hi : s.workers i = .working update attempt stage)
    (hnext : stage.next w = some (succeeded,failed))
    (hfits : ∀ u ∈ s.row update.key, w.Fits attempt stage u)
    (hissued : Issued s i w update (standing update attempt succeeded)
      (standing update attempt failed) t) : t.Claims := by
  obtain ⟨hsucceeded,hfailed⟩ := WorkerStage.next_cases hnext
  have hother {k : ℕ} {update' : PendingUpdate} {stage' : WorkerStage} (hk : k ≠ i)
      (hw : s.workers k = .working update' attempt stage') : update'.key ≠ update.key :=
    fun hkey => hk (h.unique hw hi hkey)
  cases hissued with
  | kept hrows hw =>
    have hbacked {update' : PendingUpdate} {attempt' : ℤ} {stage' : WorkerStage}
        (hb : s.Backed update' attempt' stage') : t.Backed update' attempt' stage' := by
      simpa [Backed,hrows] using hb
    refine h.update hw ?_ (fun _ hk => hbacked (h.backed hk)) ?_
    · intro u hu
      have hsel : t.row (Keyed.key u) = some u := Table.select_of_mem hu
      exact h.checked_row ((hrows _).symm.trans hsel)
    · intro update' attempt' stage' he
      obtain ⟨rfl,rfl,hplace⟩ := standing_eq_working he
      obtain ⟨u,hu,hle,_⟩ := h.backed hi
      rcases hfailed with rfl | rfl
      · simp at hplace
      · obtain rfl := Option.some.inj hplace
        exact ⟨hbacked ⟨u,hu,hle,by simp⟩,hother⟩
  | @written u worker hu happ hrows hw hworker =>
    have hchecked := h.checked_row hu
    obtain ⟨hattempt,_⟩ := (hfits u hu).current happ hchecked
    refine h.update hw (h.checked_of_rows hrows (happ.checked hchecked)) ?_ ?_
    · intro k update' attempt' stage' hk hworking
      obtain ⟨v,hv,hle,hstate⟩ := h.backed hworking
      by_cases hkey : update'.key = update.key
      · refine ⟨_,by rw [hrows,if_pos hkey],?_⟩
        obtain rfl := Option.some.inj (hu.symm.trans (hkey ▸ hv))
        rw [UpdateWrite.assignment_attemptCount]
        refine ⟨hle,fun he => ?_⟩
        obtain rfl : attempt' = attempt := he.trans hattempt
        exact absurd hkey (hother hk hworking)
      · exact ⟨v,by rw [hrows,if_neg hkey,hv],hle,hstate⟩
    · intro update' attempt' stage' he
      have hplace : update' = update ∧ attempt' = attempt ∧
          (some stage' = succeeded ∨ some stage' = failed) := by
        rcases hworker with rfl | rfl
        · obtain ⟨hup,hat,hplace⟩ := standing_eq_working he
          exact ⟨hup,hat,Or.inl hplace.symm⟩
        · obtain ⟨hup,hat,hplace⟩ := standing_eq_working he
          exact ⟨hup,hat,Or.inr hplace.symm⟩
      obtain ⟨rfl,rfl,hplace⟩ := hplace
      refine ⟨⟨_,by rw [hrows,if_pos rfl],?_,?_⟩,hother⟩
      · rw [UpdateWrite.assignment_attemptCount,hattempt]
      · intro _ hstage
        rcases hplace with hplace | hplace
        · rcases hsucceeded with rfl | ⟨rfl,rfl⟩
          · simp at hplace
          · rfl
        · rcases hfailed with rfl | rfl
          · simp at hplace
          · exact absurd (Option.some.inj hplace) hstage

theorem step (h : s.Claims) (hs : Steps s a t) (hfits : s.WritesFit a) : t.Claims := by
  cases hs with
  | ticked secs => exact ⟨h.checked,h.backed,h.unique⟩
  | called hc => exact h.called hc
  | vacant => exact h
  | claimed hu helig hkey hdb =>
    have hsel := Table.select_of_mem hu
    refine h.claimed (hkey ▸ hsel) helig ?_ rfl
    intro k
    rw [hkey,hdb]
    exact Table.select_update_key hsel (takeUpdate s.clock) k
  | wrote hi hnext =>
    simp only [WritesFit,hi] at hfits
    exact h.wrote hi hnext hfits (issue_issued _ _ _ _ _ _ _)
  | crashed i => exact h.crashed i

/-- A write that takes effect is the work of the one worker that holds the update. -/
theorem holder_of_written (h : s.Claims) {i : ℕ} {w : UpdateWrite} {update : PendingUpdate}
    {attempt : ℤ} {stage : WorkerStage} {u : Update}
    (hi : s.workers i = .working update attempt stage)
    (hfits : ∀ u ∈ s.row update.key, w.Fits attempt stage u) (hu : s.row update.key = some u)
    (happ : w.Applies s.clock u) :
    u.attemptCount = attempt ∧ u.state.isSettled = false ∧
      ∀ {k : ℕ} {update' : PendingUpdate} {stage' : WorkerStage}, update'.key = update.key →
        s.workers k = .working update' u.attemptCount stage' → k = i := by
  obtain ⟨rfl,hopen⟩ := (hfits u hu).current happ (h.checked_row hu)
  refine ⟨rfl,?_,fun hkey hk => h.unique hk hi hkey⟩
  by_cases hstage : stage = .unsettled
  · exact hopen hstage
  · obtain ⟨v,hv,_,hstate⟩ := h.backed hi
    obtain rfl := Option.some.inj (hu.symm.trans hv)
    rw [hstate rfl hstage]
    rfl

theorem fencedStep (h : s.Claims) (hs : Steps s a t) (hfits : s.WritesFit a) : FencedStep s a t := by
  cases hs with
  | ticked secs => exact ⟨by simp,fun hu _ => hu,by simp⟩
  | called hc =>
    refine ⟨by simp,?_,by simp⟩
    intro key u hu _
    obtain ⟨_,hu',rfl⟩ := (Call.updates_kept hc s.database).kept hu
    exact hu'
  | vacant => exact ⟨by simp,fun hu _ => hu,by simp⟩
  | @claimed i locked u update database hmem helig hkey hdb =>
    refine ⟨by simp,?_,by simp⟩
    intro key v hv hsettled
    have hsel := Table.select_of_mem hmem
    show database.updates.select key = some v
    rw [hdb]
    refine (Table.select_update_key hsel (takeUpdate s.clock) key).trans ?_
    split
    · rename_i hk
      obtain rfl := Option.some.inj (hsel.symm.trans (hk ▸ hv))
      rcases helig.2 with ⟨he,_⟩ | ⟨he,_⟩ <;> simp [he,UpdateState.isSettled] at hsettled
    · exact hv
  | @wrote i w reply update attempt stage succeeded failed hi hnext =>
    simp only [WritesFit,hi] at hfits
    cases issue_issued s i w update reply (standing update attempt succeeded)
      (standing update attempt failed) with
    | kept hrows _ =>
      exact ⟨fun _ _ hu _ => (hrows _).trans hu,fun hu _ => (hrows _).trans hu,
        fun _ _ hu _ _ => (hrows _).trans hu⟩
    | @written u _ hu happ hrows _ _ =>
      obtain ⟨hattempt,hopen,hholder⟩ := h.holder_of_written hi hfits hu happ
      refine ⟨?_,?_,?_⟩
      · intro i' w' reply' update' attempt' stage' v he hi' hv hlt
        cases he
        obtain ⟨rfl,rfl,rfl⟩ := Worker.working.inj (hi.symm.trans hi')
        obtain rfl := Option.some.inj (hu.symm.trans hv)
        omega
      · intro key v hv hsettled
        rw [hrows]
        split
        · rename_i hk
          obtain rfl := Option.some.inj (hu.symm.trans (hk ▸ hv))
          rw [hopen] at hsettled
          simp at hsettled
        · exact hv
      · intro i' k w' reply' update' stage' v he hk hv hworking _
        cases he
        rw [hrows]
        split
        · rename_i hkey
          obtain rfl := Option.some.inj (hu.symm.trans (hkey ▸ hv))
          exact absurd (hholder hkey hworking) hk
        · exact hv
  | crashed i => exact ⟨by simp,fun hu _ => hu,by simp⟩

end Claims

abbrev FitStep (s : Intake) (a : IntakeAction) (t : Intake) : Prop :=
  step s a = some t ∧ s.WritesFit a

/-- In every run without a write for a claim that is lost, every step is fenced. -/
theorem updates_fenced {tr : List IntakeAction} {s t : Intake} {a : IntakeAction}
    (hrun : Run FitStep initial tr s) (hstep : FitStep s a t) : FencedStep s a t := by
  have hclaims : s.Claims := by
    refine hrun.invariant (P := Claims) .initial ?_
    rintro v b w hv ⟨hs,hfits⟩
    exact hv.step (steps_of_step hs) hfits
  exact hclaims.fencedStep (steps_of_step hstep.1) hstep.2

namespace SlowWorker

def update : AdmittedUpdate := ⟨7,1,"message","hello"⟩

/-- A worker claims the update and enters processing. -/
def claiming (i : ℕ) : List IntakeAction :=
  [.claim i ∅,.write i (.settle .processing) .answered]

/-- The first worker is slower than its lease, and the second one settles the update. -/
def overtaken : List IntakeAction :=
  [IntakeAction.call (.recordUpdate update 0)] ++ claiming 0 ++ [IntakeAction.tick 30] ++
    claiming 1 ++ [IntakeAction.write 1 (.settle .processed) .answered]

/-- The first worker's settlement overwrites the second one's. -/
theorem settlement_overwritten : ¬ Fenced (fun s a t => step s a = some t) := by
  intro h
  obtain ⟨s,hs,hrow,hnext⟩ : ∃ s, Run (fun v a w => step v a = some w) initial overtaken s ∧
      (∃ u ∈ s.row (7,1), u.state = .processed) ∧
      (step s (.write 0 (.settle .failed) .answered)).any (fun t =>
        (∃ u ∈ t.row (7,1), u.state = .failed)) = true :=
    exists_run_of_replay (by decide +kernel)
  obtain ⟨u,hu,hstate⟩ := hrow
  obtain ⟨t,ht,hfailed⟩ := (Option.any_eq_true _ _).mp hnext
  obtain ⟨v,hv,hfailed⟩ := of_decide_eq_true hfailed
  have hkept := (h hs ht).settled hu (by simp [hstate,UpdateState.isSettled])
  obtain rfl := Option.some.inj (hkept.symm.trans hv)
  rw [hstate] at hfailed
  simp at hfailed

def taken : List IntakeAction :=
  [IntakeAction.call (.recordUpdate update 0)] ++ claiming 0 ++ [IntakeAction.crash 0,.tick 30] ++
    claiming 1 ++ [IntakeAction.write 1 (.settle .processed) .answered]

theorem settlement_kept : ∃ s t u, Run FitStep initial taken s ∧ FitStep s (.claim 0 ∅) t ∧
    s.row (7,1) = some u ∧ u.state = .processed ∧ t.row (7,1) = some u := by
  obtain ⟨s,hs,⟨u,hu,hstate⟩,hnext⟩ : ∃ s, Run FitStep initial taken s ∧
      (∃ u ∈ s.row (7,1), u.state = .processed) ∧ (step s (.claim 0 ∅)).isSome = true :=
    exists_run_of_guarded (by decide +kernel)
  obtain ⟨t,ht⟩ := Option.isSome_iff_exists.mp hnext
  have hfit : FitStep s (.claim 0 ∅) t := ⟨ht,trivial⟩
  have hkept := (updates_fenced hs hfit).settled hu (by simp [hstate,UpdateState.isSettled])
  exact ⟨s,t,u,hs,hfit,hu,hstate,hkept⟩

end SlowWorker

end Intake

end RatatoskrTelegram
