import RatatoskrTelegram.RepositoryRelease

/-!
# How long a released confirmation stays recoverable

A confirmation is presented again through its consumed token and its submitting
dialogue. A cleanup pass takes the one once its batch reaches it, and the other
once it is overdue as well; a pass that takes neither leaves both rows alone.
-/

namespace RatatoskrTelegram

/-- The arguments of one cleanup pass, and the rows other transactions hold during it. -/
structure CleanupPass where
  lockedDialogues : Finset Uuid
  lockedTokens : Finset Token
  now : ℤ
  terminalBefore : ℤ
  batchSize : ℕ
  deriving DecidableEq

namespace CleanupPass

def run (pass : CleanupPass) (db : Database) : Database :=
  (cleanupInteractions pass.lockedDialogues pass.lockedTokens pass.now pass.terminalBefore
    pass.batchSize db).2

def expired (pass : CleanupPass) (db : Database) : List Uuid :=
  expiryBatch pass.lockedDialogues pass.now pass.batchSize db.dialogStates

def afterExpiry (pass : CleanupPass) (db : Database) : Table DialogState :=
  db.dialogStates.update (·.id ∈ pass.expired db) (expireDialogue pass.now)

/-- The pass reaches neither row: the token is held or its batch is full before it, and the
dialogue is not due, is held, or its batch is full before it. -/
structure Spares (pass : CleanupPass) (row : LockedCallbackRow) (db : Database) : Prop where
  token : row.token.token ∈ pass.lockedTokens ∨ pass.batchSize ≤ db.interactionTokens.rank
    (fun t => Removable (pass.afterExpiry db) db.messageBindings pass.now t ∧
      t.token ∉ pass.lockedTokens)
    (Table.Before InteractionToken.expiresAt fun t => t.token.text) row.token
  dialogue : Overdue pass.now row.dialogue → row.dialogue.id ∈ pass.lockedDialogues ∨
    pass.batchSize ≤ db.dialogStates.rank
      (fun d => Overdue pass.now d ∧ d.id ∉ pass.lockedDialogues)
      (Table.Before DialogState.expiresAt DialogState.id) row.dialogue

end CleanupPass

def cleanupPasses : List CleanupPass → Database → Database
  | [], db => db
  | pass :: rest, db => cleanupPasses rest (pass.run db)

def SparedBy (row : LockedCallbackRow) : List CleanupPass → Database → Prop
  | [], _ => True
  | pass :: rest, db => pass.Spares row db ∧ SparedBy row rest (pass.run db)

/-- An update has released the action of a dialogue that is not completed yet. -/
def Submitted (update : ReleasingUpdate) (action : ConfirmedAction) (db : Database) : Prop :=
  ∃ d, db.dialogStates.select action.dialogueId = some d ∧ d.step = .submitting ∧
    d.lifecycle = .active ∧ d.ReleasedBy update ∧ confirmedAction d = .ok action

/-- The completion of the dialogue by that update commits for every fitting result job. -/
def Completable (update : ReleasingUpdate) (dialogueId : Uuid) (db : Database) : Prop :=
  ∃ d, db.dialogStates.select dialogueId = some d ∧
    ∀ (result : Option Json) (jobId : Uuid) (job : NewOutboundJob) (now : ℤ),
      ResultJob d job → db.outboundJobs.select jobId = none →
      (completeRepositoryDialogueProjection dialogueId update result jobId job now db).1 =
        .ok .completed

/-- The stored rows from which the presentation is answered again with the action. -/
structure Redeemable (p : CallbackPresentation) (action : ConfirmedAction)
    (row : LockedCallbackRow) (db : Database) : Prop where
  locked : lockRepositoryCallback p.token db = some row
  recoverable : Recoverable row p
  action : confirmedAction row.dialogue = .ok action

section Redeemable

variable {p : CallbackPresentation} {action : ConfirmedAction} {row : LockedCallbackRow}
  {db : Database}

theorem Redeemable.confirms (h : Redeemable p action row db) (now : ℤ) :
    Confirms p now action db := by
  have hr := h.recoverable
  have hguard : row.token.action = .confirm ∧ recoveryScopeValid row p = true ∧
      row.dialogue.ReleasedBy p.update := ⟨hr.action,hr.scope,hr.releasedBy⟩
  unfold Confirms consumeRepositoryDecision transaction
  simp [h.locked,hr.consumed,recoverConsumedConfirmation,hguard,hr.step,hr.active,h.action]

theorem Redeemable.completable (h : Redeemable p action row db) :
    Completable p.update action.dialogueId db := by
  have hr := h.recoverable
  have hd := (lockRepositoryCallback_eq_some h.locked).2.2.2.2
  rw [confirmedAction_dialogueId h.action]
  refine ⟨row.dialogue,hd,?_⟩
  intro result jobId job now hjob hid
  have hins : db.outboundJobs.insert (job.row jobId now) ≠ none := by
    rw [ne_eq,Table.insert_eq_none]
    simpa [NewOutboundJob.row] using hid
  cases hi : db.outboundJobs.insert (job.row jobId now) with
  | none => exact absurd hi hins
  | some jobs =>
    have hfilter : (db.dialogStates.select row.dialogue.id).filter
        (fun d => d.ReleasedBy p.update) = some row.dialogue := by
      simp [hd,Option.filter,hr.releasedBy]
    unfold completeRepositoryDialogueProjection transaction
    simp [hfilter,hr.step,hr.active,hjob,insertOutboundJob_unrevised hjob.2.2.2.2.1,hi]

/-- A presentation that confirms a submitted dialogue is answered from redeemable rows. -/
theorem redeemable_of_confirms {d : DialogState} {now : ℤ} (h : Confirms p now action db)
    (hd : db.dialogStates.select action.dialogueId = some d) (hs : d.step = .submitting) :
    ∃ row, Redeemable p action row db := by
  obtain ⟨r,t,he,hstep⟩ := consumeRepositoryDecision_step p now db
  unfold Confirms at h
  rw [he] at h
  cases hstep with
  | failed e => simp at h
  | refused refusal => simp at h
  | expired _ _ => simp at h
  | alreadyCompleted => simp at h
  | cancelled _ _ _ => simp at h
  | @recovered row a hl hr ha =>
    obtain rfl : a = action := by simpa using h
    exact ⟨row,hl,hr,ha⟩
  | @released row a hl hadm _ ha =>
    obtain rfl : a = action := by simpa using h
    have hrow := (lockRepositoryCallback_eq_some hl).2.2.2.2
    rw [confirmedAction_dialogueId ha,hrow] at hd
    obtain rfl := Option.some.inj hd
    simp [hadm.step] at hs

end Redeemable

namespace CleanupPass

variable {pass : CleanupPass} {db : Database}

theorem mem_run_tokens {t : InteractionToken} :
    t ∈ (pass.run db).interactionTokens ↔ t ∈ db.interactionTokens ∧
      t.token ∉ tokenBatch pass.lockedTokens pass.now pass.batchSize (pass.afterExpiry db)
        db.messageBindings db.interactionTokens :=
  Table.mem_delete

theorem select_run_dialogue {k : Uuid} {e : DialogState}
    (h : (pass.run db).dialogStates.select k = some e) :
    ∃ d, db.dialogStates.select k = some d ∧ e.step = d.step ∧
      (e.lifecycle = .active → e = d ∧ d.id ∉ pass.expired db) := by
  simp only [run,cleanupInteractions,Table.select_delete,Table.select_update,
    Option.filter_eq_some_iff,Option.map_eq_some_iff] at h
  obtain ⟨⟨d,hd,he⟩,_⟩ := h
  refine ⟨d,hd,?_⟩
  by_cases hx : d.id ∈ expiryBatch pass.lockedDialogues pass.now pass.batchSize db.dialogStates
  · rw [if_pos hx] at he
    subst he
    exact ⟨rfl,fun ha => by simp at ha⟩
  · rw [if_neg hx] at he
    subst he
    exact ⟨rfl,fun _ => ⟨rfl,hx⟩⟩

theorem select_run_of_active {d : DialogState} (hd : db.dialogStates.select d.id = some d)
    (ha : d.lifecycle = .active) (hx : d.id ∉ pass.expired db) :
    (pass.run db).dialogStates.select d.id = some d := by
  have hafter : (pass.afterExpiry db).select d.id = some d := by
    simp [afterExpiry,hd,hx]
  simp only [run,cleanupInteractions,Table.select_delete,Option.filter_eq_some_iff]
  refine ⟨hafter,?_⟩
  simp only [decide_not,Bool.not_eq_eq_eq_not,Bool.not_true,decide_eq_false_iff_not]
  intro hr
  obtain ⟨e,he,hid⟩ := List.mem_map.mp hr
  obtain ⟨hm,hret,_⟩ := Table.mem_orderedBy.mp (List.mem_of_mem_take he)
  obtain rfl : e = d := Table.eq_of_key hm (Table.mem_of_select hafter) hid
  exact hret.1 ha

end CleanupPass

section Pass

variable {p : CallbackPresentation} {action : ConfirmedAction} {row : LockedCallbackRow}
  {pass : CleanupPass} {db : Database}

theorem Redeemable.removable (h : Redeemable p action row db) (dialogues : Table DialogState) :
    Removable dialogues db.messageBindings pass.now row.token := by
  have hs := (lockRepositoryCallback_eq_some h.locked).2.2.1
  refine ⟨Or.inl h.recoverable.consumed,?_⟩
  rintro ⟨hdeep,_⟩
  simp [hs] at hdeep

theorem Redeemable.token_kept_iff (h : Redeemable p action row db) :
    row.token ∈ (pass.run db).interactionTokens ↔
      (row.token.token ∈ pass.lockedTokens ∨ pass.batchSize ≤ db.interactionTokens.rank
        (fun t => Removable (pass.afterExpiry db) db.messageBindings pass.now t ∧
          t.token ∉ pass.lockedTokens)
        (Table.Before InteractionToken.expiresAt fun t => t.token.text) row.token) := by
  have hm := (lockRepositoryCallback_eq_some h.locked).1
  rw [CleanupPass.mem_run_tokens,mem_tokenBatch hm]
  simp only [hm,h.removable,true_and,not_and,not_lt]
  tauto

theorem Redeemable.dialogue_kept_iff (h : Redeemable p action row db) :
    row.dialogue.id ∉ pass.expired db ↔
      (Overdue pass.now row.dialogue → row.dialogue.id ∈ pass.lockedDialogues ∨
        pass.batchSize ≤ db.dialogStates.rank
          (fun d => Overdue pass.now d ∧ d.id ∉ pass.lockedDialogues)
          (Table.Before DialogState.expiresAt DialogState.id) row.dialogue) := by
  have hd := (lockRepositoryCallback_eq_some h.locked).2.2.2.2
  rw [CleanupPass.expired,mem_expiryBatch (Table.mem_of_select hd)]
  simp only [not_and,not_lt]
  tauto

/-- A pass keeps a callback redeemable exactly when it spares its rows. -/
theorem redeemable_run_iff :
    Redeemable p action row (pass.run db) ↔ Redeemable p action row db ∧ pass.Spares row db := by
  constructor
  · intro h
    obtain ⟨hm,htext,hs,hid,hd⟩ := lockRepositoryCallback_iff.mp h.locked
    obtain ⟨d,hd',_,hsame⟩ := CleanupPass.select_run_dialogue hd
    obtain ⟨he,hx⟩ := hsame h.recoverable.active
    rw [← he] at hd' hx
    have hold : Redeemable p action row db :=
      ⟨lockRepositoryCallback_iff.mpr ⟨(CleanupPass.mem_run_tokens.mp hm).1,htext,hs,hid,hd'⟩,
        h.recoverable,h.action⟩
    exact ⟨hold,hold.token_kept_iff.mp hm,hold.dialogue_kept_iff.mp hx⟩
  · rintro ⟨h,hspare⟩
    obtain ⟨_,htext,hs,hid,hd⟩ := lockRepositoryCallback_iff.mp h.locked
    have hx := h.dialogue_kept_iff.mpr hspare.dialogue
    refine ⟨lockRepositoryCallback_iff.mpr ⟨h.token_kept_iff.mpr hspare.token,htext,hs,hid,?_⟩,
      h.recoverable,h.action⟩
    exact CleanupPass.select_run_of_active hd h.recoverable.active hx

end Pass

theorem redeemable_cleanupPasses_iff {p : CallbackPresentation} {action : ConfirmedAction}
    {row : LockedCallbackRow} {passes : List CleanupPass} {db : Database} :
    Redeemable p action row (cleanupPasses passes db) ↔
      Redeemable p action row db ∧ SparedBy row passes db := by
  induction passes generalizing db with
  | nil => simp [cleanupPasses,SparedBy]
  | cons pass rest ih =>
    rw [cleanupPasses,SparedBy,ih,redeemable_run_iff,and_assoc]

theorem select_cleanupPasses {passes : List CleanupPass} {db : Database} {k : Uuid}
    {e : DialogState} (h : (cleanupPasses passes db).dialogStates.select k = some e) :
    ∃ d, db.dialogStates.select k = some d ∧ e.step = d.step := by
  induction passes generalizing db with
  | nil => exact ⟨e,h,rfl⟩
  | cons pass rest ih =>
    obtain ⟨d,hd,hs⟩ := ih h
    obtain ⟨d',hd',hs',_⟩ := CleanupPass.select_run_dialogue hd
    exact ⟨d',hd',hs.trans hs'⟩

/-- After any number of cleanup passes a submitted action is confirmed again to its update, at any
time, and can still complete, exactly when the rows of its callback were stored and every pass
spared them. -/
theorem confirmation_recoverable_iff (p : CallbackPresentation) (action : ConfirmedAction)
    (passes : List CleanupPass) (db : Database) (h : Submitted p.update action db) :
    ((∀ now, Confirms p now action (cleanupPasses passes db)) ∧
        Completable p.update action.dialogueId (cleanupPasses passes db)) ↔
      ∃ row, Redeemable p action row db ∧ SparedBy row passes db := by
  obtain ⟨d,hd,hs,_⟩ := h
  constructor
  · rintro ⟨hc,e,he,_⟩
    obtain ⟨d',hd',hstep⟩ := select_cleanupPasses he
    obtain rfl := Option.some.inj (hd.symm.trans hd')
    obtain ⟨row,hrow⟩ := redeemable_of_confirms (hc 0) he (hstep.trans hs)
    exact ⟨row,redeemable_cleanupPasses_iff.mp hrow⟩
  · rintro ⟨row,hrow⟩
    have hend := redeemable_cleanupPasses_iff.mpr hrow
    exact ⟨hend.confirms,hend.completable⟩

namespace ReleasedStar

open StarConfirmation

def selection : Token := .filled 's'

def cancellation : Token := .filled 'x'

/-- Preview, selection and confirmation of one dialogue, with the stamps between them. -/
def calls : List Call :=
  [.recordUpdate (AdmittedUpdate.mk 7 100 "callback_query" "{}") 0,
    .createRepositoryPreviewDialogue 1 ⟨7,42,42⟩ "target" (some "account") [(.star,selection)] 0 600,
    .stampCallbackMessage 1 7 42 9,
    .consumeRepositorySelection ⟨selection.text,⟨7,99⟩,42,42,9⟩ token cancellation 5,
    .stampCallbackMessage 1 7 42 9,
    .consumeRepositoryDecision presentation 10]

def released : Database := calls.foldl (fun s c => c.apply s) Database.fresh

def submitted : DialogState := (releaseDialogue update).set dialogue

theorem released_run : Run CallStep Database.fresh calls released :=
  run_of_calls (by simp [calls,Call.Promised]) Database.fresh

theorem released_submitted : Submitted update action released :=
  ⟨submitted,by decide +kernel,rfl,rfl,⟨rfl,rfl⟩,rfl⟩

def pass : CleanupPass := ⟨∅,∅,20,0,1⟩

/-- In a reachable state with a released action the pass takes the consumed token; the releasing
update is then refused, ten seconds after its release. -/
theorem confirmation_lost :
    Run CallStep Database.fresh calls released ∧ Submitted update action released ∧
    Confirms presentation 20 action released ∧
    ¬ Confirms presentation 20 action (cleanupPasses [pass] released) :=
  ⟨released_run,released_submitted,by decide +kernel,by decide +kernel⟩

def row : LockedCallbackRow :=
  ⟨{confirmation with createdAt := 5, consumedAt := some 10, consumedByUser := some 42},submitted⟩

theorem released_redeemable : Redeemable presentation action row released where
  locked := by decide +kernel
  recoverable := ⟨by decide,rfl,by decide,⟨rfl,rfl⟩,rfl,rfl⟩
  action := rfl

/-- The same pass beside a transaction that holds the token leaves the action recoverable. -/
theorem confirmation_kept :
    Confirms presentation 1000 action
      (cleanupPasses [{pass with lockedTokens := {token}}] released) := by
  have hiff := confirmation_recoverable_iff presentation action
    [{pass with lockedTokens := {token}}] released released_submitted
  refine (hiff.mpr ⟨row,released_redeemable,⟨Or.inl (by decide),?_⟩,trivial⟩).1 1000
  intro hdue
  exact absurd hdue.2 (by decide)

end ReleasedStar

end RatatoskrTelegram
