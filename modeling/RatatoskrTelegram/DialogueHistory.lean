import RatatoskrTelegram.RepositoryRelease
import RatatoskrTelegram.TokenEffects
import RatatoskrTelegram.TokenHandlers

/-!
# The history of the dialogues

A log of what the transactions of a dialogue have answered, beside what went to Platform for it.
What a stored dialogue holds is backed by the log, and the log tells in what order a dialogue can
have been previewed, selected, confirmed, cancelled and completed.
-/

namespace RatatoskrTelegram

/-- What has come of a dialogue; `release` is the place in the log of a confirmed answer. -/
inductive ActionEvent
  | previewed (dialogueId : Uuid) (scope : DialogueScope) (target : Json)
      (accountRef : Option Json) (modes : List RepositoryActionCapability)
  | selected (p : CallbackPresentation) (dialogueId : Uuid) (mode : RepositoryActionCapability)
  | cancelled (p : CallbackPresentation) (dialogueId : Uuid)
  | confirmed (p : CallbackPresentation) (action : ConfirmedAction)
  | refused (release : ℕ) (error : PlatformError)
  | applied (release : ℕ) (actorId : ℤ) (action : ConfirmedAction)
      (answer : Except PlatformError RepositoryActionResult)
  | completed (dialogueId : Uuid) (update : ReleasingUpdate) (result : Option Json)
      (job : NewOutboundJob)
  deriving DecidableEq

def CallbackPresentation.scope (p : CallbackPresentation) : DialogueScope :=
  ⟨p.update.botId,p.actorId,p.chatId⟩

def DialogState.scope (d : DialogState) : DialogueScope := ⟨d.botId,d.telegramUserId,d.chatId⟩

def ActionEvent.dialogue : ActionEvent → Option Uuid
  | previewed dialogueId _ _ _ _ | selected _ dialogueId _ | cancelled _ dialogueId
  | completed dialogueId _ _ _ => some dialogueId
  | confirmed _ action => some action.dialogueId
  | refused _ _ | applied _ _ _ _ => none

namespace Call

/-- What a call answers about the dialogues. -/
def actionEvents (db : Database) : Call → List ActionEvent
  | createRepositoryPreviewDialogue dialogueId scope target accountRef selections now expiresAt =>
    match (RatatoskrTelegram.createRepositoryPreviewDialogue dialogueId scope target accountRef
      selections now expiresAt db).1 with
    | .ok _ => [.previewed dialogueId scope target accountRef (selections.map Prod.fst)]
    | .error _ => []
  | consumeRepositorySelection p confirmToken cancelToken now =>
    match (RatatoskrTelegram.consumeRepositorySelection p confirmToken cancelToken now db).1 with
    | .ok (.ok next) => [.selected p next.dialogueId next.mode]
    | _ => []
  | consumeRepositoryDecision p now =>
    match (RatatoskrTelegram.consumeRepositoryDecision p now db).1 with
    | .ok (.ok (.confirmed action)) => [.confirmed p action]
    | .ok (.ok .cancelled) =>
      (lockRepositoryCallback p.token db).toList.map fun row => .cancelled p row.dialogue.id
    | _ => []
  | completeRepositoryDialogueProjection dialogueId update result jobId job now =>
    match (RatatoskrTelegram.completeRepositoryDialogueProjection dialogueId update result jobId
      job now db).1 with
    | .ok .completed => [.completed dialogueId update result job]
    | _ => []
  | _ => []

end Call

namespace DialogState

/-- A move no presentation asks for. -/
inductive Idles (d : DialogState) : DialogState → Prop
  | stays : Idles d d
  | stamped (messageId : ℤ) : d.lifecycle = .active → Idles d ((stampDialogue messageId).set d)
  | expired (now : ℤ) : d.lifecycle = .active → Idles d ((expireDialogue now).set d)

end DialogState

/-- Every dialogue left stems from a stored one that has idled. -/
abbrev DialoguesIdle (t u : Table DialogState) : Prop :=
  Table.Descends DialogState.Idles (fun _ => False) t u

theorem DialoguesIdle.refl (t : Table DialogState) : DialoguesIdle t t :=
  (Table.Evolves.refl fun _ => .stays).descends

theorem stampCallback_idle (dialogueId : Uuid) (botId chatId messageId : ℤ) (db : Database) :
    DialoguesIdle db.dialogStates
      (stampCallback dialogueId botId chatId messageId db).dialogStates := by
  unfold stampCallback
  split
  · exact .refl _
  · refine (Table.Evolves.update (fun _ => .stays) ?_).descends
    intro d _ hd
    exact .stamped messageId hd.2.2.2.1

theorem expiredDatabase_idle (row : LockedCallbackRow) (now : ℤ) (db : Database) :
    DialoguesIdle db.dialogStates (expiredDatabase row now db).dialogStates := by
  refine (Table.Evolves.update (fun _ => .stays) ?_).descends
  rintro d _ ⟨-,ha⟩
  exact .expired now ha

namespace Call

/-- What a call does to the dialogues, beside what it answers. -/
inductive Transits (db : Database) : Call → List ActionEvent → Table DialogState → Prop
  | idle {c : Call} {t : Table DialogState} : DialoguesIdle db.dialogStates t →
      Transits db c [] t
  | previewed {dialogueId : Uuid} {scope : DialogueScope} {target : Json}
      {accountRef : Option Json} {selections : List (RepositoryActionCapability × Token)}
      {now expiresAt : ℤ} {t : Table DialogState} :
      db.dialogStates.insert (previewDialogue dialogueId scope target accountRef now expiresAt) =
        some t →
      Transits db (.createRepositoryPreviewDialogue dialogueId scope target accountRef selections
        now expiresAt) [.previewed dialogueId scope target accountRef (selections.map Prod.fst)] t
  | selected {p : CallbackPresentation} {confirmToken cancelToken : Token} {now : ℤ}
      {row : LockedCallbackRow} {mode : RepositoryActionCapability} :
      lockRepositoryCallback p.token db = some row → Admitted row p .preview 0 now →
      repositoryMode row.token.action = some mode →
      Transits db (.consumeRepositorySelection p confirmToken cancelToken now)
        [.selected p row.dialogue.id mode] (db.dialogStates.update (·.id = row.dialogue.id)
          (confirmDialogue {row.dialogue.payload with selectedMode := some mode}))
  | cancelled {p : CallbackPresentation} {now : ℤ} {row : LockedCallbackRow} :
      lockRepositoryCallback p.token db = some row → Admitted row p .confirming 1 now →
      Transits db (.consumeRepositoryDecision p now) [.cancelled p row.dialogue.id]
        (db.dialogStates.update (·.id = row.dialogue.id) (cancelDialogue now))
  | released {p : CallbackPresentation} {now : ℤ} {row : LockedCallbackRow}
      {action : ConfirmedAction} : lockRepositoryCallback p.token db = some row →
      Admitted row p .confirming 1 now → confirmedAction row.dialogue = .ok action →
      Transits db (.consumeRepositoryDecision p now) [.confirmed p action]
        (db.dialogStates.update (·.id = row.dialogue.id) (releaseDialogue p.update))
  | recovered {p : CallbackPresentation} {now : ℤ} {row : LockedCallbackRow}
      {action : ConfirmedAction} : lockRepositoryCallback p.token db = some row →
      Recoverable row p → confirmedAction row.dialogue = .ok action →
      Transits db (.consumeRepositoryDecision p now) [.confirmed p action] db.dialogStates
  | completed {update : ReleasingUpdate} {result : Option Json} {jobId : Uuid}
      {job : NewOutboundJob} {now : ℤ} {dialogue : DialogState} :
      db.dialogStates.select dialogue.id = some dialogue → dialogue.ReleasedBy update →
      dialogue.step = .submitting → dialogue.lifecycle = .active →
      Transits db (.completeRepositoryDialogueProjection dialogue.id update result jobId job now)
        [.completed dialogue.id update result job]
        (db.dialogStates.update (·.id = dialogue.id) (completeDialogue result now))

theorem transits_create (dialogueId : Uuid) (scope : DialogueScope) (target : Json)
    (accountRef : Option Json) (selections : List (RepositoryActionCapability × Token))
    (now expiresAt : ℤ) (db : Database) :
    Transits db (.createRepositoryPreviewDialogue dialogueId scope target accountRef selections
        now expiresAt)
      ((Call.createRepositoryPreviewDialogue dialogueId scope target accountRef selections now
        expiresAt).actionEvents db)
      (RatatoskrTelegram.createRepositoryPreviewDialogue dialogueId scope target accountRef
        selections now expiresAt db).2.dialogStates := by
  unfold actionEvents
  dsimp only [RatatoskrTelegram.createRepositoryPreviewDialogue,transaction]
  split_ifs
  · cases hi : db.dialogStates.insert
      (previewDialogue dialogueId scope target accountRef now expiresAt) with
    | none => exact .idle (.refl _)
    | some dialogues =>
      dsimp only
      cases insertSelections dialogueId scope now expiresAt selections db.interactionTokens with
      | error e => exact .idle (.refl _)
      | ok tokens => exact .previewed hi
  · exact .idle (.refl _)

theorem transits_selection (p : CallbackPresentation) (confirmToken cancelToken : Token) (now : ℤ)
    (db : Database) :
    Transits db (.consumeRepositorySelection p confirmToken cancelToken now)
      ((Call.consumeRepositorySelection p confirmToken cancelToken now).actionEvents db)
      (RatatoskrTelegram.consumeRepositorySelection p confirmToken cancelToken now
        db).2.dialogStates := by
  obtain ⟨r,t,he,h⟩ := consumeRepositorySelection_step p confirmToken cancelToken now db
  rw [actionEvents,he]
  cases h with
  | failed e => exact .idle (.refl _)
  | refused refusal => exact .idle (.refl _)
  | expired _ _ => exact .idle (expiredDatabase_idle _ _ _)
  | selected hl hadm hm _ _ => exact .selected hl hadm hm

theorem transits_decision (p : CallbackPresentation) (now : ℤ) (db : Database) :
    Transits db (.consumeRepositoryDecision p now)
      ((Call.consumeRepositoryDecision p now).actionEvents db)
      (RatatoskrTelegram.consumeRepositoryDecision p now db).2.dialogStates := by
  obtain ⟨r,t,he,h⟩ := consumeRepositoryDecision_step p now db
  rw [actionEvents,he]
  cases h with
  | failed e => exact .idle (.refl _)
  | refused refusal => exact .idle (.refl _)
  | expired _ _ => exact .idle (expiredDatabase_idle _ _ _)
  | recovered hl hr ha => exact .recovered hl hr ha
  | alreadyCompleted => exact .idle (.refl _)
  | cancelled hl hadm _ =>
    simp only [hl]
    exact .cancelled hl hadm
  | released hl hadm _ ha => exact .released hl hadm ha

theorem transits_completion (dialogueId : Uuid) (update : ReleasingUpdate) (result : Option Json)
    (jobId : Uuid) (job : NewOutboundJob) (now : ℤ) (db : Database) :
    Transits db (.completeRepositoryDialogueProjection dialogueId update result jobId job now)
      ((Call.completeRepositoryDialogueProjection dialogueId update result jobId job
        now).actionEvents db)
      (RatatoskrTelegram.completeRepositoryDialogueProjection dialogueId update result jobId job
        now db).2.dialogStates := by
  obtain ⟨r,t,he,h⟩ :=
    completeRepositoryDialogueProjection_step dialogueId update result jobId job now db
  rw [actionEvents,he]
  cases h with
  | failed e => exact .idle (.refl _)
  | alreadyCompleted => exact .idle (.refl _)
  | completed hs hr hstep ha _ _ =>
    obtain rfl := Table.key_of_select hs
    exact .completed hs hr hstep ha

theorem transits (c : Call) (db : Database) :
    Transits db c (c.actionEvents db) (c.apply db).dialogStates := by
  cases c with
  | recordOutboundAcknowledgement bindingId job method messageId now =>
    refine .idle ?_
    rcases recordOutboundAcknowledgement_writes bindingId job method messageId now db with
      h | ⟨_,_,_,h⟩
    · rw [apply,h]
      exact .refl _
    · rw [apply,h]
      dsimp only [acknowledged,applyAcknowledgement,applyCallbackStamp]
      split
      · exact stampCallback_idle _ _ _ _ db
      · exact .refl _
  | createRepositoryPreviewDialogue dialogueId scope target accountRef selections now expiresAt =>
    exact transits_create dialogueId scope target accountRef selections now expiresAt db
  | stampCallbackMessage dialogueId botId chatId messageId =>
    refine .idle ?_
    refine transaction_rel
      (R := fun s t : Database => DialoguesIdle s.dialogStates t.dialogStates) (.refl _) ?_
    intro v t h
    split at h
    · obtain ⟨-,rfl⟩ := Ending.commit.inj h
      exact stampCallback_idle dialogueId botId chatId messageId db
    · simp at h
  | consumeRepositorySelection p confirmToken cancelToken now =>
    exact transits_selection p confirmToken cancelToken now db
  | consumeRepositoryDecision p now => exact transits_decision p now db
  | completeRepositoryDialogueProjection dialogueId update result jobId job now =>
    exact transits_completion dialogueId update result jobId job now db
  | cleanupInteractions lockedDialogues lockedTokens now terminalBefore batchSize =>
    refine .idle (Table.Descends.delete (Table.Evolves.update (fun _ => .stays) ?_).descends _)
    intro d hd hid
    obtain ⟨⟨ha,-⟩,-⟩ := (mem_expiryBatch hd).mp hid
    exact .expired now ha
  | _ =>
    rw [dialogues_kept _ rfl]
    exact .idle (.refl _)

end Call

/-- The text of a completion Platform has turned down for good. -/
def refusedActionText : String :=
  "<b>Repository action could not be accepted</b>\nNo success is claimed. Start again."

/-- What a completion reports is what was answered for its release. -/
inductive Reports (context : CaptureContext) (log : List ActionEvent) (release : ℕ) (actorId : ℤ)
    (action : ConfirmedAction) : String → Option Json → Prop
  | result {r : RepositoryActionResult} : .applied release actorId action (.ok r) ∈ log →
      Reports context log release actorId action r.render (some (context.resultJson r))
  | unopened {e : PlatformError} : .refused release e ∈ log → e.recoverableAction = false →
      Reports context log release actorId action refusedActionText none
  | refusal {e : PlatformError} : .applied release actorId action (.error e) ∈ log →
      e.recoverableAction = false →
      Reports context log release actorId action refusedActionText none

/-- The actor was shown a preview of the target and selected that mode of those it offered. -/
structure Entitled (log : List ActionEvent) (scope : DialogueScope) (action : ConfirmedAction) :
    Prop where
  key : action.idempotencyKey = ⟨action.dialogueId⟩
  offered : ∃ accountRef modes q,
    .previewed action.dialogueId scope action.target accountRef modes ∈ log ∧
    action.mode ∈ modes ∧ action.accountRef = (if action.mode = .star then accountRef else none) ∧
    .selected q action.dialogueId action.mode ∈ log ∧ q.scope = scope

def tries (release : ℕ) (log : List ActionEvent) : ℕ :=
  log.countP fun
    | .applied n _ _ _ => n = release
    | _ => false

/-- What must have come before an event. -/
def Justified (context : CaptureContext) (before : List ActionEvent) : ActionEvent → Prop
  | .previewed dialogueId _ _ _ _ => ∀ e ∈ before, e.dialogue ≠ some dialogueId
  | .selected p dialogueId mode =>
    (∃ target accountRef modes,
      .previewed dialogueId p.scope target accountRef modes ∈ before ∧ mode ∈ modes) ∧
    ∀ q mode', .selected q dialogueId mode' ∉ before
  | .cancelled p dialogueId =>
    (∃ q mode, .selected q dialogueId mode ∈ before ∧ q.scope = p.scope) ∧
    (∀ q, .cancelled q dialogueId ∉ before) ∧
    ∀ q action, .confirmed q action ∈ before → action.dialogueId ≠ dialogueId
  | .confirmed p action =>
    Entitled before p.scope action ∧ (∀ q, .cancelled q action.dialogueId ∉ before) ∧
    (∀ u result job, .completed action.dialogueId u result job ∉ before) ∧
    ∀ q action', .confirmed q action' ∈ before → action'.dialogueId = action.dialogueId →
      action' = action ∧ q.update = p.update
  | .refused release _ => ∃ p action, before[release]? = some (.confirmed p action)
  | .applied release actorId action _ =>
    (∃ p, before[release]? = some (.confirmed p action) ∧ p.actorId = actorId) ∧
    tries release before < actionAttempts ∧
    ∀ actorId' action' answer, .applied release actorId' action' answer ∈ before →
      ∃ e, answer = .error e ∧ e.transient = true
  | .completed dialogueId update result job =>
    (∃ release p action text, before[release]? = some (.confirmed p action) ∧
      action.dialogueId = dialogueId ∧ p.update = update ∧
      Reports context before release p.actorId action text result ∧
      job = messageJob p.update.botId p.chatId text none (some dialogueId)) ∧
    ∀ u result' job', .completed dialogueId u result' job' ∉ before

structure BackedOffer (log : List ActionEvent) (d : DialogState) : Prop where
  key : d.actionIdempotencyKey = ⟨d.id⟩
  previewed : ∃ modes, .previewed d.id d.scope d.payload.target d.payload.accountRef modes ∈ log
  selected : ∀ mode, d.payload.selectedMode = some mode → ∃ modes q,
    .previewed d.id d.scope d.payload.target d.payload.accountRef modes ∈ log ∧ mode ∈ modes ∧
    .selected q d.id mode ∈ log ∧ q.scope = d.scope

/-- A stored dialogue holds what the log says of it. -/
structure Backed (log : List ActionEvent) (d : DialogState) : Prop extends BackedOffer log d where
  unselected : d.step = .preview → ∀ q mode, .selected q d.id mode ∉ log
  chosen : d.step ≠ .preview → ∃ mode, d.payload.selectedMode = some mode
  cancelled : ∀ q, .cancelled q d.id ∈ log → d.lifecycle = .cancelled
  confirmed : ∀ q action, .confirmed q action ∈ log → action.dialogueId = d.id →
    d.Carries q.update action
  completed : ∀ u result job, .completed d.id u result job ∈ log → d.lifecycle = .completed

/-- A token that selects a mode belongs to a preview that offers it. -/
def Offered (log : List ActionEvent) (t : InteractionToken) : Prop :=
  ∀ mode, repositoryMode t.action = some mode → ∃ dialogueId scope target accountRef modes,
    t.dialogueId = some dialogueId ∧
    .previewed dialogueId scope target accountRef modes ∈ log ∧ mode ∈ modes

structure DialogueHistory where
  database : Database
  log : List ActionEvent

namespace DialogueHistory

def initial : DialogueHistory := ⟨.fresh,[]⟩

def calls (v : DialogueHistory) (c : Call) : DialogueHistory :=
  ⟨c.apply v.database,v.log ++ c.actionEvents v.database⟩

def sends (v : DialogueHistory) (e : ActionEvent) : DialogueHistory := {v with log := v.log ++ [e]}

structure Sound (context : CaptureContext) (v : DialogueHistory) : Prop where
  offered : ∀ t ∈ v.database.interactionTokens, Offered v.log t
  backed : ∀ d ∈ v.database.dialogStates, Backed v.log d
  log : Throughout (Justified context) v.log

def Mints (log : List ActionEvent) (c : Call) : Prop :=
  ∀ e ∈ log, ∀ dialogueId ∈ e.dialogue, ¬ c.Creates dialogueId

end DialogueHistory

section Rows

variable {context : CaptureContext} {log : List ActionEvent} {d : DialogState} {e : ActionEvent}

theorem previewed_unique (h : Throughout (Justified context) log) {id : Uuid}
    {scope scope' : DialogueScope} {target target' : Json} {accountRef accountRef' : Option Json}
    {modes modes' : List RepositoryActionCapability}
    (h₁ : .previewed id scope target accountRef modes ∈ log)
    (h₂ : .previewed id scope' target' accountRef' modes' ∈ log) :
    scope' = scope ∧ target' = target ∧ accountRef' = accountRef ∧ modes' = modes := by
  rcases h.pair h₁ h₂ with he | ⟨before,-,hm,hj⟩ | ⟨before,-,hm,hj⟩
  · cases he
    exact ⟨rfl,rfl,rfl,rfl⟩
  · exact absurd rfl (hj _ hm)
  · exact absurd rfl (hj _ hm)

theorem BackedOffer.append (h : BackedOffer log d) (events : List ActionEvent) :
    BackedOffer (log ++ events) d where
  key := h.key
  previewed := h.previewed.imp fun _ hm => List.mem_append_left _ hm
  selected mode hmode := by
    obtain ⟨modes,q,hp,hmem,hs,hq⟩ := h.selected mode hmode
    exact ⟨modes,q,List.mem_append_left _ hp,hmem,List.mem_append_left _ hs,hq⟩

theorem mem_of_told {f : ActionEvent} (hm : f ∈ log ++ [e]) (hne : f ≠ e) : f ∈ log :=
  (List.mem_append.mp hm).resolve_right fun hs => hne (List.mem_singleton.mp hs)

theorem Backed.other (h : Backed log d) (he : e.dialogue ≠ some d.id) : Backed (log ++ [e]) d where
  toBackedOffer := h.append [e]
  unselected hstep q mode hm := by
    rcases List.mem_append.mp hm with hm | hm
    · exact h.unselected hstep q mode hm
    · obtain rfl := List.mem_singleton.mp hm
      exact he rfl
  chosen := h.chosen
  cancelled q hm := by
    rcases List.mem_append.mp hm with hm | hm
    · exact h.cancelled q hm
    · obtain rfl := List.mem_singleton.mp hm
      exact absurd rfl he
  confirmed q action hm hid := by
    rcases List.mem_append.mp hm with hm | hm
    · exact h.confirmed q action hm hid
    · obtain rfl := List.mem_singleton.mp hm
      exact absurd (congrArg some hid) he
  completed u result job hm := by
    rcases List.mem_append.mp hm with hm | hm
    · exact h.completed u result job hm
    · obtain rfl := List.mem_singleton.mp hm
      exact absurd rfl he

theorem Backed.idles {d' : DialogState} (h : Backed log d) (hi : d.Idles d') : Backed log d' := by
  cases hi with
  | stays => exact h
  | stamped messageId ha =>
    refine ⟨⟨h.key,h.previewed,h.selected⟩,h.unselected,h.chosen,h.cancelled,?_,h.completed⟩
    intro q action hm hid
    have hc := h.confirmed q action hm hid
    exact ⟨hc.releasedBy,hc.submitted,hc.action⟩
  | expired now ha =>
    refine ⟨⟨h.key,h.previewed,h.selected⟩,h.unselected,h.chosen,?_,?_,?_⟩
    · intro q hm
      simp [h.cancelled q hm] at ha
    · intro q action hm hid
      have hc := h.confirmed q action hm hid
      exact ⟨hc.releasedBy,hc.submitted,hc.action⟩
    · intro u result job hm
      simp [h.completed u result job hm] at ha

theorem Backed.not_cancelled (h : Backed log d) (ha : d.lifecycle = .active)
    (q : CallbackPresentation) : .cancelled q d.id ∉ log := by
  intro hm
  simp [h.cancelled q hm] at ha

theorem Backed.not_completed (h : Backed log d) (ha : d.lifecycle = .active) (u : ReleasingUpdate)
    (result : Option Json) (job : NewOutboundJob) : .completed d.id u result job ∉ log := by
  intro hm
  simp [h.completed u result job hm] at ha

theorem Backed.not_confirmed (h : Backed log d) (hs : d.step = .preview ∨ d.step = .confirming)
    (q : CallbackPresentation) (action : ConfirmedAction) (hm : .confirmed q action ∈ log) :
    action.dialogueId ≠ d.id := by
  intro hid
  have hsub := (h.confirmed q action hm hid).submitted
  rcases hs with hs | hs <;> simp [hs] at hsub

/-- A write of one dialogue, told by one event. -/
theorem backed_update {t : Table DialogState} {a : Assignment DialogState}
    (hd : t.select d.id = some d) (h : ∀ s ∈ t, Backed log s) (he : e.dialogue = some d.id)
    (hnew : Backed (log ++ [e]) (a.set d)) :
    ∀ s ∈ t.update (·.id = d.id) a, Backed (log ++ [e]) s := by
  intro s hs
  obtain ⟨r,hr,rfl⟩ := Table.mem_update.mp hs
  split
  · rename_i hid
    obtain rfl : r = d := Table.eq_of_key hr (Table.mem_of_select hd) hid
    exact hnew
  · rename_i hid
    refine (h r hr).other ?_
    rw [he]
    exact fun hne => hid (Option.some.inj hne).symm

end Rows

section Answers

variable {context : CaptureContext} {log : List ActionEvent} {d : DialogState}
  {p : CallbackPresentation} {now : ℤ} {row : LockedCallbackRow}

theorem LockedCallbackRow.SameOwner.scope (h : row.SameOwner p) : row.dialogue.scope = p.scope := by
  obtain ⟨-,-,-,hb,hu,hc⟩ := h
  simp [DialogState.scope,CallbackPresentation.scope,hb,hu,hc]

theorem Admitted.sameScope {step : DialogueStep} {version : ℤ}
    (h : Admitted row p step version now) : row.dialogue.scope = p.scope := by
  have hs := h.scope
  simp only [callbackScopeValid,decide_eq_true_eq] at hs
  exact hs.1.scope

theorem Recoverable.sameScope (h : Recoverable row p) : row.dialogue.scope = p.scope := by
  have hs := h.scope
  simp only [recoveryScopeValid,decide_eq_true_eq] at hs
  exact hs.1.scope

theorem Backed.entitled {action : ConfirmedAction} {scope : DialogueScope} (h : Backed log d)
    (ha : confirmedAction d = .ok action) (hscope : d.scope = scope) :
    Entitled log scope action := by
  subst hscope
  unfold confirmedAction at ha
  split at ha
  · simp at ha
  · rename_i mode hmode
    obtain rfl := Except.ok.inj ha
    obtain ⟨modes,q,hp,hmem,hs,hq⟩ := h.selected mode hmode
    exact ⟨h.key,_,modes,q,hp,hmem,rfl,hs,hq⟩

/-- A confirmation of an active dialogue that none or the same confirmation went before. -/
theorem Backed.justifies {action : ConfirmedAction} (h : Backed log d)
    (ha : confirmedAction d = .ok action) (hactive : d.lifecycle = .active)
    (hscope : d.scope = p.scope)
    (hbefore : ∀ q action', .confirmed q action' ∈ log → action'.dialogueId = d.id →
      action' = action ∧ q.update = p.update) :
    Justified context log (.confirmed p action) := by
  have hid := confirmedAction_dialogueId ha
  refine ⟨h.entitled ha hscope,?_,?_,?_⟩
  · rw [hid]
    exact h.not_cancelled hactive
  · rw [hid]
    exact h.not_completed hactive
  · rw [hid]
    exact hbefore

theorem justified_selected {mode : RepositoryActionCapability}
    (hlog : Throughout (Justified context) log) (h : Backed log row.dialogue)
    (ht : Offered log row.token) (hid : row.token.dialogueId = some row.dialogue.id)
    (hadm : Admitted row p .preview 0 now) (hm : repositoryMode row.token.action = some mode) :
    (∃ modes, .previewed row.dialogue.id row.dialogue.scope row.dialogue.payload.target
      row.dialogue.payload.accountRef modes ∈ log ∧ mode ∈ modes) ∧
      Justified context log (.selected p row.dialogue.id mode) := by
  obtain ⟨modes,hprev⟩ := h.previewed
  obtain ⟨id,scope,target,accountRef,modes',hid',hprev',hmem⟩ := ht mode hm
  obtain rfl : row.dialogue.id = id := Option.some.inj (hid.symm.trans hid')
  obtain ⟨-,-,-,rfl⟩ := previewed_unique hlog hprev hprev'
  have howned := hprev
  rw [hadm.sameScope] at howned
  exact ⟨⟨_,hprev,hmem⟩,⟨_,_,_,howned,hmem⟩,h.unselected hadm.step⟩

end Answers

namespace DialogueHistory

section Calls

variable {context : CaptureContext} {v : DialogueHistory} {c : Call}

theorem retokens_offered {db : Database} {log : List ActionEvent} {t t' : InteractionToken}
    (h : c.Retokens db t t') (ht : Offered log t) : Offered log t' := by
  cases h <;> exact ht

theorem Offered.append {log : List ActionEvent} {t : InteractionToken} (h : Offered log t)
    (events : List ActionEvent) : Offered (log ++ events) t := by
  intro mode hm
  obtain ⟨id,scope,target,accountRef,modes,hid,hp,hmem⟩ := h mode hm
  exact ⟨id,scope,target,accountRef,modes,hid,List.mem_append_left _ hp,hmem⟩

theorem mode_of_selectionAction {mode mode' : RepositoryActionCapability} {action : TokenAction}
    (h : selectionAction mode = some action) (h' : repositoryMode action = some mode') :
    mode' = mode := by
  cases mode <;> simp [selectionAction] at h <;> subst h <;> simpa [repositoryMode] using h'.symm

theorem Sound.offered_calls (h : Sound context v) (c : Call) :
    ∀ t ∈ (v.calls c).database.interactionTokens, Offered (v.calls c).log t := by
  intro t ht
  rcases (c.tokens_change v.database).origin (Table.select_of_mem ht) with ⟨r,hr,hre⟩ | ⟨hn,hi⟩
  · exact Offered.append (retokens_offered hre (h.offered r (Table.mem_of_select hr))) _
  · cases hi with
    | @selection dialogueId scope target accountRef selections now expiresAt mode token action
        hd hexp hmem hact =>
      intro mode' hmode'
      obtain rfl := mode_of_selectionAction hact hmode'
      have hevents : ActionEvent.previewed dialogueId scope target accountRef
          (selections.map Prod.fst) ∈ (Call.createRepositoryPreviewDialogue dialogueId scope target
            accountRef selections now expiresAt).actionEvents v.database := by
        cases ha : (createRepositoryPreviewDialogue dialogueId scope target accountRef selections
          now expiresAt v.database).1 with
        | ok id => simp [Call.actionEvents,ha]
        | error e =>
          -- a preview that fails has left no token behind
          have hkept : (Call.createRepositoryPreviewDialogue dialogueId scope target accountRef
            selections now expiresAt).apply v.database = v.database := transaction_error ha
          have hnew := Table.select_of_mem ht
          rw [calls,hkept,hn] at hnew
          simp at hnew
      exact ⟨dialogueId,scope,target,accountRef,_,rfl,List.mem_append_right _ hevents,
        List.mem_map_of_mem hmem⟩
    | confirmation _ _ _ hact =>
      intro mode hm
      rcases hact with ⟨-,rfl⟩ | ⟨-,rfl⟩ <;> simp [callbackAuthority,repositoryMode] at hm
    | captured | operation | delivered | read =>
      intro mode hm
      simp [NewOperationIntent.row,PreparedLibraryReadIntent.row,repositoryMode] at hm

def Reported (context : CaptureContext) (log events : List ActionEvent) : Prop :=
  ∀ dialogueId u result job, .completed dialogueId u result job ∈ events →
    ∃ release p action text, log[release]? = some (.confirmed p action) ∧
      action.dialogueId = dialogueId ∧ p.update = u ∧
      Reports context log release p.actorId action text result ∧
      job = messageJob p.update.botId p.chatId text none (some dialogueId)

section Transits

variable {db : Database} {log : List ActionEvent} {events : List ActionEvent}
  {t : Table DialogState} {p : CallbackPresentation} {now : ℤ} {row : LockedCallbackRow}

theorem backed_previewed {dialogueId : Uuid} {scope : DialogueScope} {target : Json}
    {accountRef : Option Json} {modes : List RepositoryActionCapability} {expiresAt : ℤ}
    (hrows : ∀ d ∈ db.dialogStates, Backed log d)
    (hnew : ∀ e ∈ log, e.dialogue ≠ some dialogueId)
    (hi : db.dialogStates.insert (previewDialogue dialogueId scope target accountRef now
      expiresAt) = some t) :
    ∀ d ∈ t, Backed (log ++ [ActionEvent.previewed dialogueId scope target accountRef modes]) d := by
  have hmem {e : ActionEvent} (he : e.dialogue = some dialogueId)
      (hne : e ≠ .previewed dialogueId scope target accountRef modes) :
      e ∉ log ++ [ActionEvent.previewed dialogueId scope target accountRef modes] := by
    intro hm
    rcases List.mem_append.mp hm with hm | hm
    · exact hnew e hm he
    · exact hne (List.mem_singleton.mp hm)
  intro d hd
  have hsel := Table.select_of_mem hd
  rw [Table.select_insert hi] at hsel
  split at hsel
  · obtain rfl := Option.some.inj hsel
    exact {
      key := rfl
      previewed := ⟨modes,List.mem_append_right _ (List.mem_singleton.mpr rfl)⟩
      selected := fun mode hmode => by simp [previewDialogue] at hmode
      unselected := fun _ q mode => hmem rfl (by simp)
      chosen := fun hs => absurd rfl hs
      cancelled := fun q hm => absurd hm (hmem rfl (by simp))
      confirmed := fun q action hm hid => absurd hm (hmem (congrArg some hid) (by simp))
      completed := fun u result job hm => absurd hm (hmem rfl (by simp))}
  · rename_i hne
    exact (hrows d (Table.mem_of_select hsel)).other fun he => hne (Option.some.inj he).symm

theorem backed_selected {mode : RepositoryActionCapability}
    (hrows : ∀ d ∈ db.dialogStates, Backed log d) (hl : lockRepositoryCallback p.token db = some row)
    (hadm : Admitted row p .preview 0 now)
    (hmodes : ∃ modes, .previewed row.dialogue.id row.dialogue.scope row.dialogue.payload.target
      row.dialogue.payload.accountRef modes ∈ log ∧ mode ∈ modes) :
    ∀ d ∈ db.dialogStates.update (·.id = row.dialogue.id)
        (confirmDialogue {row.dialogue.payload with selectedMode := some mode}),
      Backed (log ++ [ActionEvent.selected p row.dialogue.id mode]) d := by
  have hd := (lockRepositoryCallback_eq_some hl).2.2.2.2
  have h := hrows _ (Table.mem_of_select hd)
  obtain ⟨modes,hprev,hmem⟩ := hmodes
  refine backed_update hd hrows rfl ?_
  exact {
    key := h.key
    previewed := ⟨modes,List.mem_append_left _ hprev⟩
    selected := fun mode' hmode => by
      obtain rfl : mode = mode' := Option.some.inj hmode
      exact ⟨modes,p,List.mem_append_left _ hprev,hmem,
        List.mem_append_right _ (List.mem_singleton.mpr rfl),hadm.sameScope.symm⟩
    unselected := fun hs => by simp at hs
    chosen := fun _ => ⟨mode,rfl⟩
    cancelled := fun q hm => absurd (mem_of_told hm nofun) (h.not_cancelled hadm.active q)
    confirmed := fun q action hm hid =>
      absurd hid (h.not_confirmed (Or.inl hadm.step) q action (mem_of_told hm nofun))
    completed := fun u result job hm =>
      absurd (mem_of_told hm nofun) (h.not_completed hadm.active u result job)}

theorem backed_cancelled (hrows : ∀ d ∈ db.dialogStates, Backed log d)
    (hl : lockRepositoryCallback p.token db = some row) (hadm : Admitted row p .confirming 1 now) :
    ∀ d ∈ db.dialogStates.update (·.id = row.dialogue.id) (cancelDialogue now),
      Backed (log ++ [ActionEvent.cancelled p row.dialogue.id]) d := by
  have hd := (lockRepositoryCallback_eq_some hl).2.2.2.2
  have h := hrows _ (Table.mem_of_select hd)
  refine backed_update hd hrows rfl ?_
  exact {
    __ := h.append _
    unselected := fun hs => by simp [hadm.step] at hs
    chosen := fun _ => h.chosen (by simp [hadm.step])
    cancelled := fun _ _ => rfl
    confirmed := fun q action hm hid =>
      absurd hid (h.not_confirmed (Or.inr hadm.step) q action (mem_of_told hm nofun))
    completed := fun u result job hm =>
      absurd (mem_of_told hm nofun) (h.not_completed hadm.active u result job)}

theorem backed_released {action : ConfirmedAction} (hrows : ∀ d ∈ db.dialogStates, Backed log d)
    (hl : lockRepositoryCallback p.token db = some row) (hadm : Admitted row p .confirming 1 now)
    (ha : confirmedAction row.dialogue = .ok action) :
    ∀ d ∈ db.dialogStates.update (·.id = row.dialogue.id) (releaseDialogue p.update),
      Backed (log ++ [ActionEvent.confirmed p action]) d := by
  have hd := (lockRepositoryCallback_eq_some hl).2.2.2.2
  have h := hrows _ (Table.mem_of_select hd)
  refine backed_update hd hrows (congrArg some (confirmedAction_dialogueId ha)) ?_
  exact {
    __ := h.append _
    unselected := fun hs => by simp at hs
    chosen := fun _ => h.chosen (by simp [hadm.step])
    cancelled := fun q hm => absurd (mem_of_told hm nofun) (h.not_cancelled hadm.active q)
    confirmed := fun q action' hm hid => by
      rcases List.mem_append.mp hm with hm | hm
      · exact absurd hid (h.not_confirmed (Or.inr hadm.step) q action' hm)
      · obtain ⟨rfl,rfl⟩ : q = p ∧ action' = action := by simpa using hm
        exact ⟨⟨rfl,rfl⟩,Or.inl rfl,ha⟩
    completed := fun u result job hm =>
      absurd (mem_of_told hm nofun) (h.not_completed hadm.active u result job)}

theorem backed_recovered {action : ConfirmedAction} (hrows : ∀ d ∈ db.dialogStates, Backed log d)
    (hl : lockRepositoryCallback p.token db = some row) (hrec : Recoverable row p)
    (ha : confirmedAction row.dialogue = .ok action) :
    ∀ d ∈ db.dialogStates, Backed (log ++ [ActionEvent.confirmed p action]) d := by
  have hd := (lockRepositoryCallback_eq_some hl).2.2.2.2
  intro d hmem
  by_cases hid : d.id = row.dialogue.id
  · obtain rfl : d = row.dialogue := Table.eq_of_key hmem (Table.mem_of_select hd) hid
    have h := hrows _ hmem
    exact {
      __ := h.append _
      unselected := fun hs => by simp [hrec.step] at hs
      chosen := h.chosen
      cancelled := fun q hm => h.cancelled q (mem_of_told hm nofun)
      confirmed := fun q action' hm hid => by
        rcases List.mem_append.mp hm with hm | hm
        · exact h.confirmed q action' hm hid
        · obtain ⟨rfl,rfl⟩ : q = p ∧ action' = action := by simpa using hm
          exact ⟨hrec.releasedBy,Or.inl hrec.step,ha⟩
      completed := fun u result job hm => h.completed u result job (mem_of_told hm nofun)}
  · refine (hrows d hmem).other ?_
    show some action.dialogueId ≠ some d.id
    rw [confirmedAction_dialogueId ha]
    exact fun he => hid (Option.some.inj he).symm

theorem backed_completed {d : DialogState} {update : ReleasingUpdate} {result : Option Json}
    {job : NewOutboundJob} (hrows : ∀ d ∈ db.dialogStates, Backed log d)
    (hd : db.dialogStates.select d.id = some d) (hs : d.step = .submitting)
    (ha : d.lifecycle = .active) :
    ∀ s ∈ db.dialogStates.update (·.id = d.id) (completeDialogue result now),
      Backed (log ++ [ActionEvent.completed d.id update result job]) s := by
  have h := hrows _ (Table.mem_of_select hd)
  refine backed_update hd hrows rfl ?_
  exact {
    __ := h.append _
    unselected := fun hp => by simp at hp
    chosen := fun _ => h.chosen (by simp [hs])
    cancelled := fun q hm => absurd (mem_of_told hm nofun) (h.not_cancelled ha q)
    confirmed := fun q action hm hid =>
      let hc := h.confirmed q action (mem_of_told hm nofun) hid
      ⟨hc.releasedBy,Or.inr rfl,hc.action⟩
    completed := fun _ _ _ _ => rfl}

/-- A call leaves a justified log that backs its rows. -/
theorem backed_transits (ht : c.Transits db events t)
    (hoffered : ∀ tok ∈ db.interactionTokens, Offered log tok)
    (hrows : ∀ d ∈ db.dialogStates, Backed log d) (hlog : Throughout (Justified context) log)
    (hmints : Mints log c) (hrep : Reported context log events) :
    (∀ d ∈ t, Backed (log ++ events) d) ∧ Throughout (Justified context) (log ++ events) := by
  have hlocked {p : CallbackPresentation} {row : LockedCallbackRow}
      (hl : lockRepositoryCallback p.token db = some row) : Backed log row.dialogue :=
    hrows _ (Table.mem_of_select (lockRepositoryCallback_eq_some hl).2.2.2.2)
  cases ht with
  | idle hidle =>
    rw [List.append_nil]
    refine ⟨?_,hlog⟩
    intro d hd
    rcases hidle d.id d (Table.select_of_mem hd) with ⟨r,hr,hi⟩ | ⟨-,hf⟩
    · exact (hrows r (Table.mem_of_select hr)).idles hi
    · exact hf.elim
  | @previewed dialogueId scope target accountRef selections now expiresAt _ hi =>
    have hnew : ∀ e ∈ log, e.dialogue ≠ some dialogueId := fun e he hid =>
      hmints e he dialogueId hid rfl
    exact ⟨backed_previewed hrows hnew hi,hlog.append hnew⟩
  | @selected p confirmToken cancelToken now row mode hl hadm hm =>
    obtain ⟨htok,-,-,hid,-⟩ := lockRepositoryCallback_eq_some hl
    obtain ⟨hmodes,hjust⟩ :=
      justified_selected hlog (hlocked hl) (hoffered _ htok) hid hadm hm
    exact ⟨backed_selected hrows hl hadm hmodes,hlog.append hjust⟩
  | @cancelled p now row hl hadm =>
    have h := hlocked hl
    refine ⟨backed_cancelled hrows hl hadm,hlog.append ⟨?_,h.not_cancelled hadm.active,
      h.not_confirmed (Or.inr hadm.step)⟩⟩
    obtain ⟨mode,hmode⟩ := h.chosen (by simp [hadm.step])
    obtain ⟨modes,q,-,-,hs,hq⟩ := h.selected mode hmode
    exact ⟨q,mode,hs,hq.trans hadm.sameScope⟩
  | @released p now row action hl hadm ha =>
    have h := hlocked hl
    refine ⟨backed_released hrows hl hadm ha,hlog.append
      (h.justifies ha hadm.active hadm.sameScope ?_)⟩
    intro q action' hm hid
    exact absurd hid (h.not_confirmed (Or.inr hadm.step) q action' hm)
  | @recovered p now row action hl hrec ha =>
    have h := hlocked hl
    refine ⟨backed_recovered hrows hl hrec ha,hlog.append
      (h.justifies ha hrec.active hrec.sameScope ?_)⟩
    intro q action' hm hid
    have hcarries : row.dialogue.Carries p.update action :=
      ⟨hrec.releasedBy,Or.inl hrec.step,ha⟩
    exact hcarries.unique (h.confirmed q action' hm hid)
  | @completed update result jobId job now d hd _ hs ha =>
    have h := hrows _ (Table.mem_of_select hd)
    exact ⟨backed_completed hrows hd hs ha,hlog.append
      ⟨hrep _ _ _ _ (List.mem_singleton.mpr rfl),h.not_completed ha⟩⟩

end Transits

theorem Sound.calls (h : Sound context v) (hm : Mints v.log c)
    (hr : Reported context v.log (c.actionEvents v.database)) : Sound context (v.calls c) := by
  obtain ⟨hbacked,hlog⟩ :=
    backed_transits (c.transits v.database) h.offered h.backed h.log hm hr
  exact ⟨h.offered_calls c,hbacked,hlog⟩

theorem Sound.sends {e : ActionEvent} (h : Sound context v) (he : e.dialogue = none)
    (hj : Justified context v.log e) : Sound context (v.sends e) where
  offered t ht := Offered.append (h.offered t ht) [e]
  backed d hd := (h.backed d hd).other (by simp [he])
  log := h.log.append hj

theorem Sound.initial : Sound context initial where
  offered t ht := by simp [DialogueHistory.initial,Database.fresh] at ht
  backed d hd := by simp [DialogueHistory.initial,Database.fresh] at hd
  log := .nil

theorem Reported.of_not_completes {db : Database} {log : List ActionEvent}
    (hc : ∀ dialogueId update result jobId job now,
      c ≠ .completeRepositoryDialogueProjection dialogueId update result jobId job now) :
    Reported context log (c.actionEvents db) := by
  intro dialogueId u result job hm
  have ht := c.transits db
  generalize c.actionEvents db = events, (c.apply db).dialogStates = t at hm ht
  cases ht with
  | completed => exact absurd rfl (hc _ _ _ _ _ _)
  | _ => simp at hm

end Calls

end DialogueHistory

end RatatoskrTelegram
