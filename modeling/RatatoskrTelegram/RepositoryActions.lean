import RatatoskrTelegram.DialogueHistory
import RatatoskrTelegram.Processes

/-!
# Repository actions end to end

A pressed button selects a mode, cancels, or confirms; a confirmed action goes to Platform, twice
at most, and is completed with what Platform has answered. Any number of handlers serve buttons
while every other producer goes on; a transaction may commit with its answer lost, and a handler
may stop between any two of its steps.
-/

namespace RatatoskrTelegram

/-- What a handler comes to next; `release` is the place of its confirmed answer in the log. -/
inductive ActionStage
  | idle
  | selecting (p : CallbackPresentation)
  | prompting (p : CallbackPresentation) (next : ConfirmationTransition)
  | replying (p : CallbackPresentation) (text : String) (failure : CallbackOutcome)
  | deciding (p : CallbackPresentation)
  | opening (p : CallbackPresentation) (action : ConfirmedAction) (release : ℕ)
  | applying (p : CallbackPresentation) (action : ConfirmedAction) (release attempt : ℕ)
  | completing (p : CallbackPresentation) (action : ConfirmedAction) (release : ℕ) (text : String)
      (result : Option Json)
  | settled (p : CallbackPresentation) (outcome : CallbackOutcome)

def cancelledActionText : String := "Repository action cancelled. No write was sent."

namespace ActionStage

def selected (p : CallbackPresentation) :
    Except PersistenceError (Except CallbackRefusal ConfirmationTransition) → ActionStage
  | .ok (.ok next) => prompting p next
  | .ok (.error .invalid) | .ok (.error .consumed) => deciding p
  | .ok (.error .expired) => replying p expiredActionText .failed
  | .error _ => settled p .failed

def enqueued (p : CallbackPresentation) (failure : CallbackOutcome) :
    Except PersistenceError Uuid → ActionStage
  | .ok _ => settled p .processed
  | .error _ => settled p failure

def decided (context : CaptureContext) (p : CallbackPresentation) (release : ℕ) :
    Except PersistenceError (Except CallbackRefusal DecisionTransition) → ActionStage
  | .ok (.ok (.confirmed action)) =>
    match context.actionRequest action with
    | some _ => opening p action release
    | none => settled p .failed
  | .ok (.ok .cancelled) => replying p cancelledActionText .recoverable
  | .ok (.ok .alreadyCompleted) => settled p .processed
  | .ok (.error _) => replying p expiredActionText .recoverable
  | .error _ => settled p .recoverable

/-- `finish_action_error`. -/
def finished (p : CallbackPresentation) (action : ConfirmedAction) (release : ℕ)
    (error : PlatformError) : ActionStage :=
  if error.recoverableAction then settled p .recoverable
  else completing p action release refusedActionText none

def retried (p : CallbackPresentation) (action : ConfirmedAction) (release attempt : ℕ)
    (error : PlatformError) : ActionStage :=
  if error.transient = true ∧ attempt + 1 < actionAttempts then
    applying p action release (attempt + 1)
  else finished p action release error

def applied (context : CaptureContext) (p : CallbackPresentation) (action : ConfirmedAction)
    (release attempt : ℕ) : Except PlatformError RepositoryActionResult → ActionStage
  | .ok result => completing p action release result.render (some (context.resultJson result))
  | .error error => retried p action release attempt error

def completed (p : CallbackPresentation) : Except PersistenceError CompletionOutcome → ActionStage
  | .ok _ => settled p .processed
  | .error _ => settled p .recoverable

def release : ActionStage → Option ℕ
  | opening _ _ release | applying _ _ release _ | completing _ _ release _ _ => some release
  | _ => none

end ActionStage

/-- `lost` is whether a transaction whose answer is lost has committed. -/
inductive ActionMove
  | begins (p : CallbackPresentation)
  | selects (confirmToken cancelToken : Token) (now : ℤ) (lost : Option Bool)
  | prompts (jobId : Uuid) (now : ℤ) (lost : Option Bool)
  | replies (jobId : Uuid) (now : ℤ) (lost : Option Bool)
  | decides (now : ℤ) (lost : Option Bool)
  | opens (answer : Except PlatformError UserSession)
  | applies (answer : Except PlatformError RepositoryActionResult)
  | completes (jobId : Uuid) (now : ℤ) (lost : Option Bool)
  | ends

namespace DialogueHistory

/-- A transaction of a handler; to it a lost answer is an error. -/
def transacts (v : DialogueHistory) (c : Call) (next failed : ActionStage) :
    Option Bool → ActionStage × DialogueHistory
  | none => (next,v.calls c)
  | some true => (failed,v.calls c)
  | some false => (failed,v)

end DialogueHistory

def resultJob (p : CallbackPresentation) (action : ConfirmedAction) (text : String) :
    NewOutboundJob :=
  messageJob p.update.botId p.chatId text none (some action.dialogueId)

namespace RepositoryActions

variable (context : CaptureContext)

def own (stage : ActionStage) (v : DialogueHistory) :
    ActionMove → Option (ActionStage × DialogueHistory)
  | .begins p =>
    match stage with
    | .idle => some (.selecting p,v)
    | _ => none
  | .selects confirmToken cancelToken now lost =>
    match stage with
    | .selecting p => some (v.transacts
        (.consumeRepositorySelection p confirmToken cancelToken now)
        (.selected p (consumeRepositorySelection p confirmToken cancelToken now v.database).1)
        (.settled p .failed) lost)
    | _ => none
  | .prompts jobId now lost =>
    match stage with
    | .prompting p next =>
      let job := (confirmationPrompt p.update.botId p.chatId next).job
      some (v.transacts (.enqueueOutboundJob jobId job now)
        (.enqueued p .failed (enqueueOutboundJob jobId job now v.database).1)
        (.settled p .failed) lost)
    | _ => none
  | .replies jobId now lost =>
    match stage with
    | .replying p text failure =>
      let job := replyJob p.update.botId p.chatId text
      some (v.transacts (.enqueueOutboundJob jobId job now)
        (.enqueued p failure (enqueueOutboundJob jobId job now v.database).1)
        (.settled p failure) lost)
    | _ => none
  | .decides now lost =>
    match stage with
    | .deciding p => some (v.transacts (.consumeRepositoryDecision p now)
        (.decided context p v.log.length (consumeRepositoryDecision p now v.database).1)
        (.settled p .recoverable) lost)
    | _ => none
  | .opens answer =>
    match stage with
    | .opening p action release =>
      match answer with
      | .ok _ => some (.applying p action release 0,v)
      | .error error => some (.finished p action release error,v.sends (.refused release error))
    | _ => none
  | .applies answer =>
    match stage with
    | .applying p action release attempt =>
      some (.applied context p action release attempt answer,
        v.sends (.applied release p.actorId action answer))
    | _ => none
  | .completes jobId now lost =>
    match stage with
    | .completing p action _ text result =>
      let job := resultJob p action text
      some (v.transacts
        (.completeRepositoryDialogueProjection action.dialogueId p.update result jobId job now)
        (.completed p (completeRepositoryDialogueProjection action.dialogueId p.update result jobId
          job now v.database).1)
        (.settled p .recoverable) lost)
    | _ => none
  | .ends => some (.idle,v)

end RepositoryActions

namespace Call

def created : Call → Option Uuid
  | createRepositoryPreviewDialogue dialogueId _ _ _ _ _ _ => some dialogueId
  | _ => none

theorem created_eq_some {dialogueId : Uuid} {c : Call} :
    c.created = some dialogueId ↔ c.Creates dialogueId := by
  cases c <;> simp [created,Creates]

instance (dialogueId : Uuid) : DecidablePred (Creates dialogueId) := fun _ =>
  decidable_of_iff _ created_eq_some

def completes : Call → Bool
  | completeRepositoryDialogueProjection _ _ _ _ _ _ => true
  | _ => false

end Call

namespace RepositoryActions

instance (log : List ActionEvent) : DecidablePred (DialogueHistory.Mints log) := fun c => by
  delta DialogueHistory.Mints
  infer_instance

/-- Everybody else keeps the promises of the calls, completes nothing and mints new identifiers. -/
def other (v : DialogueHistory) (c : Call) : Option DialogueHistory :=
  if c.Promised ∧ c.completes = false ∧ DialogueHistory.Mints v.log c then some (v.calls c)
  else none

def initial : Processes DialogueHistory ActionStage := ⟨.initial,fun _ => .idle⟩

abbrev Runs (context : CaptureContext) (tr : List (Move ActionMove Call))
    (s : Processes DialogueHistory ActionStage) : Prop :=
  Processes.Runs (own context) other initial tr s

end RepositoryActions

namespace RepositoryActions

section Alone

variable (context : CaptureContext) (minted : Minted) (p : CallbackPresentation) (now : ℤ)
  {v : DialogueHistory}

/-- The handler comes by its own steps to that outcome and that database. -/
def Settles (stage : ActionStage) (v : DialogueHistory) (outcome : CallbackOutcome)
    (db : Database) : Prop :=
  ∃ tr w, Run (fun x a y => own context x.1 x.2 a = some y) (stage,v) tr (.settled p outcome,w) ∧
    w.database = db

variable {context p}

theorem Settles.here {stage : ActionStage} {outcome : CallbackOutcome} {db : Database}
    (hs : stage = .settled p outcome) (hdb : v.database = db) :
    Settles context p stage v outcome db :=
  ⟨[],v,hs ▸ .refl,hdb⟩

theorem Settles.after {stage stage' : ActionStage} {w : DialogueHistory} {a : ActionMove}
    {outcome : CallbackOutcome} {db : Database} (hs : own context stage v a = some (stage',w))
    (h : Settles context p stage' w outcome db) : Settles context p stage v outcome db := by
  obtain ⟨tr,u,hrun,hdb⟩ := h
  exact ⟨[a] ++ tr,u,(Run.single hs).trans hrun,hdb⟩

variable (context p)

def outcomeOr (failure : CallbackOutcome) : Except PersistenceError CallbackOutcome → CallbackOutcome
  | .ok outcome => outcome
  | .error _ => failure

def outcomeOf (failure : CallbackOutcome) : Except PersistenceError Uuid → CallbackOutcome
  | .ok _ => .processed
  | .error _ => failure

theorem settles_replying (text : String) (failure : CallbackOutcome) (v : DialogueHistory) :
    Settles context p (.replying p text failure) v
      (outcomeOf failure (enqueueOutboundJob minted.jobId
        (replyJob p.update.botId p.chatId text) now v.database).1)
      (enqueueOutboundJob minted.jobId (replyJob p.update.botId p.chatId text) now
        v.database).2 := by
  refine .after (a := .replies minted.jobId now none) rfl (.here ?_ rfl)
  show ActionStage.enqueued p failure (enqueueOutboundJob minted.jobId
    (replyJob p.update.botId p.chatId text) now v.database).1 = _
  cases (enqueueOutboundJob minted.jobId (replyJob p.update.botId p.chatId text) now
    v.database).1 <;> rfl

theorem settles_prompting (next : ConfirmationTransition) (v : DialogueHistory) :
    Settles context p (.prompting p next) v
      (outcomeOf .failed (enqueueOutboundJob minted.jobId
        (confirmationPrompt p.update.botId p.chatId next).job now v.database).1)
      (enqueueOutboundJob minted.jobId (confirmationPrompt p.update.botId p.chatId next).job now
        v.database).2 := by
  refine .after (a := .prompts minted.jobId now none) rfl (.here ?_ rfl)
  show ActionStage.enqueued p .failed (enqueueOutboundJob minted.jobId
    (confirmationPrompt p.update.botId p.chatId next).job now v.database).1 = _
  cases (enqueueOutboundJob minted.jobId (confirmationPrompt p.update.botId p.chatId next).job now
    v.database).1 <;> rfl

theorem settles_reply (text : String) (v : DialogueHistory) :
    Settles context p (.replying p text .recoverable) v
      (outcomeOr .recoverable
        (CaptureContext.reply minted p text CallbackOutcome.processed now v.database).1)
      (CaptureContext.reply minted p text CallbackOutcome.processed now v.database).2 := by
  have h := settles_replying context minted p now text .recoverable v
  unfold CaptureContext.reply
  generalize enqueueOutboundJob minted.jobId (replyJob p.update.botId p.chatId text) now
    v.database = enqueued at h ⊢
  obtain ⟨_ | _,_⟩ := enqueued <;> exact h

theorem settles_complete (action : ConfirmedAction) (release : ℕ) (text : String)
    (result : Option Json) (v : DialogueHistory) :
    Settles context p (.completing p action release text result) v
      (outcomeOr .recoverable (CaptureContext.complete minted p action.dialogueId text result now
        v.database).1)
      (CaptureContext.complete minted p action.dialogueId text result now v.database).2 := by
  refine .after (a := .completes minted.jobId now none) rfl (.here ?_ ?_)
  · unfold CaptureContext.complete
    show ActionStage.completed p (completeRepositoryDialogueProjection action.dialogueId p.update
      result minted.jobId (messageJob p.update.botId p.chatId text none (some action.dialogueId))
      now v.database).1 = _
    rcases completeRepositoryDialogueProjection action.dialogueId p.update result minted.jobId
      (messageJob p.update.botId p.chatId text none (some action.dialogueId)) now v.database
      with ⟨_ | _,_⟩ <;> rfl
  · show (completeRepositoryDialogueProjection action.dialogueId p.update result minted.jobId
      (messageJob p.update.botId p.chatId text none (some action.dialogueId)) now v.database).2 = _
    unfold CaptureContext.complete
    rcases completeRepositoryDialogueProjection action.dialogueId p.update result minted.jobId
      (messageJob p.update.botId p.chatId text none (some action.dialogueId)) now v.database
      with ⟨_ | _,_⟩ <;> rfl

theorem settles_finished (action : ConfirmedAction) (release : ℕ) (error : PlatformError)
    (v : DialogueHistory) :
    Settles context p (.finished p action release error) v
      (outcomeOr .recoverable (CaptureContext.finishActionError minted p action.dialogueId error
        now v.database).1)
      (CaptureContext.finishActionError minted p action.dialogueId error now v.database).2 := by
  unfold ActionStage.finished CaptureContext.finishActionError
  split
  · exact .here rfl rfl
  · exact settles_complete context minted p now action release refusedActionText none v

def answered (action : ConfirmedAction) (db : Database) :
    Except PlatformError RepositoryActionResult →
      Except PersistenceError CallbackOutcome × Database
  | .ok result => CaptureContext.complete minted p action.dialogueId result.render
      (some (context.resultJson result)) now db
  | .error error => CaptureContext.finishActionError minted p action.dialogueId error now db

theorem actionWithRetry_succ (answer : ℕ → Except PlatformError RepositoryActionResult)
    (left attempt : ℕ) (last : Option PlatformError) :
    actionWithRetry answer (left + 1) attempt last =
      match answer attempt with
      | .ok value => .ok value
      | .error error =>
        if error.transient then actionWithRetry answer left (attempt + 1) (some error)
        else .error error := rfl

theorem settles_applying (action : ConfirmedAction) (release : ℕ)
    (answer : ℕ → Except PlatformError RepositoryActionResult) (left attempt : ℕ)
    (last : Option PlatformError) (hleft : attempt + left + 1 = actionAttempts)
    (v : DialogueHistory) :
    Settles context p (.applying p action release attempt) v
      (outcomeOr .recoverable (answered context minted p now action v.database
        (actionWithRetry answer (left + 1) attempt last)).1)
      (answered context minted p now action v.database
        (actionWithRetry answer (left + 1) attempt last)).2 := by
  induction left generalizing attempt last v with
  | zero =>
    refine .after (a := .applies (answer attempt)) rfl ?_
    rw [actionWithRetry_succ]
    cases answer attempt with
    | ok result => exact settles_complete context minted p now action release _ _ (v.sends _)
    | error error =>
      have hlast : ¬ (error.transient = true ∧ attempt + 1 < actionAttempts) := fun h => by omega
      have hstage : ActionStage.applied context p action release attempt (.error error) =
          .finished p action release error := if_neg hlast
      have hanswer : (if error.transient then actionWithRetry answer 0 (attempt + 1) (some error)
          else .error error) = .error error := by split <;> rfl
      rw [hstage]
      dsimp only
      rw [hanswer]
      exact settles_finished context minted p now action release error (v.sends _)
  | succ left ih =>
    refine .after (a := .applies (answer attempt)) rfl ?_
    rw [actionWithRetry_succ]
    cases answer attempt with
    | ok result => exact settles_complete context minted p now action release _ _ (v.sends _)
    | error error =>
      dsimp only
      by_cases ht : error.transient = true
      · have hstage : ActionStage.applied context p action release attempt (.error error) =
            .applying p action release (attempt + 1) := if_pos ⟨ht,by omega⟩
        rw [hstage,if_pos ht]
        exact ih (attempt + 1) (some error) (by omega) (v.sends _)
      · have hstage : ActionStage.applied context p action release attempt (.error error) =
            .finished p action release error := if_neg fun h => ht h.1
        rw [hstage,if_neg ht]
        exact settles_finished context minted p now action release error (v.sends _)

theorem settles_opening (action : ConfirmedAction) (release : ℕ) {request : Json}
    (hr : context.actionRequest action = some request) (v : DialogueHistory) :
    Settles context p (.opening p action release) v
      (outcomeOr .recoverable (context.executeConfirmedAction minted p action now v.database).1)
      (context.executeConfirmedAction minted p action now v.database).2 := by
  unfold CaptureContext.executeConfirmedAction
  rw [hr]
  dsimp only
  cases context.session p.actorId with
  | error error =>
    exact .after (a := .opens (.error error)) rfl
      (settles_finished context minted p now action release error (v.sends _))
  | ok session =>
    refine .after (a := .opens (.ok session)) rfl ?_
    have h := settles_applying context minted p now action release
      (context.applyRepositoryAction session.credential request) 1 0 none rfl v
    unfold answered at h
    dsimp only
    cases hanswer : actionWithRetry (context.applyRepositoryAction session.credential request)
      actionAttempts 0 none with
    | error error =>
      rw [show (1 + 1 : ℕ) = actionAttempts from rfl,hanswer] at h
      exact h
    | ok result =>
      rw [show (1 + 1 : ℕ) = actionAttempts from rfl,hanswer] at h
      exact h

theorem settles_deciding (v : DialogueHistory) :
    Settles context p (.deciding p) v
      (outcomeOr .recoverable (context.decision minted p now v.database).1)
      (context.decision minted p now v.database).2 := by
  refine .after (a := .decides now none) rfl ?_
  unfold CaptureContext.decision
  have hdb : (v.calls (.consumeRepositoryDecision p now)).database =
      (consumeRepositoryDecision p now v.database).2 := rfl
  generalize v.calls (.consumeRepositoryDecision p now) = w at hdb
  generalize hd : consumeRepositoryDecision p now v.database = decided at hdb
  obtain ⟨answer,db⟩ := decided
  subst hdb
  cases answer with
  | error e => exact .here rfl rfl
  | ok answer =>
    cases answer with
    | error refusal => exact settles_reply context minted p now _ w
    | ok transition =>
      cases transition with
      | alreadyCompleted => exact .here rfl rfl
      | cancelled => exact settles_reply context minted p now _ w
      | confirmed action =>
        cases hr : context.actionRequest action with
        | none =>
          refine .here ?_ ?_
          · simp [ActionStage.decided,CaptureContext.executeConfirmedAction,hr,outcomeOr]
          · simp [CaptureContext.executeConfirmedAction,hr]
        | some request =>
          simp only [ActionStage.decided,hr]
          exact settles_opening context minted p now action _ hr w

/-- A handler nobody interrupts does what `handle_callback` does. -/
theorem settles_handleCallback (v : DialogueHistory) :
    Settles context p (.selecting p) v
      (context.handleCallback minted (some p) now v.database).1
      (context.handleCallback minted (some p) now v.database).2 := by
  refine .after (a := .selects minted.confirmToken minted.cancelToken now none) rfl ?_
  unfold CaptureContext.handleCallback CaptureContext.selection
  have hdb : (v.calls (.consumeRepositorySelection p minted.confirmToken minted.cancelToken
      now)).database = (consumeRepositorySelection p minted.confirmToken minted.cancelToken now
        v.database).2 := rfl
  generalize v.calls (.consumeRepositorySelection p minted.confirmToken minted.cancelToken now) = w
    at hdb
  dsimp only
  generalize consumeRepositorySelection p minted.confirmToken minted.cancelToken now v.database =
    selected at hdb ⊢
  obtain ⟨answer,db⟩ := selected
  subst hdb
  cases answer with
  | error e => exact .here rfl rfl
  | ok answer =>
    cases answer with
    | ok next =>
      have h := settles_prompting context minted p now next w
      dsimp only
      generalize enqueueOutboundJob minted.jobId (confirmationPrompt p.update.botId p.chatId
        next).job now w.database = enqueued at h ⊢
      obtain ⟨_ | _,_⟩ := enqueued <;> exact h
    | error refusal =>
      cases refusal with
      | expired =>
        have h := settles_replying context minted p now expiredActionText .failed w
        dsimp only [CaptureContext.reply]
        generalize enqueueOutboundJob minted.jobId (replyJob p.update.botId p.chatId
          expiredActionText) now w.database = enqueued at h ⊢
        obtain ⟨_ | _,_⟩ := enqueued <;> exact h
      | invalid | consumed =>
        have h := settles_deciding context minted p now w
        dsimp only
        generalize context.decision minted p now w.database = decided at h ⊢
        obtain ⟨_ | _,_⟩ := decided <;> exact h

end Alone

end RepositoryActions

namespace RepositoryActions

open DialogueHistory (Sound Mints Reported)

/-- Every request made for the release so far has met an error worth another attempt. -/
def Unanswered (release : ℕ) (log : List ActionEvent) : Prop :=
  ∀ actorId action answer, .applied release actorId action answer ∈ log →
    ∃ e, answer = .error e ∧ e.transient = true

/-- What a handler that works for a confirmed answer relies upon. -/
def Holds (context : CaptureContext) (v : DialogueHistory) : ActionStage → Prop
  | .opening p action release =>
    v.log[release]? = some (.confirmed p action) ∧ tries release v.log = 0 ∧
      Unanswered release v.log
  | .applying p action release attempt =>
    v.log[release]? = some (.confirmed p action) ∧ tries release v.log = attempt ∧
      Unanswered release v.log ∧ attempt < actionAttempts
  | .completing p action release text result =>
    v.log[release]? = some (.confirmed p action) ∧
      Reports context v.log release p.actorId action text result
  | _ => True

/-- No two handlers work for one confirmed answer. -/
def Apart (r q : ActionStage) : Prop :=
  ∀ release ∈ r.release, release ∉ q.release

theorem Apart.symm {r q : ActionStage} (h : Apart r q) : Apart q r :=
  fun release hq hr => h release hr hq

theorem Apart.of_release {r r' q : ActionStage} (h : Apart r q)
    (hr : ∀ release ∈ r'.release, release ∈ r.release) : Apart r' q :=
  fun release hrel => h release (hr release hrel)

section Steps

variable {context : CaptureContext} {v w : DialogueHistory} {c : Call} {stage : ActionStage}
  {log : List ActionEvent} {e : ActionEvent} {n : ℕ}

theorem getElem?_append (h : log[n]? = some e) (events : List ActionEvent) :
    (log ++ events)[n]? = some e := by
  obtain ⟨hn,-⟩ := List.getElem?_eq_some_iff.mp h
  rw [List.getElem?_append_left hn,h]

theorem actionEvents_dialogue (db : Database) : ∀ e ∈ c.actionEvents db, e.dialogue ≠ none := by
  have ht := c.transits db
  generalize c.actionEvents db = events, (c.apply db).dialogStates = t at ht
  intro e he
  cases ht with
  | idle => simp at he
  | _ =>
    obtain rfl := List.mem_singleton.mp he
    simp [ActionEvent.dialogue]

theorem tries_append (events : List ActionEvent) :
    tries n (log ++ events) = tries n log + tries n events :=
  List.countP_append

theorem tries_of_dialogue {events : List ActionEvent} (h : ∀ e ∈ events, e.dialogue ≠ none) :
    tries n events = 0 := by
  rw [tries,List.countP_eq_zero]
  intro e he
  have hne := h e he
  cases e <;> simp_all [ActionEvent.dialogue]

theorem Unanswered.append {events : List ActionEvent} (h : Unanswered n log)
    (hevents : ∀ e ∈ events, e.dialogue ≠ none) : Unanswered n (log ++ events) := by
  intro actorId action answer hm
  rcases List.mem_append.mp hm with hm | hm
  · exact h actorId action answer hm
  · exact absurd rfl (hevents _ hm)

theorem Reports.append {release : ℕ} {actorId : ℤ} {action : ConfirmedAction} {text : String}
    {result : Option Json} (h : Reports context log release actorId action text result)
    (events : List ActionEvent) :
    Reports context (log ++ events) release actorId action text result := by
  cases h with
  | result hm => exact .result (List.mem_append_left _ hm)
  | unopened hm he => exact .unopened (List.mem_append_left _ hm) he
  | refusal hm he => exact .refusal (List.mem_append_left _ hm) he

theorem Holds.calls (h : Holds context v stage) (c : Call) : Holds context (v.calls c) stage := by
  have hevents := actionEvents_dialogue (c := c) v.database
  have htries (n : ℕ) : tries n (v.calls c).log = tries n v.log := by
    show tries n (v.log ++ _) = _
    rw [tries_append,tries_of_dialogue hevents,Nat.add_zero]
  cases stage with
  | opening p action release =>
    obtain ⟨hlog,ht,hu⟩ := h
    exact ⟨getElem?_append hlog _,(htries release).trans ht,hu.append hevents⟩
  | applying p action release attempt =>
    obtain ⟨hlog,ht,hu,hlt⟩ := h
    exact ⟨getElem?_append hlog _,(htries release).trans ht,hu.append hevents,hlt⟩
  | completing p action release text result =>
    obtain ⟨hlog,hr⟩ := h
    exact ⟨getElem?_append hlog _,Reports.append hr _⟩
  | _ => trivial

def toldFor : ActionEvent → Option ℕ
  | .refused release _ | .applied release _ _ _ => some release
  | _ => none

theorem Holds.sends (h : Holds context v stage) (he : e.dialogue = none)
    (hne : ∀ release ∈ stage.release, toldFor e ≠ some release) :
    Holds context (v.sends e) stage := by
  have hother {release : ℕ} (hrel : stage.release = some release) :
      tries release (v.sends e).log = tries release v.log ∧
        ∀ actorId action answer, e ≠ .applied release actorId action answer := by
    have hne := hne release hrel
    have happlied : ∀ actorId action answer, e ≠ .applied release actorId action answer := by
      rintro actorId action answer rfl
      exact hne rfl
    refine ⟨?_,happlied⟩
    show tries release (v.log ++ [e]) = _
    rw [tries_append]
    cases e <;> simp_all [tries,toldFor]
  have hun {release : ℕ} (hrel : stage.release = some release) (hu : Unanswered release v.log) :
      Unanswered release (v.sends e).log := by
    intro actorId action answer hm
    exact hu actorId action answer (mem_of_told hm (Ne.symm ((hother hrel).2 _ _ _)))
  cases stage with
  | opening p action release =>
    obtain ⟨hlog,ht,hu⟩ := h
    exact ⟨getElem?_append hlog _,(hother rfl).1.trans ht,hun rfl hu⟩
  | applying p action release attempt =>
    obtain ⟨hlog,ht,hu,hlt⟩ := h
    exact ⟨getElem?_append hlog _,(hother rfl).1.trans ht,hun rfl hu,hlt⟩
  | completing p action release text result =>
    obtain ⟨hlog,hr⟩ := h
    exact ⟨getElem?_append hlog _,Reports.append hr _⟩
  | _ => trivial

theorem Holds.lt (h : Holds context v stage) (hn : n ∈ stage.release) : n < v.log.length := by
  cases stage with
  | opening | applying | completing =>
    obtain rfl := Option.some.inj hn
    exact (List.getElem?_eq_some_iff.mp h.1).1
  | _ => simp [ActionStage.release] at hn

theorem holds_of_release (h : stage.release = none) : Holds context v stage := by
  cases stage <;> trivial

theorem apart_of_release {q : ActionStage} (h : stage.release = none) : Apart stage q := by
  intro release hr
  rw [h] at hr
  simp at hr

theorem lt_of_told (hlog : Throughout (Justified context) log) (he : e ∈ log)
    (hn : toldFor e = some n) : n < log.length := by
  obtain ⟨before,after,rfl⟩ := List.append_of_mem he
  have hj := hlog before e after rfl
  have hlt : n < before.length := by
    cases e with
    | refused release error =>
      obtain rfl := Option.some.inj hn
      obtain ⟨p,action,hc⟩ := hj
      exact (List.getElem?_eq_some_iff.mp hc).1
    | applied release actorId action answer =>
      obtain rfl := Option.some.inj hn
      obtain ⟨⟨p,hc,-⟩,-⟩ := hj
      exact (List.getElem?_eq_some_iff.mp hc).1
    | _ => simp [toldFor] at hn
  rw [List.length_append]
  omega

theorem tries_length (hlog : Throughout (Justified context) log) : tries log.length log = 0 := by
  rw [tries,List.countP_eq_zero]
  intro e he
  cases e with
  | applied release actorId action answer =>
    simpa using Nat.ne_of_lt (lt_of_told hlog he rfl)
  | _ => simp

theorem unanswered_length (hlog : Throughout (Justified context) log) :
    Unanswered log.length log := by
  intro actorId action answer hm
  exact absurd (lt_of_told hlog hm rfl) (Nat.lt_irrefl _)

def Kept (context : CaptureContext) (v : DialogueHistory) (stage : ActionStage)
    (after : ActionStage × DialogueHistory) : Prop :=
  Sound context after.2 ∧ Holds context after.2 after.1 ∧ ∀ q, Holds context v q → Apart stage q →
    Holds context after.2 q ∧ Apart after.1 q

theorem kept_idle {stage' : ActionStage} (hv : Sound context v) (hr : stage'.release = none) :
    Kept context v stage (stage',v) :=
  ⟨hv,holds_of_release hr,fun _ hq _ => ⟨hq,apart_of_release hr⟩⟩

theorem kept_calls {stage' : ActionStage} (hv : Sound context (v.calls c))
    (hr : stage'.release = none) : Kept context v stage (stage',v.calls c) :=
  ⟨hv,holds_of_release hr,fun _ hq _ => ⟨hq.calls c,apart_of_release hr⟩⟩

theorem kept_transacts {next failed : ActionStage} (hv : Sound context v)
    (hc : Sound context (v.calls c)) (hnext : Kept context v stage (next,v.calls c))
    (hfailed : failed.release = none) (lost : Option Bool) :
    Kept context v stage (v.transacts c next failed lost) := by
  cases lost with
  | none => exact hnext
  | some committed =>
    cases committed with
    | true => exact kept_calls hc hfailed
    | false => exact kept_idle hv hfailed

theorem kept_sends {stage' : ActionStage} (hv : Sound context v) (he : e.dialogue = none)
    (hj : Justified context v.log e) (htold : toldFor e = stage.release)
    (hr : stage'.release = none ∨ stage'.release = stage.release)
    (hself : Holds context (v.sends e) stage') : Kept context v stage (stage',v.sends e) := by
  refine ⟨hv.sends he hj,hself,?_⟩
  intro q hq hapart
  refine ⟨hq.sends he ?_,?_⟩
  · intro release hrel
    rw [htold]
    exact fun hs => hapart release hs hrel
  · rcases hr with hr | hr
    · exact apart_of_release hr
    · exact hapart.of_release fun release hrel => hr ▸ hrel

theorem mints_of_not_creates (h : ∀ dialogueId, ¬ c.Creates dialogueId) : Mints log c :=
  fun _ _ dialogueId _ => h dialogueId

theorem sound_calls (hv : Sound context v) (hmints : Mints v.log c) (hc : c.completes = false) :
    Sound context (v.calls c) := by
  refine hv.calls hmints (.of_not_completes ?_)
  rintro dialogueId update result jobId job now rfl
  simp [Call.completes] at hc

section Handler

variable {p : CallbackPresentation} {action : ConfirmedAction} {release attempt : ℕ} {now : ℤ}

theorem kept_decides (hv : Sound context v) (now : ℤ) (lost : Option Bool) :
    Kept context v (.deciding p) (v.transacts (.consumeRepositoryDecision p now)
      (.decided context p v.log.length (consumeRepositoryDecision p now v.database).1)
      (.settled p .recoverable) lost) := by
  have hc : Sound context (v.calls (.consumeRepositoryDecision p now)) :=
    sound_calls hv (mints_of_not_creates fun _ => id) rfl
  refine kept_transacts hv hc ?_ rfl lost
  cases hd : (consumeRepositoryDecision p now v.database).1 with
  | error e => exact kept_calls hc rfl
  | ok answer =>
    cases answer with
    | error refusal => exact kept_calls hc rfl
    | ok transition =>
      cases transition with
      | cancelled | alreadyCompleted => exact kept_calls hc rfl
      | confirmed action =>
        cases hr : context.actionRequest action with
        | none => exact kept_calls hc (by simp [ActionStage.decided,hr,ActionStage.release])
        | some request =>
          simp only [ActionStage.decided,hr]
          have hevents : (Call.consumeRepositoryDecision p now).actionEvents v.database =
              [.confirmed p action] := by simp only [Call.actionEvents,hd]
          have hlog : (v.calls (.consumeRepositoryDecision p now)).log =
              v.log ++ [ActionEvent.confirmed p action] := congrArg (v.log ++ ·) hevents
          have htold : ∀ e ∈ [ActionEvent.confirmed p action], e.dialogue ≠ none := by
            simp [ActionEvent.dialogue]
          refine ⟨hc,⟨?_,?_,?_⟩,?_⟩
          · rw [hlog]
            simp
          · rw [hlog,tries_append,tries_of_dialogue htold,tries_length hv.log]
          · rw [hlog]
            exact (unanswered_length hv.log).append htold
          · intro q hq _
            refine ⟨hq.calls _,?_⟩
            intro release hnew hrel
            obtain rfl : v.log.length = release := Option.some.inj hnew
            exact Nat.lt_irrefl _ (hq.lt hrel)

theorem kept_opens (hv : Sound context v) (hh : Holds context v (.opening p action release))
    (error : PlatformError) :
    Kept context v (.opening p action release)
      (.finished p action release error,v.sends (.refused release error)) := by
  obtain ⟨hlog,-,-⟩ := hh
  refine kept_sends hv rfl ⟨p,action,hlog⟩ rfl ?_ ?_
  · unfold ActionStage.finished
    split
    · exact Or.inl rfl
    · exact Or.inr rfl
  · unfold ActionStage.finished
    split
    · trivial
    · rename_i he
      exact ⟨getElem?_append hlog _,.unopened (List.mem_append_right _ (List.mem_singleton.mpr rfl))
        (Bool.not_eq_true _ ▸ he)⟩

theorem kept_applies (hv : Sound context v)
    (hh : Holds context v (.applying p action release attempt))
    (answer : Except PlatformError RepositoryActionResult) :
    Kept context v (.applying p action release attempt)
      (.applied context p action release attempt answer,
        v.sends (.applied release p.actorId action answer)) := by
  obtain ⟨hlog,ht,hu,hlt⟩ := hh
  have hmem : ActionEvent.applied release p.actorId action answer ∈
      (v.sends (.applied release p.actorId action answer)).log :=
    List.mem_append_right _ (List.mem_singleton.mpr rfl)
  have hkept {stage' : ActionStage}
      (hr : stage'.release = none ∨ stage'.release = some release)
      (hself : Holds context (v.sends (.applied release p.actorId action answer)) stage') :
      Kept context v (.applying p action release attempt)
        (stage',v.sends (.applied release p.actorId action answer)) :=
    kept_sends hv rfl ⟨⟨p,hlog,rfl⟩,ht ▸ hlt,hu⟩ rfl hr hself
  cases answer with
  | ok result =>
    exact hkept (Or.inr rfl) ⟨getElem?_append hlog _,.result hmem⟩
  | error error =>
    show Kept context v _ (ActionStage.retried p action release attempt error,_)
    unfold ActionStage.retried
    split
    · rename_i hagain
      refine hkept (Or.inr rfl) ⟨getElem?_append hlog _,?_,?_,hagain.2⟩
      · show tries release (v.log ++ _) = _
        rw [tries_append,ht]
        simp [tries]
      · intro actorId' action' answer' hm
        rcases List.mem_append.mp hm with hm | hm
        · exact hu actorId' action' answer' hm
        · simp only [List.mem_singleton,ActionEvent.applied.injEq] at hm
          exact ⟨error,hm.2.2.2,hagain.1⟩
    · unfold ActionStage.finished
      split
      · exact hkept (Or.inl rfl) trivial
      · rename_i he
        exact hkept (Or.inr rfl) ⟨getElem?_append hlog _,.refusal hmem (Bool.not_eq_true _ ▸ he)⟩

theorem kept_completes {text : String} {result : Option Json} (hv : Sound context v)
    (hh : Holds context v (.completing p action release text result)) (jobId : Uuid) (now : ℤ)
    (lost : Option Bool) :
    Kept context v (.completing p action release text result) (v.transacts
      (.completeRepositoryDialogueProjection action.dialogueId p.update result jobId
        (resultJob p action text) now)
      (.completed p (completeRepositoryDialogueProjection action.dialogueId p.update result jobId
        (resultJob p action text) now v.database).1)
      (.settled p .recoverable) lost) := by
  obtain ⟨hlog,hr⟩ := hh
  have hc : Sound context (v.calls (.completeRepositoryDialogueProjection action.dialogueId
      p.update result jobId (resultJob p action text) now)) := by
    refine hv.calls (mints_of_not_creates fun _ => id) ?_
    intro dialogueId u result' job hm
    simp only [Call.actionEvents] at hm
    split at hm
    · obtain ⟨rfl,rfl,rfl,rfl⟩ : dialogueId = action.dialogueId ∧ u = p.update ∧
          result' = result ∧ job = resultJob p action text := by simpa using hm
      exact ⟨release,p,action,text,hlog,rfl,rfl,hr,rfl⟩
    · simp at hm
  refine kept_transacts hv hc ?_ rfl lost
  cases (completeRepositoryDialogueProjection action.dialogueId p.update result jobId
    (resultJob p action text) now v.database).1 <;> exact kept_calls hc rfl

end Handler

end Steps

theorem keeps (context : CaptureContext) :
    Processes.Keeps (own context) other (Sound context) (Holds context) Apart where
  symm := Apart.symm
  own := by
    intro v stage a stage' w hv hh hown
    have hkept {after : ActionStage × DialogueHistory} (hk : Kept context v stage after)
        (he : some after = some (stage',w)) : Kept context v stage (stage',w) :=
      Option.some.inj he ▸ hk
    have hplain {c : Call} (hmints : Mints v.log c) (hc : c.completes = false) :
        Sound context (v.calls c) := sound_calls hv hmints hc
    show Kept context v stage (stage',w)
    cases a with
    | begins p =>
      simp only [own] at hown
      split at hown
      · exact hkept (kept_idle hv rfl) hown
      · simp at hown
    | selects confirmToken cancelToken now lost =>
      simp only [own] at hown
      split at hown
      · rename_i p
        have hc := hplain (c := .consumeRepositorySelection p confirmToken cancelToken now)
          (mints_of_not_creates fun _ => id) rfl
        refine hkept (kept_transacts hv hc (kept_calls hc ?_) rfl lost) hown
        unfold ActionStage.selected
        split <;> rfl
      · simp at hown
    | prompts jobId now lost =>
      simp only [own] at hown
      split at hown
      · rename_i p next
        have hc := hplain (c := .enqueueOutboundJob jobId
          (confirmationPrompt p.update.botId p.chatId next).job now)
          (mints_of_not_creates fun _ => id) rfl
        refine hkept (kept_transacts hv hc (kept_calls hc ?_) rfl lost) hown
        unfold ActionStage.enqueued
        split <;> rfl
      · simp at hown
    | replies jobId now lost =>
      simp only [own] at hown
      split at hown
      · rename_i p text failure
        have hc := hplain (c := .enqueueOutboundJob jobId
          (replyJob p.update.botId p.chatId text) now) (mints_of_not_creates fun _ => id) rfl
        refine hkept (kept_transacts hv hc (kept_calls hc ?_) rfl lost) hown
        unfold ActionStage.enqueued
        split <;> rfl
      · simp at hown
    | decides now lost =>
      simp only [own] at hown
      split at hown
      · exact hkept (kept_decides hv now lost) hown
      · simp at hown
    | opens answer =>
      simp only [own] at hown
      split at hown
      · rename_i p action release
        cases answer with
        | error error => exact hkept (kept_opens hv hh error) hown
        | ok session =>
          obtain ⟨hlog,ht,hu⟩ := hh
          have hopened : Kept context v (.opening p action release)
              (.applying p action release 0,v) :=
            ⟨hv,⟨hlog,ht,hu,Nat.zero_lt_two⟩,fun _ hq hapart => ⟨hq,hapart⟩⟩
          exact hkept hopened hown
      · simp at hown
    | applies answer =>
      simp only [own] at hown
      split at hown
      · exact hkept (kept_applies hv hh answer) hown
      · simp at hown
    | completes jobId now lost =>
      simp only [own] at hown
      split at hown
      · exact hkept (kept_completes hv hh jobId now lost) hown
      · simp at hown
    | ends => exact hkept (kept_idle hv rfl) hown
  other := by
    intro v c w hv hother
    unfold other at hother
    split at hother
    · rename_i hc
      obtain rfl := Option.some.inj hother
      exact ⟨sound_calls hv hc.2.2 hc.2.1,fun _ hq => hq.calls c⟩
    · simp at hother

theorem invariant_run {context : CaptureContext} {tr : List (Move ActionMove Call)}
    {s : Processes DialogueHistory ActionStage} (h : Runs context tr s) :
    s.Invariant (Sound context) (Holds context) Apart := by
  have hinitial : initial.Invariant (Sound context) (Holds context) Apart :=
    ⟨.initial,fun _ => trivial,fun _ _ _ _ hr => by simp [initial,ActionStage.release] at hr⟩
  exact hinitial.run (keeps context) h

section Log

variable {context : CaptureContext} {log earlier later : List ActionEvent}

theorem Entitled.mono {scope : DialogueScope} {action : ConfirmedAction}
    (h : Entitled earlier scope action) (hsub : earlier ⊆ log) : Entitled log scope action := by
  obtain ⟨hkey,accountRef,modes,q,hp,hmem,hacc,hs,hq⟩ := h
  exact ⟨hkey,accountRef,modes,q,hsub hp,hmem,hacc,hsub hs,hq⟩

theorem entitled_of_confirmed (hlog : Throughout (Justified context) log)
    {p : CallbackPresentation} {action : ConfirmedAction} (hm : .confirmed p action ∈ log) :
    Entitled log p.scope action := by
  obtain ⟨before,after,rfl⟩ := List.append_of_mem hm
  exact Entitled.mono (hlog _ _ _ rfl).1 (List.subset_append_left _ _)

theorem not_cancelled_of_confirmed (hlog : Throughout (Justified context) log)
    {p q : CallbackPresentation} {action : ConfirmedAction} (hm : .confirmed p action ∈ log) :
    .cancelled q action.dialogueId ∉ log := by
  intro hc
  rcases hlog.pair hm hc with he | ⟨before,-,hin,hj⟩ | ⟨before,-,hin,hj⟩
  · simp at he
  · exact hj.2.1 q hin
  · exact hj.2.2 p action hin rfl

/-- Two confirmed answers for one dialogue are one action of one update. -/
theorem confirmed_unique (hlog : Throughout (Justified context) log) {p q : CallbackPresentation}
    {action action' : ConfirmedAction} (hm : .confirmed p action ∈ log)
    (hm' : .confirmed q action' ∈ log) (hid : action'.dialogueId = action.dialogueId) :
    action' = action ∧ q.update = p.update := by
  rcases hlog.pair hm hm' with he | ⟨before,-,hin,hj⟩ | ⟨before,-,hin,hj⟩
  · cases he
    exact ⟨rfl,rfl⟩
  · exact hj.2.2.2 q action' hin hid
  · obtain ⟨ha,hu⟩ := hj.2.2.2 p action hin hid.symm
    exact ⟨ha.symm,hu.symm⟩

theorem mem_of_release {p : CallbackPresentation} {action : ConfirmedAction} {release : ℕ}
    (h : earlier[release]? = some (.confirmed p action)) : .confirmed p action ∈ earlier :=
  List.mem_of_getElem? h

theorem confirmed_of_applied (hlog : Throughout (Justified context) log) {release : ℕ}
    {actorId : ℤ} {action : ConfirmedAction}
    {answer : Except PlatformError RepositoryActionResult}
    (hm : .applied release actorId action answer ∈ log) :
    ∃ p, .confirmed p action ∈ log ∧ p.actorId = actorId := by
  obtain ⟨before,after,rfl⟩ := List.append_of_mem hm
  obtain ⟨⟨p,hc,hactor⟩,-⟩ := hlog _ _ _ rfl
  exact ⟨p,List.mem_append_left _ (mem_of_release hc),hactor⟩

end Log

/-- Whatever interleaves, is answered or is lost: a request goes to Platform only for an action
its actor has confirmed and, before that, selected from a preview of that target in the same chat,
never for a dialogue that anybody has cancelled; at most twice for one confirmed answer, the second
time only when the first has met a transient error. -/
theorem actions_authorized {context : CaptureContext} {tr : List (Move ActionMove Call)}
    {s : Processes DialogueHistory ActionStage} (h : Runs context tr s)
    {earlier later : List ActionEvent} {release : ℕ} {actorId : ℤ} {action : ConfirmedAction}
    {answer : Except PlatformError RepositoryActionResult}
    (hsplit : s.shared.log = earlier ++ ActionEvent.applied release actorId action answer :: later) :
    (∃ p, earlier[release]? = some (.confirmed p action) ∧ p.actorId = actorId ∧
      Entitled earlier p.scope action) ∧
    (∀ q, .cancelled q action.dialogueId ∉ s.shared.log) ∧
    tries release earlier < actionAttempts ∧ Unanswered release earlier := by
  have hlog := (invariant_run h).shared.log
  have hmem : ActionEvent.applied release actorId action answer ∈ s.shared.log := by
    simp [hsplit]
  obtain ⟨⟨p,hc,hactor⟩,htries,hun⟩ := hlog _ _ _ hsplit
  obtain ⟨q,hconfirmed,-⟩ := confirmed_of_applied hlog hmem
  refine ⟨⟨p,hc,hactor,?_⟩,fun q => not_cancelled_of_confirmed hlog hconfirmed,htries,hun⟩
  have hearlier : Throughout (Justified context) earlier := by
    rw [hsplit] at hlog
    exact hlog.left
  exact entitled_of_confirmed hearlier (mem_of_release hc)

/-- Requests under one idempotency key are one action of one actor. A dialogue is completed once,
by the update that released it, with the result Platform has answered or, without a result, after
an answer that is final; behind its completion it is confirmed no more. -/
theorem actions_completed_once {context : CaptureContext} {tr : List (Move ActionMove Call)}
    {s : Processes DialogueHistory ActionStage} (h : Runs context tr s) :
    (∀ release release' actorId actorId' action action' answer answer',
      .applied release actorId action answer ∈ s.shared.log →
      .applied release' actorId' action' answer' ∈ s.shared.log →
      action'.idempotencyKey = action.idempotencyKey → action' = action ∧ actorId' = actorId) ∧
    ∀ earlier later dialogueId update result job,
      s.shared.log = earlier ++ ActionEvent.completed dialogueId update result job :: later →
      (∃ release p action text, earlier[release]? = some (.confirmed p action) ∧
        action.dialogueId = dialogueId ∧ p.update = update ∧
        Reports context earlier release p.actorId action text result ∧
        job = resultJob p action text) ∧
      (∀ u result' job', .completed dialogueId u result' job' ∉ earlier ++ later) ∧
      ∀ q action, .confirmed q action ∈ later → action.dialogueId ≠ dialogueId := by
  have hlog := (invariant_run h).shared.log
  refine ⟨?_,?_⟩
  · intro release release' actorId actorId' action action' answer answer' hm hm' hkey
    obtain ⟨p,hc,rfl⟩ := confirmed_of_applied hlog hm
    obtain ⟨q,hc',rfl⟩ := confirmed_of_applied hlog hm'
    have he := entitled_of_confirmed hlog hc
    have he' := entitled_of_confirmed hlog hc'
    have hid : action'.dialogueId = action.dialogueId := by
      rw [he.key,he'.key] at hkey
      exact congrArg ActionIdempotencyKey.dialogueId hkey
    obtain ⟨rfl,-⟩ := confirmed_unique hlog hc hc' hid
    obtain ⟨_,_,_,hp,-⟩ := he.offered
    obtain ⟨_,_,_,hp',-⟩ := he'.offered
    obtain ⟨hscope,-⟩ := previewed_unique hlog hp hp'
    exact ⟨rfl,congrArg DialogueScope.telegramUserId hscope⟩
  · intro earlier later dialogueId update result job hsplit
    obtain ⟨⟨release,p,action,text,hc,rfl,hu,hr,hjob⟩,honce⟩ := hlog _ _ _ hsplit
    have hafter {e : ActionEvent} (he : e ∈ later) : ∃ before,
        .completed action.dialogueId update result job ∈ before ∧ Justified context before e := by
      obtain ⟨between,rest,rfl⟩ := List.append_of_mem he
      refine ⟨earlier ++ ActionEvent.completed action.dialogueId update result job :: between,by simp,
        hlog _ _ rest ?_⟩
      rw [hsplit]
      simp
    refine ⟨⟨release,p,action,text,hc,rfl,hu,hr,hjob⟩,?_,?_⟩
    · intro u result' job' hm
      rcases List.mem_append.mp hm with hm | hm
      · exact honce u result' job' hm
      · obtain ⟨before,hin,hj⟩ := hafter hm
        exact hj.2 _ _ _ hin
    · intro q action' hm hid
      obtain ⟨before,hin,hj⟩ := hafter hm
      exact hj.2.2.1 update result job (hid ▸ hin)

namespace OneAction

def result : RepositoryActionResult := ⟨.succeeded,.succeeded,.succeeded,.succeeded⟩

def platform : CaptureContext where
  session _ := .ok ⟨"session",9⟩
  capabilities _ := .ok []
  actionRequest action := some action.target
  applyRepositoryAction _ _ _ := .ok result
  replaceLibraryReadState _ _ _ _ := .ok .read
  resultJson _ := "done"

def pressed (c : Char) (updateId messageId : ℤ) : CallbackPresentation :=
  ⟨(Token.filled c).text,⟨7,updateId⟩,42,42,messageId⟩

def selection : CallbackPresentation := pressed 's' 100 9

def confirmation : CallbackPresentation := pressed 'c' 101 10

def action : ConfirmedAction := ⟨1,.metadata,"target",none,⟨1⟩⟩

def prepared : List (Move ActionMove Call) :=
  [.other (.recordUpdate ⟨7,101,"callback_query","{}"⟩ 0),
    .other (.createRepositoryPreviewDialogue 1 ⟨7,42,42⟩ "target" none
      [(.metadata,.filled 's')] 0 1000),
    .other (.stampCallbackMessage 1 7 42 9),.own 0 (.begins selection),
    .own 0 (.selects (.filled 'c') (.filled 'x') 10 none),.own 0 (.prompts 20 10 none),
    .other (.stampCallbackMessage 1 7 42 10)]

def confirms (i : ℕ) : List (Move ActionMove Call) :=
  [.own i (.begins confirmation),.own i (.selects (.filled 'd') (.filled 'e') 11 none),
    .own i (.decides 11 none),.own i (.opens (.ok ⟨"session",9⟩))]

/-- Two handlers are given the update; a request of the first is lost, and both end the action. -/
def deliveredTwice : List (Move ActionMove Call) :=
  prepared ++ confirms 1 ++ confirms 2 ++
    ([.own 1 (.applies (.error .timeout)),.own 1 (.applies (.ok result)),
      .own 2 (.applies (.ok result)),.own 1 (.completes 21 12 none),
      .own 2 (.completes 22 12 none)] : List (Move ActionMove Call))

def before : List ActionEvent :=
  [.previewed 1 ⟨7,42,42⟩ "target" none [.metadata],.selected selection 1 .metadata,
    .confirmed confirmation action,.confirmed confirmation action,
    .applied 2 42 action (.error .timeout)]

def told : List ActionEvent :=
  before ++ [ActionEvent.applied 2 42 action (.ok result),.applied 3 42 action (.ok result),
    .completed 1 ⟨7,101⟩ (some "done") (resultJob confirmation action result.render)]

theorem told_run : ∃ s, Runs platform deliveredTwice s ∧ s.shared.log = told :=
  exists_run_of_replay (by decide +kernel)

theorem retry_authorized : ∃ s, Runs platform deliveredTwice s ∧
    (∃ p, before[2]? = some (.confirmed p action) ∧ p.actorId = 42 ∧
      Entitled before p.scope action) ∧ tries 2 before < actionAttempts := by
  obtain ⟨s,hs,hlog⟩ := told_run
  obtain ⟨hentitled,-,htries,-⟩ := @actions_authorized _ _ _ hs before
    [.applied 3 42 action (.ok result),.completed 1 ⟨7,101⟩ (some "done")
      (resultJob confirmation action result.render)] _ _ _ _ hlog
  exact ⟨s,hs,hentitled,htries⟩

theorem ended_once : ∃ s, Runs platform deliveredTwice s ∧
    ∀ release release' actorId actorId' action action' answer answer',
      .applied release actorId action answer ∈ s.shared.log →
      .applied release' actorId' action' answer' ∈ s.shared.log →
      action'.idempotencyKey = action.idempotencyKey → action' = action ∧ actorId' = actorId := by
  obtain ⟨s,hs,-⟩ := told_run
  exact ⟨s,hs,(actions_completed_once hs).1⟩

end OneAction

end RepositoryActions

end RatatoskrTelegram
