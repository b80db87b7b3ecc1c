import RatatoskrTelegram.InteractionTokens
import RatatoskrTelegram.MessageBindings

/-!
# The projection of an accepted capture

One transaction creates, or finds, the binding, the opaque intent and the
acknowledgement of a capture.
-/

namespace RatatoskrTelegram

def ValidProjection (intent : NewOperationIntent) (acknowledgement : NewOutboundJob) : Prop :=
  intent.scope.messageId = none ∧ acknowledgement.botId = intent.scope.botId ∧
    acknowledgement.chatId = intent.scope.chatId ∧ acknowledgement.kind = .sendMessage ∧
    acknowledgement.operationId = some intent.operationId ∧ acknowledgement.revision = none

instance (intent : NewOperationIntent) (acknowledgement : NewOutboundJob) :
    Decidable (ValidProjection intent acknowledgement) := by
  delta ValidProjection
  infer_instance

/-- A live, unconsumed deep link of the same owner and operation. -/
def LiveIntent (intent : NewOperationIntent) (now : ℤ) (t : InteractionToken) : Prop :=
  t.surface = .deepLink ∧ t.action = .operationStatus ∧ t.botId = intent.scope.botId ∧
    t.telegramUserId = intent.scope.telegramUserId ∧ t.chatId = intent.scope.chatId ∧
    t.operationId = some intent.operationId ∧ t.consumedAt = none ∧ now < t.expiresAt

instance (intent : NewOperationIntent) (now : ℤ) : DecidablePred (LiveIntent intent now) :=
  fun t => by
    delta LiveIntent
    infer_instance

/-- A send of the same bot and binding that carries no revision. -/
def IsAcknowledgement (botId : ℤ) (operationId : Uuid) (chatId : ℤ) (j : OutboundJob) : Prop :=
  j.Of operationId chatId ∧ j.botId = botId ∧ j.kind = .sendMessage ∧ j.revision = none

instance (botId : ℤ) (operationId : Uuid) (chatId : ℤ) :
    DecidablePred (IsAcknowledgement botId operationId chatId) := fun j => by
  delta IsAcknowledgement
  infer_instance

/-- `bindingId`, `token` and `jobId` are minted for the rows the call may have to create. -/
def recordAcceptedCaptureProjection (bindingId : Uuid) (token : Token) (jobId : Uuid)
    (intent : NewOperationIntent) (acknowledgement : NewOutboundJob) (now : ℤ) :
    Database → Except PersistenceError Unit × Database :=
  transaction fun db =>
    if ValidProjection intent acknowledgement then
      let bindings := insertBindingIfAbsent bindingId intent.scope.botId intent.operationId
        intent.scope.chatId db.messageBindings
      match bindings.select (intent.operationId,intent.scope.chatId) with
      | none => .abort (.query .rowNotFound)
      | some binding =>
        if binding.botId ≠ intent.scope.botId then .abort .invalidCaptureProjection
        else
          let issued := if db.interactionTokens.any (LiveIntent intent now) then
              .ok db.interactionTokens
            else insertToken (intent.row token now) db.interactionTokens
          match issued with
          | .error e => .abort e
          | .ok tokens =>
            if binding.messageId ≠ none ∨ db.outboundJobs.any (IsAcknowledgement
                intent.scope.botId intent.operationId intent.scope.chatId) then
              .commit () {db with messageBindings := bindings, interactionTokens := tokens}
            else
              match insertOutboundJob jobId acknowledgement now db.outboundJobs with
              | none => .abort (.query .uniqueViolation)
              | some jobs => .commit () {db with
                  messageBindings := bindings
                  interactionTokens := tokens
                  outboundJobs := jobs}
    else .abort .invalidCaptureProjection

inductive IntentStep (token : Token) (intent : NewOperationIntent) (now : ℤ)
    (tokens : Table InteractionToken) : Table InteractionToken → Prop
  | found {t : InteractionToken} : t ∈ tokens → LiveIntent intent now t →
      IntentStep token intent now tokens tokens
  | minted {after : Table InteractionToken} : (intent.row token now).Checked →
      tokens.insert (intent.row token now) = some after →
      IntentStep token intent now tokens after

theorem intentStep_of_issued {token : Token} {intent : NewOperationIntent} {now : ℤ}
    {tokens after : Table InteractionToken}
    (h : (if tokens.any (LiveIntent intent now) then Except.ok tokens
      else insertToken (intent.row token now) tokens) = .ok after) :
    IntentStep token intent now tokens after := by
  split at h
  · rename_i hany
    obtain rfl := Except.ok.inj h
    obtain ⟨t,ht,hlive⟩ := Table.any_iff.mp hany
    exact .found ht hlive
  · obtain ⟨hc,hi⟩ := insertToken_eq_ok.mp h
    exact .minted hc hi

/-- The exits of a capture projection. The acknowledgement is enqueued only for a binding without
a message, and only once. -/
inductive CaptureStep (bindingId : Uuid) (token : Token) (jobId : Uuid)
    (intent : NewOperationIntent) (acknowledgement : NewOutboundJob) (now : ℤ) (db : Database) :
    Except PersistenceError Unit → Database → Prop
  | failed (e : PersistenceError) :
      CaptureStep bindingId token jobId intent acknowledgement now db (.error e) db
  | reconciled {binding : MessageBinding} {tokens : Table InteractionToken} :
      ValidProjection intent acknowledgement →
      (insertBindingIfAbsent bindingId intent.scope.botId intent.operationId intent.scope.chatId
        db.messageBindings).select (intent.operationId,intent.scope.chatId) = some binding →
      binding.botId = intent.scope.botId →
      IntentStep token intent now db.interactionTokens tokens →
      binding.messageId ≠ none ∨ db.outboundJobs.any (IsAcknowledgement intent.scope.botId
        intent.operationId intent.scope.chatId) = true →
      CaptureStep bindingId token jobId intent acknowledgement now db (.ok ()) {db with
        messageBindings := insertBindingIfAbsent bindingId intent.scope.botId intent.operationId
          intent.scope.chatId db.messageBindings
        interactionTokens := tokens}
  | enqueued {binding : MessageBinding} {tokens : Table InteractionToken}
      {jobs : Table OutboundJob} : ValidProjection intent acknowledgement →
      (insertBindingIfAbsent bindingId intent.scope.botId intent.operationId intent.scope.chatId
        db.messageBindings).select (intent.operationId,intent.scope.chatId) = some binding →
      binding.botId = intent.scope.botId →
      IntentStep token intent now db.interactionTokens tokens → binding.messageId = none →
      db.outboundJobs.any (IsAcknowledgement intent.scope.botId intent.operationId
        intent.scope.chatId) = false →
      db.outboundJobs.insert (acknowledgement.row jobId now) = some jobs →
      CaptureStep bindingId token jobId intent acknowledgement now db (.ok ()) {db with
        messageBindings := insertBindingIfAbsent bindingId intent.scope.botId intent.operationId
          intent.scope.chatId db.messageBindings
        interactionTokens := tokens
        outboundJobs := jobs}

theorem recordAcceptedCaptureProjection_step (bindingId : Uuid) (token : Token) (jobId : Uuid)
    (intent : NewOperationIntent) (acknowledgement : NewOutboundJob) (now : ℤ) (db : Database) :
    ∃ r t, recordAcceptedCaptureProjection bindingId token jobId intent acknowledgement now db =
        (r,t) ∧ CaptureStep bindingId token jobId intent acknowledgement now db r t := by
  unfold recordAcceptedCaptureProjection transaction
  by_cases hv : ValidProjection intent acknowledgement
  · simp only [hv,if_true]
    cases hb : (insertBindingIfAbsent bindingId intent.scope.botId intent.operationId
        intent.scope.chatId db.messageBindings).select
        (intent.operationId,intent.scope.chatId) with
    | none => exact ⟨_,_,rfl,.failed _⟩
    | some binding =>
      by_cases hbot : binding.botId = intent.scope.botId
      · simp only [hbot,ne_eq,not_true_eq_false,if_false]
        cases hi : (if db.interactionTokens.any (LiveIntent intent now) then
            Except.ok db.interactionTokens
          else insertToken (intent.row token now) db.interactionTokens) with
        | error e => exact ⟨_,_,rfl,.failed e⟩
        | ok tokens =>
          by_cases hack : binding.messageId ≠ none ∨ db.outboundJobs.any (IsAcknowledgement
              intent.scope.botId intent.operationId intent.scope.chatId) = true
          · simp only [hack,if_true]
            exact ⟨_,_,rfl,.reconciled hv hb hbot (intentStep_of_issued hi) hack⟩
          · simp only [hack,if_false]
            push Not at hack
            rw [insertOutboundJob_unrevised hv.2.2.2.2.2]
            cases hj : db.outboundJobs.insert (acknowledgement.row jobId now) with
            | none => exact ⟨_,_,rfl,.failed _⟩
            | some jobs =>
              exact ⟨_,_,rfl,.enqueued hv hb hbot (intentStep_of_issued hi) hack.1
                (Bool.eq_false_iff.mpr hack.2) hj⟩
      · simp only [ne_eq,hbot,not_false_eq_true,if_true]
        exact ⟨_,_,rfl,.failed _⟩
  · simp only [hv,if_false]
    exact ⟨_,_,rfl,.failed _⟩

theorem CaptureStep.live {bindingId : Uuid} {token : Token} {jobId : Uuid}
    {intent : NewOperationIntent} {acknowledgement : NewOutboundJob} {now : ℤ} {db db' : Database}
    (h : CaptureStep bindingId token jobId intent acknowledgement now db (.ok ()) db') :
    ∃ t ∈ db'.interactionTokens, LiveIntent intent now t := by
  have hissued {tokens : Table InteractionToken}
      (hi : IntentStep token intent now db.interactionTokens tokens) :
      ∃ t ∈ tokens, LiveIntent intent now t := by
    cases hi with
    | found ht hl => exact ⟨_,ht,hl⟩
    | minted hc hm =>
      exact ⟨_,(Table.mem_insert hm).mpr (Or.inr rfl),rfl,rfl,rfl,rfl,rfl,rfl,rfl,hc.1⟩
  cases h with
  | reconciled _ _ _ hi _ => exact hissued hi
  | enqueued _ _ _ hi _ _ _ => exact hissued hi

theorem recordAcceptedCaptureProjection_created {bindingId : Uuid} {token : Token} {jobId : Uuid}
    {intent : NewOperationIntent} {acknowledgement : NewOutboundJob} {now : ℤ} {db : Database}
    {b : MessageBinding} (hn : db.messageBindings.select (b.operationId,b.chatId) = none)
    (hb : (recordAcceptedCaptureProjection bindingId token jobId intent acknowledgement now
      db).2.messageBindings.select (b.operationId,b.chatId) = some b) :
    b.messageId = none ∧
      ∃ j ∈ (recordAcceptedCaptureProjection bindingId token jobId intent acknowledgement now
        db).2.outboundJobs, IsAcknowledgement b.botId b.operationId b.chatId j := by
  obtain ⟨r,t,he,h⟩ :=
    recordAcceptedCaptureProjection_step bindingId token jobId intent acknowledgement now db
  rw [he] at hb ⊢
  -- the created row is that of the intent, so the acknowledgement looked for is its own
  have hnew (hb : (insertBindingIfAbsent bindingId intent.scope.botId intent.operationId
      intent.scope.chatId db.messageBindings).select (b.operationId,b.chatId) = some b) :
      b = newBinding bindingId intent.scope.botId intent.operationId intent.scope.chatId none := by
    rw [insertBindingIfAbsent_select,hn,Option.none_or] at hb
    split at hb
    · exact (Option.some.inj hb).symm
    · simp at hb
  cases h with
  | failed _ => exact absurd (hn.symm.trans hb) (by simp)
  | @reconciled binding _ _ hsel _ _ hack =>
    obtain rfl := hnew hb
    obtain rfl : binding = newBinding bindingId intent.scope.botId intent.operationId
        intent.scope.chatId none := Option.some.inj (hsel.symm.trans hb)
    refine ⟨rfl,?_⟩
    rcases hack with hm | ha
    · exact absurd rfl hm
    · exact Table.any_iff.mp ha
  | enqueued hv _ _ _ _ _ hi =>
    obtain rfl := hnew hb
    exact ⟨rfl,_,(Table.mem_insert hi).mpr (Or.inr rfl),⟨hv.2.2.2.2.1,hv.2.2.1⟩,hv.2.1,
      hv.2.2.2.1,hv.2.2.2.2.2⟩

end RatatoskrTelegram
