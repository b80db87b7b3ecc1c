import RatatoskrTelegram.CallEffects

/-!
# What each call does to the tokens

A token is issued once, stamped with the message that shows it, consumed by the
resolver of its surface, and deleted by the cleanup alone.
-/

namespace RatatoskrTelegram

structure ReleasesOperation (p : TokenPresentation) (t : InteractionToken)
    (released : ReleasedToken) : Prop where
  text : t.token.text = p.token
  unconsumed : t.consumedAt = none
  live : p.now < t.expiresAt
  surface : t.surface = p.surface
  botId : t.botId = p.scope.botId
  telegramUserId : t.telegramUserId = p.scope.telegramUserId
  chatId : t.chatId = p.scope.chatId
  messageId : t.expectedMessageId = p.scope.messageId
  action : t.action = .operationStatus
  operationId : t.operationId = some released.operationId
  payload : t.payload = some released.payload

structure ReleasesRead (p : LibraryReadPresentation) (t : InteractionToken) (analysisId : Uuid) :
    Prop where
  text : t.token.text = p.token
  unconsumed : t.consumedAt = none
  live : p.now < t.expiresAt
  surface : t.surface = .command
  action : t.action = .libraryRead
  botId : t.botId = p.scope.botId
  telegramUserId : t.telegramUserId = p.scope.telegramUserId
  internalUserId : t.internalUserId = some p.scope.internalUserId
  chatId : t.chatId = p.scope.chatId
  analysisId : t.analysisId = some analysisId

theorem lockPresented_eq_some {text : List Char} {tokens : Table InteractionToken}
    {t : InteractionToken} (h : lockPresented text tokens = some t) :
    tokens.select t.token = some t ∧ t.token.text = text := by
  unfold lockPresented at h
  split at h
  · obtain ⟨hm,htext⟩ := selectPresented_eq_some.mp h
    exact ⟨Table.select_of_mem hm,htext⟩
  · simp at h

def releasedDatabase (t : InteractionToken) (actorId now : ℤ) (db : Database) : Database :=
  {db with interactionTokens :=
    db.interactionTokens.update (·.token = t.token) (consumeToken actorId now)}

inductive OperationStep (p : TokenPresentation) (db : Database) :
    Except PersistenceError (Except TokenRefusal ReleasedToken) → Database → Prop
  | failed (e : PersistenceError) : OperationStep p db (.error e) db
  | refused (refusal : TokenRefusal) : OperationStep p db (.ok (.error refusal)) db
  | released {t : InteractionToken} {released : ReleasedToken} :
      db.interactionTokens.select t.token = some t → ReleasesOperation p t released →
      OperationStep p db (.ok (.ok released))
        (releasedDatabase t p.scope.telegramUserId p.now db)

theorem consumeInteractionToken_step (p : TokenPresentation) (db : Database) :
    ∃ r t, consumeInteractionToken p db = (r,t) ∧ OperationStep p db r t := by
  dsimp only [consumeInteractionToken,transaction]
  cases hl : lockPresented p.token db.interactionTokens with
  | none => exact ⟨_,_,rfl,.refused _⟩
  | some row =>
    obtain ⟨hs,htext⟩ := lockPresented_eq_some hl
    dsimp only
    by_cases hc : row.consumedAt ≠ none
    · rw [if_pos hc]
      exact ⟨_,_,rfl,.refused _⟩
    · rw [if_neg hc]
      by_cases he : row.expiresAt ≤ p.now
      · rw [if_pos he]
        exact ⟨_,_,rfl,.refused _⟩
      · rw [if_neg he]
        by_cases hscope : row.surface ≠ p.surface ∨ row.botId ≠ p.scope.botId ∨
            row.telegramUserId ≠ p.scope.telegramUserId ∨ row.chatId ≠ p.scope.chatId ∨
            row.expectedMessageId ≠ p.scope.messageId
        · rw [if_pos hscope]
          exact ⟨_,_,rfl,.refused _⟩
        · rw [if_neg hscope]
          push Not at hscope
          obtain ⟨hsurface,hbot,huser,hchat,hmessage⟩ := hscope
          by_cases ha : row.action ≠ .operationStatus
          · rw [if_pos ha]
            exact ⟨_,_,rfl,.refused _⟩
          · rw [if_neg ha]
            cases ho : row.operationId with
            | none => exact ⟨_,_,rfl,.failed _⟩
            | some operationId =>
              cases hp : row.payload with
              | none => exact ⟨_,_,rfl,.failed _⟩
              | some payload =>
                exact ⟨_,_,rfl,.released hs ⟨htext,not_not.mp hc,not_le.mp he,hsurface,hbot,huser,
                  hchat,hmessage,not_not.mp ha,ho,hp⟩⟩

theorem resolveOperationIntent_step (p : TokenPresentation) (db : Database) :
    ∃ r t, resolveOperationIntent p db = (r,t) ∧ OperationStep p db r t ∧
      (p.surface ≠ .deepLink → t = db) := by
  unfold resolveOperationIntent
  split
  · exact ⟨_,_,rfl,.refused _,fun _ => rfl⟩
  · rename_i h
    obtain ⟨r,t,he,hstep⟩ := consumeInteractionToken_step p db
    exact ⟨r,t,he,hstep,fun hn => absurd hn h⟩

inductive ReadStep (p : LibraryReadPresentation) (db : Database) :
    Except PersistenceError (Except TokenRefusal Uuid) → Database → Prop
  | failed (e : PersistenceError) : ReadStep p db (.error e) db
  | refused (refusal : TokenRefusal) : ReadStep p db (.ok (.error refusal)) db
  | released {t : InteractionToken} {analysisId : Uuid} :
      db.interactionTokens.select t.token = some t → ReleasesRead p t analysisId →
      ReadStep p db (.ok (.ok analysisId)) (releasedDatabase t p.scope.telegramUserId p.now db)

theorem resolveLibraryReadIntent_step (p : LibraryReadPresentation) (db : Database) :
    ∃ r t, resolveLibraryReadIntent p db = (r,t) ∧ ReadStep p db r t := by
  dsimp only [resolveLibraryReadIntent,transaction]
  cases hl : lockPresented p.token db.interactionTokens with
  | none => exact ⟨_,_,rfl,.refused _⟩
  | some row =>
    obtain ⟨hs,htext⟩ := lockPresented_eq_some hl
    dsimp only
    cases hu : row.internalUserId with
    | none => exact ⟨_,_,rfl,.failed _⟩
    | some internalUserId =>
      cases han : row.analysisId with
      | none => exact ⟨_,_,rfl,.failed _⟩
      | some analysisId =>
        dsimp only
        by_cases hc : row.consumedAt ≠ none
        · rw [if_pos hc]
          exact ⟨_,_,rfl,.refused _⟩
        · rw [if_neg hc]
          by_cases he : row.expiresAt ≤ p.now
          · rw [if_pos he]
            exact ⟨_,_,rfl,.refused _⟩
          · rw [if_neg he]
            by_cases hscope : row.surface ≠ .command ∨ row.action ≠ .libraryRead ∨
                row.botId ≠ p.scope.botId ∨ row.telegramUserId ≠ p.scope.telegramUserId ∨
                internalUserId ≠ p.scope.internalUserId ∨ row.chatId ≠ p.scope.chatId
            · rw [if_pos hscope]
              exact ⟨_,_,rfl,.refused _⟩
            · rw [if_neg hscope]
              push Not at hscope
              obtain ⟨hsurface,haction,hbot,huser,hinternal,hchat⟩ := hscope
              exact ⟨_,_,rfl,.released hs ⟨htext,not_not.mp hc,not_le.mp he,hsurface,haction,hbot,
                huser,hu.trans (congrArg some hinternal),hchat,han⟩⟩

theorem insertSelections_rows {dialogueId : Uuid} {scope : DialogueScope} {now expiresAt : ℤ}
    {selections : List (RepositoryActionCapability × Token)}
    {tokens after : Table InteractionToken}
    (h : insertSelections dialogueId scope now expiresAt selections tokens = .ok after) :
    Table.Evolves (· = ·) (fun t => t.Checked ∧ ∃ mode token action, (mode,token) ∈ selections ∧
      selectionAction mode = some action ∧
      t = callbackAuthority token action dialogueId scope 0 now expiresAt) tokens after := by
  induction selections generalizing tokens with
  | nil =>
    obtain rfl : tokens = after := by simpa [insertSelections] using h
    exact .refl fun _ => rfl
  | cons selection rest ih =>
    obtain ⟨mode,token⟩ := selection
    simp only [insertSelections] at h
    split at h
    · simp at h
    · rename_i action ha
      split at h
      · simp at h
      · rename_i mid hi
        obtain ⟨hchecked,hi⟩ := insertToken_eq_ok.mp hi
        have hfirst : Table.Evolves (· = ·) (fun t => t.Checked ∧ ∃ mode' token' action',
            (mode',token') ∈ (mode,token) :: rest ∧ selectionAction mode' = some action' ∧
            t = callbackAuthority token' action' dialogueId scope 0 now expiresAt) tokens mid :=
          (Table.Evolves.refl fun _ => rfl).insert hi
            ⟨hchecked,mode,token,action,List.mem_cons_self,ha,rfl⟩
        refine hfirst.trans (fun _ _ _ h k => h.trans k) (fun _ _ h k => k ▸ h) ((ih h).mono
          (fun _ _ h => h) ?_)
        rintro t ⟨hc,mode',token',action',hm,ha',ht⟩
        exact ⟨hc,mode',token',action',List.mem_cons_of_mem _ hm,ha',ht⟩

theorem insertLibraryReads_rows {now : ℤ} {intents : List PreparedLibraryReadIntent}
    {tokens after : Table InteractionToken}
    (h : insertLibraryReads now intents tokens = .ok after) :
    Table.Evolves (· = ·) (fun t => t.Checked ∧ ∃ prepared ∈ intents, t = prepared.row now)
      tokens after := by
  induction intents generalizing tokens with
  | nil =>
    obtain rfl : tokens = after := by simpa [insertLibraryReads] using h
    exact .refl fun _ => rfl
  | cons prepared rest ih =>
    simp only [insertLibraryReads] at h
    split at h
    · simp at h
    · rename_i mid hi
      obtain ⟨hchecked,hi⟩ := insertToken_eq_ok.mp hi
      have hfirst : Table.Evolves (· = ·) (fun t => t.Checked ∧
          ∃ prepared' ∈ prepared :: rest, t = prepared'.row now) tokens mid :=
        (Table.Evolves.refl fun _ => rfl).insert hi ⟨hchecked,prepared,List.mem_cons_self,rfl⟩
      refine hfirst.trans (fun _ _ _ h k => h.trans k) (fun _ _ h k => k ▸ h) ((ih h).mono
        (fun _ _ h => h) ?_)
      rintro t ⟨hc,prepared',hm,ht⟩
      exact ⟨hc,prepared',List.mem_cons_of_mem _ hm,ht⟩

namespace Call

inductive Stamps (db : Database) (dialogueId : Uuid) (botId chatId messageId : ℤ) : Call → Prop
  | acknowledged {bindingId : Uuid} {job : QueuedOutboundJob} {method : AcknowledgedMethod}
      {now : ℤ} {j : OutboundJob} : job.correlationId = some (.dialogue dialogueId) →
      job.botId = botId → job.chatId = chatId → db.outboundJobs.select job.id = some j →
      j.OwnedBy job.id job.attempts →
      Stamps db dialogueId botId chatId messageId
        (.recordOutboundAcknowledgement bindingId job method messageId now)
  | direct : Stamps db dialogueId botId chatId messageId
      (.stampCallbackMessage dialogueId botId chatId messageId)

/-- What a call makes of a stored token, with what it has checked about the row. -/
inductive Retokens (db : Database) (t : InteractionToken) : Call → InteractionToken → Prop
  | stays {c : Call} : Retokens db t c t
  | stamped {c : Call} {d : DialogState} {botId chatId messageId : ℤ} :
      c.Stamps db d.id botId chatId messageId → db.dialogStates.select d.id = some d →
      Stampable d.id botId chatId d → t.dialogueId = some d.id →
      t.expectedDialogueVersion = some d.version → t.consumedAt = none →
      Retokens db t c ((stampToken messageId).set t)
  | selected {p : CallbackPresentation} {confirmToken cancelToken : Token} {now : ℤ}
      {row : LockedCallbackRow} : lockRepositoryCallback p.token db = some row →
      Admitted row p .preview 0 now → row.token = t →
      Retokens db t (.consumeRepositorySelection p confirmToken cancelToken now)
        ((consumeToken p.actorId now).set t)
  | decided {p : CallbackPresentation} {now : ℤ} {row : LockedCallbackRow} :
      lockRepositoryCallback p.token db = some row → Admitted row p .confirming 1 now →
      row.token = t →
      Retokens db t (.consumeRepositoryDecision p now) ((consumeToken p.actorId now).set t)
  | operation {p : TokenPresentation} {released : ReleasedToken} {c : Call} :
      c = .consumeInteractionToken p ∨ c = .resolveOperationIntent p →
      ReleasesOperation p t released →
      Retokens db t c ((consumeToken p.scope.telegramUserId p.now).set t)
  | read {p : LibraryReadPresentation} {analysisId : Uuid} : ReleasesRead p t analysisId →
      Retokens db t (.resolveLibraryReadIntent p)
        ((consumeToken p.scope.telegramUserId p.now).set t)

inductive Issues (db : Database) : Call → InteractionToken → Prop
  | selection {dialogueId : Uuid} {scope : DialogueScope} {target : Json}
      {accountRef : Option Json} {selections : List (RepositoryActionCapability × Token)}
      {now expiresAt : ℤ} {mode : RepositoryActionCapability} {token : Token}
      {action : TokenAction} : db.dialogStates.select dialogueId = none → now < expiresAt →
      (mode,token) ∈ selections → selectionAction mode = some action →
      Issues db (.createRepositoryPreviewDialogue dialogueId scope target accountRef selections now
        expiresAt) (callbackAuthority token action dialogueId scope 0 now expiresAt)
  | confirmation {p : CallbackPresentation} {confirmToken cancelToken token : Token} {now : ℤ}
      {row : LockedCallbackRow} {mode : RepositoryActionCapability} {action : TokenAction} :
      lockRepositoryCallback p.token db = some row → Admitted row p .preview 0 now →
      repositoryMode row.token.action = some mode →
      (token = confirmToken ∧ action = .confirm) ∨ (token = cancelToken ∧ action = .cancel) →
      Issues db (.consumeRepositorySelection p confirmToken cancelToken now)
        (callbackAuthority token action row.dialogue.id ⟨p.update.botId,p.actorId,p.chatId⟩ 1 now
          (min row.token.expiresAt row.dialogue.expiresAt))
  | captured {bindingId : Uuid} {token : Token} {jobId : Uuid} {intent : NewOperationIntent}
      {acknowledgement : NewOutboundJob} {now : ℤ} : (intent.row token now).Checked →
      Issues db (.recordAcceptedCaptureProjection bindingId token jobId intent acknowledgement now)
        (intent.row token now)
  | delivered {intents : List PreparedLibraryReadIntent} {jobId : Uuid} {job : NewOutboundJob}
      {now : ℤ} {prepared : PreparedLibraryReadIntent} : prepared ∈ intents →
      (prepared.row now).Checked →
      Issues db (.enqueueLibraryReadDelivery intents jobId job now) (prepared.row now)
  | operation {token : Token} {intent : NewOperationIntent} {now : ℤ} :
      (intent.row token now).Checked →
      Issues db (.issueOperationIntent token intent now) (intent.row token now)
  | read {prepared : PreparedLibraryReadIntent} {now : ℤ} : (prepared.row now).Checked →
      Issues db (.issueLibraryReadIntent prepared now) (prepared.row now)

inductive Deletes (db : Database) (t : InteractionToken) : Call → Prop
  | cleaned {lockedDialogues : Finset Uuid} {lockedTokens : Finset Token}
      {now terminalBefore : ℤ} {batchSize : ℕ} :
      Removable (db.dialogStates.update
        (·.id ∈ expiryBatch lockedDialogues now batchSize db.dialogStates) (expireDialogue now))
        db.messageBindings now t →
      Deletes db t (.cleanupInteractions lockedDialogues lockedTokens now terminalBefore batchSize)

theorem stampCallback_tokens {c : Call} {db : Database} {dialogueId : Uuid}
    {botId chatId messageId : ℤ} (hc : c.Stamps db dialogueId botId chatId messageId) :
    Table.Evolves (c.Retokens db) (c.Issues db) db.interactionTokens
      (stampCallback dialogueId botId chatId messageId db).interactionTokens := by
  unfold stampCallback
  split
  · exact .refl fun _ => .stays
  · rename_i d hd
    obtain ⟨hs,hp⟩ := Option.filter_eq_some_iff.mp hd
    obtain rfl : d.id = dialogueId := Table.key_of_select hs
    refine Table.Evolves.update (fun _ => .stays) ?_
    rintro t _ ⟨hid,hv,hn⟩
    exact .stamped hc hs (by simpa using hp) hid hv hn

theorem consumed_tokens {c : Call} {db : Database} {row : InteractionToken} {actorId now : ℤ}
    (hrow : row ∈ db.interactionTokens)
    (h : c.Retokens db row ((consumeToken actorId now).set row)) :
    Table.Evolves (c.Retokens db) (c.Issues db) db.interactionTokens
      (db.interactionTokens.update (·.token = row.token) (consumeToken actorId now)) := by
  refine Table.Evolves.update (fun _ => .stays) ?_
  intro t ht hkey
  obtain rfl : t = row := Table.eq_of_key ht hrow hkey
  exact h

theorem transaction_tokens {α : Type} {c : Call} {db : Database}
    {body : Database → Ending Database PersistenceError α}
    (h : ∀ v t, body db = .commit v t →
      Table.Evolves (c.Retokens db) (c.Issues db) db.interactionTokens t.interactionTokens) :
    Table.Evolves (c.Retokens db) (c.Issues db) db.interactionTokens
      (transaction body db).2.interactionTokens :=
  transaction_rel (R := fun s t : Database => Table.Evolves (c.Retokens db) (c.Issues db)
    s.interactionTokens t.interactionTokens) (.refl fun _ => .stays) h

theorem issued_tokens {c : Call} {db : Database} {row : InteractionToken}
    (h : row.Checked → c.Issues db row) :
    Table.Evolves (c.Retokens db) (c.Issues db) db.interactionTokens
      (issueToken row db).2.interactionTokens := by
  refine transaction_tokens ?_
  intro v t ht
  split at ht
  · simp at ht
  · rename_i tokens hi
    obtain ⟨-,rfl⟩ := Ending.commit.inj ht
    obtain ⟨hc,hi⟩ := insertToken_eq_ok.mp hi
    exact Table.Evolves.insert (.refl fun _ => .stays) hi (h hc)

section Calls

variable {c : Call} {db : Database} {now : ℤ}

theorem recordAcceptedCaptureProjection_tokens {bindingId jobId : Uuid} {token : Token}
    {intent : NewOperationIntent} {acknowledgement : NewOutboundJob}
    (hc : c = .recordAcceptedCaptureProjection bindingId token jobId intent acknowledgement now) :
    Table.Evolves (c.Retokens db) (c.Issues db) db.interactionTokens
      (c.apply db).interactionTokens := by
  subst hc
  have hrefl : Table.Evolves (Retokens db · (.recordAcceptedCaptureProjection bindingId token jobId
      intent acknowledgement now)) (Issues db (.recordAcceptedCaptureProjection bindingId token
      jobId intent acknowledgement now)) db.interactionTokens db.interactionTokens :=
    .refl fun _ => .stays
  obtain ⟨r,t,he,h⟩ :=
    recordAcceptedCaptureProjection_step bindingId token jobId intent acknowledgement now db
  have hissued {tokens : Table InteractionToken}
      (h : IntentStep token intent now db.interactionTokens tokens) :
      Table.Evolves (Retokens db · (.recordAcceptedCaptureProjection bindingId token jobId intent
          acknowledgement now)) (Issues db (.recordAcceptedCaptureProjection bindingId token jobId
          intent acknowledgement now)) db.interactionTokens tokens := by
    cases h with
    | found _ _ => exact hrefl
    | minted hc hi => exact hrefl.insert hi (.captured hc)
  rw [apply,he]
  cases h with
  | failed e => exact hrefl
  | reconciled _ _ _ ht _ => exact hissued ht
  | enqueued _ _ _ ht _ _ _ => exact hissued ht

theorem enqueueLibraryReadDelivery_tokens {intents : List PreparedLibraryReadIntent} {jobId : Uuid}
    {job : NewOutboundJob} (hc : c = .enqueueLibraryReadDelivery intents jobId job now) :
    Table.Evolves (c.Retokens db) (c.Issues db) db.interactionTokens
      (c.apply db).interactionTokens := by
  subst hc
  refine transaction_tokens ?_
  intro v t h
  split at h
  · simp at h
  · split at h
    · simp at h
    · rename_i tokens hi
      split at h
      · simp at h
      · obtain ⟨-,rfl⟩ := Ending.commit.inj h
        refine (insertLibraryReads_rows hi).mono ?_ ?_
        · rintro r _ rfl
          exact .stays
        · rintro r ⟨hc,prepared,hm,rfl⟩
          exact .delivered hm hc

theorem recordOutboundAcknowledgement_tokens {bindingId : Uuid} {job : QueuedOutboundJob}
    {method : AcknowledgedMethod} {messageId : ℤ}
    (hc : c = .recordOutboundAcknowledgement bindingId job method messageId now) :
    Table.Evolves (c.Retokens db) (c.Issues db) db.interactionTokens
      (c.apply db).interactionTokens := by
  subst hc
  rcases recordOutboundAcknowledgement_writes bindingId job method messageId now db with
    h | ⟨j,hj,hown,h⟩
  · rw [apply,h]
    exact .refl fun _ => .stays
  · rw [apply,h]
    dsimp only [acknowledged,applyAcknowledgement,applyCallbackStamp]
    split
    · rename_i dialogueId hcorr
      exact stampCallback_tokens (.acknowledged hcorr rfl rfl hj hown)
    · exact .refl fun _ => .stays

theorem createRepositoryPreviewDialogue_tokens {dialogueId : Uuid} {scope : DialogueScope}
    {target : Json} {accountRef : Option Json}
    {selections : List (RepositoryActionCapability × Token)} {expiresAt : ℤ}
    (hc : c = .createRepositoryPreviewDialogue dialogueId scope target accountRef
      selections now expiresAt) :
    Table.Evolves (c.Retokens db) (c.Issues db) db.interactionTokens
      (c.apply db).interactionTokens := by
  subst hc
  refine transaction_tokens ?_
  intro v t h
  split at h
  · rename_i hlt
    split at h
    · simp at h
    · rename_i dialogues hd
      split at h
      · simp at h
      · rename_i tokens hi
        obtain ⟨-,rfl⟩ := Ending.commit.inj h
        refine (insertSelections_rows hi).mono ?_ ?_
        · rintro r _ rfl
          exact .stays
        · rintro r ⟨_,mode,token,action,hm,ha,rfl⟩
          exact .selection (Table.insert_eq_some.mp hd).1 hlt hm ha
  · simp at h

theorem stampCallbackMessage_tokens {dialogueId : Uuid} {botId chatId messageId : ℤ}
    (hc : c = .stampCallbackMessage dialogueId botId chatId messageId) :
    Table.Evolves (c.Retokens db) (c.Issues db) db.interactionTokens
      (c.apply db).interactionTokens := by
  subst hc
  refine transaction_tokens ?_
  intro v t h
  split at h
  · obtain ⟨-,rfl⟩ := Ending.commit.inj h
    exact stampCallback_tokens .direct
  · simp at h

theorem consumeRepositorySelection_tokens {p : CallbackPresentation}
    {confirmToken cancelToken : Token}
    (hc : c = .consumeRepositorySelection p confirmToken cancelToken now) :
    Table.Evolves (c.Retokens db) (c.Issues db) db.interactionTokens
      (c.apply db).interactionTokens := by
  subst hc
  obtain ⟨r,t,he,h⟩ := consumeRepositorySelection_step p confirmToken cancelToken now db
  rw [apply,he]
  cases h with
  | selected hl hadm hm hconfirm hcancel =>
    have hrow := (lockRepositoryCallback_eq_some hl).1
    have hconsumed := consumed_tokens (c := .consumeRepositorySelection p confirmToken cancelToken
      now) hrow (.selected hl hadm rfl)
    exact (hconsumed.insert hconfirm (.confirmation hl hadm hm
      (Or.inl ⟨rfl,rfl⟩))).insert hcancel (.confirmation hl hadm hm (Or.inr ⟨rfl,rfl⟩))
  | _ => exact .refl fun _ => .stays

theorem consumeRepositoryDecision_tokens {p : CallbackPresentation}
    (hc : c = .consumeRepositoryDecision p now) :
    Table.Evolves (c.Retokens db) (c.Issues db) db.interactionTokens
      (c.apply db).interactionTokens := by
  subst hc
  obtain ⟨r,t,he,h⟩ := consumeRepositoryDecision_step p now db
  rw [apply,he]
  cases h with
  | cancelled hl hadm _ =>
    exact consumed_tokens (lockRepositoryCallback_eq_some hl).1 (.decided hl hadm rfl)
  | released hl hadm _ _ =>
    exact consumed_tokens (lockRepositoryCallback_eq_some hl).1 (.decided hl hadm rfl)
  | _ => exact .refl fun _ => .stays

end Calls

/-- What each call does to the tokens. -/
theorem tokens_change (c : Call) (db : Database) :
    Table.Revises (c.Retokens db) (fun t => c.Deletes db t) (c.Issues db) db.interactionTokens
      (c.apply db).interactionTokens := by
  have hrefl : Table.Evolves (c.Retokens db) (c.Issues db) db.interactionTokens
      db.interactionTokens := .refl fun _ => .stays
  cases c with
  | cleanupInteractions lockedDialogues lockedTokens now terminalBefore batchSize =>
    refine .delete (fun _ => .stays) ?_
    intro t ht hbatch
    exact .cleaned ((mem_tokenBatch ht).mp hbatch).1
  | recordAcceptedCaptureProjection bindingId token jobId intent acknowledgement now =>
    exact .of_evolves (recordAcceptedCaptureProjection_tokens rfl)
  | enqueueLibraryReadDelivery intents jobId job now =>
    exact .of_evolves (enqueueLibraryReadDelivery_tokens rfl)
  | recordOutboundAcknowledgement bindingId job method messageId now =>
    exact .of_evolves (recordOutboundAcknowledgement_tokens rfl)
  | createRepositoryPreviewDialogue dialogueId scope target accountRef selections now expiresAt =>
    exact .of_evolves (createRepositoryPreviewDialogue_tokens rfl)
  | stampCallbackMessage dialogueId botId chatId messageId =>
    exact .of_evolves (stampCallbackMessage_tokens rfl)
  | consumeRepositorySelection p confirmToken cancelToken now =>
    exact .of_evolves (consumeRepositorySelection_tokens rfl)
  | consumeRepositoryDecision p now => exact .of_evolves (consumeRepositoryDecision_tokens rfl)
  | issueOperationIntent token intent now => exact .of_evolves (issued_tokens .operation)
  | issueLibraryReadIntent prepared now => exact .of_evolves (issued_tokens .read)
  | consumeInteractionToken p =>
    obtain ⟨r,t,he,h⟩ := consumeInteractionToken_step p db
    rw [apply,he]
    cases h with
    | released hs hrel =>
      exact .of_evolves (consumed_tokens (Table.mem_of_select hs) (.operation (Or.inl rfl) hrel))
    | _ => exact .of_evolves hrefl
  | resolveOperationIntent p =>
    obtain ⟨r,t,he,h,_⟩ := resolveOperationIntent_step p db
    rw [apply,he]
    cases h with
    | released hs hrel =>
      exact .of_evolves (consumed_tokens (Table.mem_of_select hs) (.operation (Or.inr rfl) hrel))
    | _ => exact .of_evolves hrefl
  | resolveLibraryReadIntent p =>
    obtain ⟨r,t,he,h⟩ := resolveLibraryReadIntent_step p db
    rw [apply,he]
    cases h with
    | released hs hrel =>
      exact .of_evolves (consumed_tokens (Table.mem_of_select hs) (.read hrel))
    | _ => exact .of_evolves hrefl
  | _ =>
    rw [(frame _ db).interactionTokens (by simp [writes])]
    exact .of_evolves hrefl

/-- The columns no statement writes once a token is issued. -/
structure SameAuthority (t t' : InteractionToken) : Prop where
  token : t'.token = t.token
  surface : t'.surface = t.surface
  action : t'.action = t.action
  botId : t'.botId = t.botId
  telegramUserId : t'.telegramUserId = t.telegramUserId
  internalUserId : t'.internalUserId = t.internalUserId
  chatId : t'.chatId = t.chatId
  dialogueId : t'.dialogueId = t.dialogueId
  version : t'.expectedDialogueVersion = t.expectedDialogueVersion
  operationId : t'.operationId = t.operationId
  analysisId : t'.analysisId = t.analysisId
  payload : t'.payload = t.payload
  createdAt : t'.createdAt = t.createdAt
  expiresAt : t'.expiresAt = t.expiresAt

theorem SameAuthority.refl (t : InteractionToken) : SameAuthority t t :=
  ⟨rfl,rfl,rfl,rfl,rfl,rfl,rfl,rfl,rfl,rfl,rfl,rfl,rfl,rfl⟩

theorem SameAuthority.trans {t u v : InteractionToken} (h : SameAuthority t u)
    (k : SameAuthority u v) : SameAuthority t v where
  token := k.token.trans h.token
  surface := k.surface.trans h.surface
  action := k.action.trans h.action
  botId := k.botId.trans h.botId
  telegramUserId := k.telegramUserId.trans h.telegramUserId
  internalUserId := k.internalUserId.trans h.internalUserId
  chatId := k.chatId.trans h.chatId
  dialogueId := k.dialogueId.trans h.dialogueId
  version := k.version.trans h.version
  operationId := k.operationId.trans h.operationId
  analysisId := k.analysisId.trans h.analysisId
  payload := k.payload.trans h.payload
  createdAt := k.createdAt.trans h.createdAt
  expiresAt := k.expiresAt.trans h.expiresAt

theorem Retokens.same {db : Database} {c : Call} {t t' : InteractionToken}
    (h : c.Retokens db t t') : SameAuthority t t' := by
  cases h <;> exact ⟨rfl,rfl,rfl,rfl,rfl,rfl,rfl,rfl,rfl,rfl,rfl,rfl,rfl,rfl⟩

/-- Only an unconsumed token is written at all. -/
theorem Retokens.of_consumed {db : Database} {c : Call} {t t' : InteractionToken}
    (h : c.Retokens db t t') (hc : t.consumedAt ≠ none) : t' = t := by
  cases h with
  | stays => rfl
  | stamped _ _ _ _ _ hn => exact absurd hn hc
  | selected _ hadm ht => exact absurd (ht ▸ hadm.unconsumed) hc
  | decided _ hadm ht => exact absurd (ht ▸ hadm.unconsumed) hc
  | operation _ hrel => exact absurd hrel.unconsumed hc
  | read hrel => exact absurd hrel.unconsumed hc

end Call

end RatatoskrTelegram
