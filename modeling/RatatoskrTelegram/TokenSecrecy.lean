import RatatoskrTelegram.CallbackScope
import RatatoskrTelegram.TokenHandlers

/-!
# What a presentation tells about a token

Two states differ in one token and its dialogue, and the presenter stands
outside the scope of that token in both. The presenter sees the outcome of the
update and the reply in the queue.
-/

namespace RatatoskrTelegram

def NamesDialogue (text : List Char) (id : Uuid) (db : Database) : Prop :=
  ∃ t ∈ db.interactionTokens, t.token.text = text ∧ t.dialogueId = some id

/-- The states agree on everything but the token of that text and its dialogue. -/
structure DifferAt (text : List Char) (db₁ db₂ : Database) : Prop where
  updates : db₁.updates = db₂.updates
  messageBindings : db₁.messageBindings = db₂.messageBindings
  outboundJobs : db₁.outboundJobs = db₂.outboundJobs
  inbox : db₁.inbox = db₂.inbox
  notificationDecisions : db₁.notificationDecisions = db₂.notificationDecisions
  transportFailures : db₁.transportFailures = db₂.transportFailures
  interactionTokens : ∀ token : Token, token.text ≠ text →
    db₁.interactionTokens.select token = db₂.interactionTokens.select token
  dialogStates : ∀ id, ¬ NamesDialogue text id db₁ → ¬ NamesDialogue text id db₂ →
    db₁.dialogStates.select id = db₂.dialogStates.select id

/-- The row was issued to this presenter, for this surface. -/
def Presentation.InScope (context : CaptureContext) (t : InteractionToken) : Presentation → Prop
  | .callback p => t.surface = .callback ∧ t.botId = p.update.botId ∧
      t.telegramUserId = p.actorId ∧ t.chatId = p.chatId ∧ t.expectedMessageId = some p.messageId
  | .start p => t.surface = .deepLink ∧ t.botId = p.botId ∧ t.telegramUserId = p.senderId ∧
      t.chatId = p.chatId ∧ t.expectedMessageId = none
  | .read p => t.surface = .command ∧ t.botId = p.botId ∧ t.telegramUserId = p.senderId ∧
      t.chatId = p.chatId ∧
      ∃ session, context.session p.senderId = .ok session ∧ t.internalUserId = some session.userId

/-- Whatever the state holds under the presented text was issued to someone else, or for another
surface. -/
def Presentation.Foreign (context : CaptureContext) (q : Presentation) (db : Database) : Prop :=
  ∀ t ∈ db.interactionTokens, t.token.text = q.token → ¬ q.InScope context t

/-- What the presenter sees: the outcome of the update and the queue with the reply. -/
def observed (r : ProcessingOutcome × Database) : ProcessingOutcome × Table OutboundJob :=
  (r.1,r.2.outboundJobs)

section Callback

variable {context : CaptureContext} {minted : Minted} {p : CallbackPresentation} {now : ℤ}
  {db : Database} {row : LockedCallbackRow}

def HoldsExpired (text : List Char) (now : ℤ) (db : Database) : Prop :=
  ∃ row ∈ lockRepositoryCallback text db, row.token.consumedAt = none ∧
    (row.token.expiresAt ≤ now ∨ row.dialogue.expiresAt ≤ now)

instance (text : List Char) (now : ℤ) (db : Database) : Decidable (HoldsExpired text now db) := by
  delta HoldsExpired
  infer_instance

theorem scope_of_foreign (hf : (Presentation.callback p).Foreign context db)
    (hl : lockRepositoryCallback p.token db = some row) :
    callbackScopeValid row p = false ∧ recoveryScopeValid row p = false := by
  obtain ⟨hm,htext,hs,-,-⟩ := lockRepositoryCallback_eq_some hl
  have hout : ¬ (row.SameOwner p ∧ row.token.expectedMessageId = some p.messageId) := by
    rintro ⟨⟨hb,hu,hc,-⟩,hmessage⟩
    exact hf row.token hm htext ⟨hs,hb,hu,hc,hmessage⟩
  constructor
  · exact decide_eq_false fun h => hout ⟨h.1,h.2.1⟩
  · exact decide_eq_false hout

theorem consumeRepositorySelection_foreign (hf : (Presentation.callback p).Foreign context db)
    (confirmToken cancelToken : Token) (now : ℤ) :
    (HoldsExpired p.token now db ∧ ∃ after, after.outboundJobs = db.outboundJobs ∧
      consumeRepositorySelection p confirmToken cancelToken now db =
        (.ok (.error .expired),after)) ∨
    (¬ HoldsExpired p.token now db ∧ ∃ refusal, refusal ≠ .expired ∧
      consumeRepositorySelection p confirmToken cancelToken now db =
        (.ok (.error refusal),db)) := by
  cases hl : lockRepositoryCallback p.token db with
  | none =>
    refine Or.inr ⟨by simp [HoldsExpired,hl],.invalid,by simp,?_⟩
    simp only [consumeRepositorySelection,transaction,hl]
  | some row =>
    have hscope := (scope_of_foreign hf hl).1
    obtain ⟨refusal,hv,hr⟩ := refuse_of_mismatch ConfirmationTransition now db hscope .preview 0
    have hrefusal := @validateCallback_of_mismatch p now row hscope .preview 0
    rw [hv] at hrefusal
    rw [consumeRepositorySelection_refused hl hv,hr]
    by_cases hc : row.token.consumedAt = none
    · by_cases he : row.token.expiresAt ≤ now ∨ row.dialogue.expiresAt ≤ now
      · obtain rfl : refusal = .expired := by simpa [hc,he] using hrefusal
        refine Or.inl ⟨⟨row,hl,hc,he⟩,_,?_,rfl⟩
        split <;> rfl
      · obtain rfl : refusal = .invalid := by simpa [hc,he] using hrefusal
        refine Or.inr ⟨by simp [HoldsExpired,hl,he],.invalid,by simp,?_⟩
        rw [if_neg fun h => he (Or.inr h.2)]
    · obtain rfl : refusal = .consumed := by simpa [hc] using hrefusal
      refine Or.inr ⟨by simp [HoldsExpired,hl,hc],.consumed,by simp,?_⟩
      rw [if_neg fun h => hc h.1]

theorem recoverConsumedConfirmation_foreign (hscope : recoveryScopeValid row p = false) :
    transaction (fun _ => recoverConsumedConfirmation row p) db = (.ok (.error .consumed),db) := by
  have hout : ¬ (row.token.action = .confirm ∧ recoveryScopeValid row p = true ∧
      row.dialogue.ReleasedBy p.update) := by
    rintro ⟨-,hvalid,-⟩
    rw [hscope] at hvalid
    exact Bool.false_ne_true hvalid
  simp only [transaction,recoverConsumedConfirmation,if_neg hout]

theorem consumeRepositoryDecision_foreign (hf : (Presentation.callback p).Foreign context db)
    (hexpired : ¬ HoldsExpired p.token now db) :
    ∃ refusal, consumeRepositoryDecision p now db = (.ok (.error refusal),db) := by
  cases hl : lockRepositoryCallback p.token db with
  | none => exact ⟨.invalid,by simp only [consumeRepositoryDecision,transaction,hl]⟩
  | some row =>
    obtain ⟨hscope,hrecovery⟩ := scope_of_foreign hf hl
    by_cases hc : row.token.consumedAt = none
    · obtain ⟨refusal,hv,hr⟩ := refuse_of_mismatch DecisionTransition now db hscope .confirming 1
      refine ⟨refusal,?_⟩
      rw [consumeRepositoryDecision_refused hl hc hv,hr,
        if_neg fun h => hexpired ⟨row,hl,hc,Or.inr h.2⟩]
    · refine ⟨.consumed,?_⟩
      rw [consumeRepositoryDecision_consumed hl hc,recoverConsumedConfirmation_foreign hrecovery]

def foreignCallback (minted : Minted) (p : CallbackPresentation) (now : ℤ) (db : Database) :
    ProcessingOutcome × Table OutboundJob :=
  match db.outboundJobs.insert
    ((replyJob p.update.botId p.chatId expiredActionText).row minted.jobId now) with
  | some jobs => (.settle .processed,jobs)
  | none => (if HoldsExpired p.token now db then .settle .failed else .retryRecoverableAction,
      db.outboundJobs)

theorem callback_foreign (hf : (Presentation.callback p).Foreign context db) (repliedAt : ℤ) :
    observed (context.domainAction minted now repliedAt db (.callback p)) =
      foreignCallback minted p now db := by
  show ((context.handleCallback minted (some p) now db).1.processing,
    (context.handleCallback minted (some p) now db).2.outboundJobs) = _
  unfold foreignCallback
  rcases consumeRepositorySelection_foreign hf minted.confirmToken minted.cancelToken now with
    ⟨he,after,hjobs,hs⟩ | ⟨he,refusal,hne,hs⟩
  · -- the selection itself answers
    simp only [CaptureContext.handleCallback,CaptureContext.selection,hs,CaptureContext.reply,
      enqueueOutboundJob_reply,hjobs,if_pos he]
    cases db.outboundJobs.insert
      ((replyJob p.update.botId p.chatId expiredActionText).row minted.jobId now) with
    | none => simp [CallbackOutcome.processing,hjobs]
    | some jobs => rfl
  · -- the decision answers
    obtain ⟨refused,hd⟩ := consumeRepositoryDecision_foreign hf he
    have hselection : CaptureContext.selection minted p now db = (.ok none,db) := by
      unfold CaptureContext.selection
      rw [hs]
      cases refusal with
      | expired => exact absurd rfl hne
      | invalid | consumed => rfl
    simp only [CaptureContext.handleCallback,hselection,CaptureContext.decision,hd,
      CaptureContext.reply,enqueueOutboundJob_reply,if_neg he]
    cases db.outboundJobs.insert
      ((replyJob p.update.botId p.chatId expiredActionText).row minted.jobId now) with
    | none | some jobs => rfl

end Callback

section Command

variable {context : CaptureContext} {minted : Minted} {p : CommandPresentation}
  {now repliedAt : ℤ} {db : Database}

/-- A start command is never answered, and a foreign one is never an error. -/
theorem start_foreign (hf : (Presentation.start p).Foreign context db) :
    observed (context.domainAction minted now repliedAt db (.start p)) =
      (.settle .processed,db.outboundJobs) := by
  have hrefused : ∃ refusal, resolveOperationIntent
      ⟨p.token,.deepLink,⟨p.botId,p.senderId,p.chatId,none⟩,now⟩ db =
        (.ok (.error refusal),db) := by
    simp only [resolveOperationIntent,ne_eq,not_true_eq_false,if_false,consumeInteractionToken,
      transaction]
    cases hl : lockPresented p.token db.interactionTokens with
    | none => exact ⟨.invalid,rfl⟩
    | some row =>
      obtain ⟨hselect,htext⟩ := lockPresented_eq_some hl
      have hscope := hf row (Table.mem_of_select hselect) htext
      dsimp only
      by_cases hc : row.consumedAt = none
      · by_cases he : row.expiresAt ≤ now
        · exact ⟨.expired,by simp [hc,he]⟩
        · refine ⟨.scopeMismatch,?_⟩
          rw [if_neg (not_not_intro hc),if_neg he,if_pos]
          by_contra hin
          simp only [not_or,not_not] at hin
          exact hscope hin
      · exact ⟨.consumed,by simp [hc]⟩
  obtain ⟨refusal,hr⟩ := hrefused
  show (ProcessingOutcome.settle (handleStartToken p now db).1,
    (handleStartToken p now db).2.outboundJobs) = _
  rw [handleStartToken,hr]

def HoldsUnreadable (text : List Char) (db : Database) : Prop :=
  ∃ t ∈ lockPresented text db.interactionTokens, t.internalUserId = none ∨ t.analysisId = none

instance (text : List Char) (db : Database) : Decidable (HoldsUnreadable text db) := by
  delta HoldsUnreadable
  infer_instance

/-- The rows that pass their checks without those columns are the deep links and the buttons. -/
theorem unreadable_iff_surface {t : InteractionToken} (h : t.Checked) :
    (t.internalUserId = none ∨ t.analysisId = none) ↔ t.surface ≠ .command := by
  obtain ⟨-,-,-,hshape⟩ := h
  rcases hshape with ⟨hs,-,-,-,-,hu,-⟩ | ⟨hs,-,-,-,-,-,hu,-⟩ | ⟨hs,-,-,-,-,-,hu,ha,-⟩
  · simp [hs,hu]
  · simp [hs,hu]
  · simp [hs,hu,ha]

theorem resolveLibraryReadIntent_foreign (hf : (Presentation.read p).Foreign context db)
    {session : UserSession} (hs : context.session p.senderId = .ok session) (now : ℤ) :
    (HoldsUnreadable p.token db ∧ ∃ e, resolveLibraryReadIntent
      ⟨p.token,⟨p.botId,p.senderId,session.userId,p.chatId⟩,now⟩ db = (.error e,db)) ∨
    (¬ HoldsUnreadable p.token db ∧ ∃ refusal, resolveLibraryReadIntent
      ⟨p.token,⟨p.botId,p.senderId,session.userId,p.chatId⟩,now⟩ db =
        (.ok (.error refusal),db)) := by
  simp only [resolveLibraryReadIntent,transaction]
  cases hl : lockPresented p.token db.interactionTokens with
  | none => exact Or.inr ⟨by simp [HoldsUnreadable,hl],.invalid,rfl⟩
  | some row =>
    obtain ⟨hselect,htext⟩ := lockPresented_eq_some hl
    have hscope := hf row (Table.mem_of_select hselect) htext
    cases hu : row.internalUserId with
    | none => exact Or.inl ⟨⟨row,hl,Or.inl hu⟩,unexpectedNull "4",by simp only [hu]⟩
    | some internalUserId =>
      cases ha : row.analysisId with
      | none => exact Or.inl ⟨⟨row,hl,Or.inr ha⟩,unexpectedNull "6",by simp only [hu,ha]⟩
      | some analysisId =>
        refine Or.inr ⟨by simp [HoldsUnreadable,hl,hu,ha],?_⟩
        simp only [hu,ha]
        by_cases hc : row.consumedAt = none
        · by_cases he : row.expiresAt ≤ now
          · exact ⟨.expired,by simp [hc,he]⟩
          · refine ⟨.scopeMismatch,?_⟩
            rw [if_neg (not_not_intro hc),if_neg he,if_pos]
            by_contra hin
            simp only [not_or,not_not,ne_eq] at hin
            obtain ⟨hsurface,-,hbot,huser,hinternal,hchat⟩ := hin
            exact hscope ⟨hsurface,hbot,huser,hchat,session,hs,by rw [hu,hinternal]⟩
        · exact ⟨.consumed,by simp [hc]⟩

def repliedWith (jobId : Uuid) (p : CommandPresentation) (text : String) (repliedAt : ℤ)
    (db : Database) : ProcessingOutcome × Table OutboundJob :=
  match db.outboundJobs.insert ((replyJob p.botId p.chatId text).row jobId repliedAt) with
  | some jobs => (.settle .processed,jobs)
  | none => (.settle .failed,db.outboundJobs)

theorem enqueueText_observed (jobId : Uuid) (p : CommandPresentation) (text : String)
    (repliedAt : ℤ) (db : Database) :
    (ProcessingOutcome.settle (enqueueText jobId p.botId p.chatId text repliedAt db).1,
      (enqueueText jobId p.botId p.chatId text repliedAt db).2.outboundJobs) =
      repliedWith jobId p text repliedAt db := by
  unfold enqueueText repliedWith
  rw [enqueueOutboundJob_reply]
  cases db.outboundJobs.insert ((replyJob p.botId p.chatId text).row jobId repliedAt) with
  | none | some jobs => rfl

def foreignReadText (context : CaptureContext) (p : CommandPresentation) (db : Database) :
    String :=
  if context.readSession p.senderId = none ∨ HoldsUnreadable p.token db then readUnavailableText
  else expiredReadText

theorem session_of_readSession {senderId : ℤ} {session : UserSession}
    (h : context.readSession senderId = some session) : context.session senderId = .ok session := by
  unfold CaptureContext.readSession at h
  cases hs : context.session senderId with
  | error e => simp [hs] at h
  | ok granted =>
    simp only [hs] at h
    cases hc : context.capabilities granted.credential with
    | error e => simp [hc] at h
    | ok capabilities =>
      simp only [hc,Option.ite_none_right_eq_some,Option.some.injEq] at h
      rw [h.2]

theorem read_foreign (hf : (Presentation.read p).Foreign context db) :
    observed (context.domainAction minted now repliedAt db (.read p)) =
      repliedWith minted.jobId p (foreignReadText context p db) repliedAt db := by
  show (ProcessingOutcome.settle (context.runRead minted.jobId p now repliedAt db).1,
    (context.runRead minted.jobId p now repliedAt db).2.outboundJobs) = _
  rw [← enqueueText_observed]
  unfold CaptureContext.runRead foreignReadText
  cases hr : context.readSession p.senderId with
  | none => simp
  | some session =>
    rcases resolveLibraryReadIntent_foreign hf (session_of_readSession hr) now with
      ⟨hu,e,h⟩ | ⟨hu,refusal,h⟩
    · simp [h,hu]
    · simp [h,hu]

/-- Two texts are told apart exactly when the reply is stored. -/
theorem repliedWith_inj (jobId : Uuid) (p : CommandPresentation) {text text' : String}
    (hne : text ≠ text') (repliedAt : ℤ) (db : Database) :
    repliedWith jobId p text repliedAt db = repliedWith jobId p text' repliedAt db ↔
      db.outboundJobs.select jobId ≠ none := by
  have hstored : ∀ text, db.outboundJobs.insert
      ((replyJob p.botId p.chatId text).row jobId repliedAt) = none ↔
        db.outboundJobs.select jobId ≠ none := fun text => Table.insert_eq_none
  unfold repliedWith
  constructor
  · intro h
    cases hi : db.outboundJobs.insert ((replyJob p.botId p.chatId text).row jobId repliedAt) with
    | none => exact (hstored text).mp hi
    | some jobs =>
      cases hi' : db.outboundJobs.insert
          ((replyJob p.botId p.chatId text').row jobId repliedAt) with
      | none => exact (hstored text').mp hi'
      | some jobs' =>
        simp only [hi,hi',Prod.mk.injEq,true_and] at h
        have hrows := (Table.insert_eq_some.mp hi).2
        rw [h,(Table.insert_eq_some.mp hi').2,List.append_cancel_left_eq] at hrows
        have hpayload :=
          congrArg (fun j : OutboundJob => j.payload.text) (List.head_eq_of_cons_eq hrows)
        exact absurd hpayload.symm hne
  · intro h
    rw [(hstored text).mpr h,(hstored text').mpr h]

end Command

/-- The presenter cannot tell the states apart. -/
def Presentation.Alike (context : CaptureContext) (minted : Minted) (now : ℤ)
    (db₁ db₂ : Database) : Presentation → Prop
  | .callback p => db₁.outboundJobs.select minted.jobId = none ∨
      (HoldsExpired p.token now db₁ ↔ HoldsExpired p.token now db₂)
  | .start _ => True
  | .read p => db₁.outboundJobs.select minted.jobId ≠ none ∨
      context.readSession p.senderId = none ∨
      (HoldsUnreadable p.token db₁ ↔ HoldsUnreadable p.token db₂)

section States

variable {context : CaptureContext} {minted : Minted} {now repliedAt : ℤ} {db₁ db₂ : Database}

theorem foreignCallback_eq_iff (p : CallbackPresentation)
    (hjobs : db₁.outboundJobs = db₂.outboundJobs) :
    foreignCallback minted p now db₁ = foreignCallback minted p now db₂ ↔
      (Presentation.callback p).Alike context minted now db₁ db₂ := by
  have hstored : db₂.outboundJobs.insert
      ((replyJob p.update.botId p.chatId expiredActionText).row minted.jobId now) = none ↔
        db₁.outboundJobs.select minted.jobId ≠ none := by
    rw [hjobs]
    exact Table.insert_eq_none
  unfold foreignCallback Presentation.Alike
  rw [hjobs] at hstored ⊢
  cases hi : db₂.outboundJobs.insert
      ((replyJob p.update.botId p.chatId expiredActionText).row minted.jobId now) with
  | some jobs =>
    have hfree : db₂.outboundJobs.select minted.jobId = none := by
      by_contra hne
      rw [hstored.mpr hne] at hi
      simp at hi
    simp [hfree]
  | none =>
    have hne := hstored.mp hi
    by_cases h₁ : HoldsExpired p.token now db₁ <;> by_cases h₂ : HoldsExpired p.token now db₂ <;>
      simp [h₁,h₂,hne]

theorem repliedWith_eq_iff (p : CommandPresentation)
    (hjobs : db₁.outboundJobs = db₂.outboundJobs) :
    repliedWith minted.jobId p (foreignReadText context p db₁) repliedAt db₁ =
      repliedWith minted.jobId p (foreignReadText context p db₂) repliedAt db₂ ↔
        (Presentation.read p).Alike context minted now db₁ db₂ := by
  have hsame : repliedWith minted.jobId p (foreignReadText context p db₂) repliedAt db₂ =
      repliedWith minted.jobId p (foreignReadText context p db₂) repliedAt db₁ := by
    unfold repliedWith
    rw [hjobs]
  have hne : readUnavailableText ≠ expiredReadText := by decide
  rw [hsame]
  unfold Presentation.Alike foreignReadText
  by_cases hr : context.readSession p.senderId = none
  · simp [hr]
  · by_cases h₁ : HoldsUnreadable p.token db₁ <;> by_cases h₂ : HoldsUnreadable p.token db₂
    · simp [h₁,h₂]
    · simp [hr,h₁,h₂,repliedWith_inj minted.jobId p hne]
    · simp [hr,h₁,h₂,repliedWith_inj minted.jobId p hne.symm]
    · simp [h₁,h₂]

/-- A presenter out of scope sees the same in both states exactly when the states are alike to
the presented surface. -/
theorem foreign_presentations_indistinguishable {q : Presentation}
    (hd : DifferAt q.token db₁ db₂) (h₁ : q.Foreign context db₁) (h₂ : q.Foreign context db₂) :
    observed (context.domainAction minted now repliedAt db₁ q) =
      observed (context.domainAction minted now repliedAt db₂ q) ↔
        q.Alike context minted now db₁ db₂ := by
  cases q with
  | callback p =>
    rw [callback_foreign h₁,callback_foreign h₂]
    exact foreignCallback_eq_iff p hd.outboundJobs
  | start p =>
    rw [start_foreign h₁,start_foreign h₂,hd.outboundJobs]
    exact iff_of_true rfl trivial
  | read p =>
    rw [read_foreign h₁,read_foreign h₂]
    exact repliedWith_eq_iff p hd.outboundJobs

end States

theorem DifferAt.refl (text : List Char) (db : Database) : DifferAt text db db :=
  ⟨rfl,rfl,rfl,rfl,rfl,rfl,fun _ _ => rfl,fun _ _ _ => rfl⟩

theorem issueToken_step (row : InteractionToken) (db : Database) :
    (issueToken row db).2 = db ∨ ∃ tokens, db.interactionTokens.insert row = some tokens ∧
      (issueToken row db).2 = {db with interactionTokens := tokens} := by
  dsimp only [issueToken,transaction]
  cases hi : insertToken row db.interactionTokens with
  | error e => exact Or.inl rfl
  | ok tokens => exact Or.inr ⟨tokens,(insertToken_eq_ok.mp hi).2,rfl⟩

theorem differAt_issueToken (row : InteractionToken) (db : Database) :
    DifferAt row.token.text db (issueToken row db).2 := by
  rcases issueToken_step row db with h | ⟨tokens,hi,h⟩
  · rw [h]
    exact DifferAt.refl _ db
  · rw [h]
    refine ⟨rfl,rfl,rfl,rfl,rfl,rfl,?_,fun _ _ _ => rfl⟩
    intro token hne
    rw [Table.select_insert hi,if_neg]
    rintro rfl
    exact hne rfl

theorem Presentation.Foreign.issueToken {context : CaptureContext} {q : Presentation}
    {row : InteractionToken} {db : Database} (h : q.Foreign context db)
    (hrow : ¬ q.InScope context row) : q.Foreign context (issueToken row db).2 := by
  rcases issueToken_step row db with hs | ⟨tokens,hi,hs⟩
  · rw [hs]
    exact h
  · rw [hs]
    intro t ht htext
    rcases (Table.mem_insert hi).mp ht with ht | rfl
    · exact h t ht htext
    · exact hrow

theorem Presentation.foreign_fresh (context : CaptureContext) (q : Presentation) :
    q.Foreign context .fresh := by
  intro t ht
  exact absurd ht (Table.not_mem_empty t)

namespace StrangerReads

def token : Token := .filled 'r'

def context : CaptureContext where
  session senderId := .ok ⟨"credential",senderId.toNat⟩
  capabilities _ := .ok [readCapability]
  actionRequest _ := none
  applyRepositoryAction _ _ _ := .error .timeout
  replaceLibraryReadState _ _ _ _ := .ok .read
  resultJson _ := "result"

def minted : Minted :=
  ⟨10,.filled 'y',.filled 'n'⟩

def presentation : Presentation := .read ⟨token.text,7,99,99⟩

def offered : InteractionToken := PreparedLibraryReadIntent.row ⟨token,⟨7,42,42,42⟩,3,900⟩ 0

def linked : InteractionToken :=
  NewOperationIntent.row ⟨⟨7,42,42,none⟩,3,⟨some "https://example.org",none⟩,900⟩ token 0

/-- A read command of another user is answered as an absent one is. -/
theorem offered_unseen :
    observed (context.domainAction minted 100 101 .fresh presentation) =
      observed (context.domainAction minted 100 101 (issueToken offered .fresh).2 presentation) := by
  have hfresh := presentation.foreign_fresh context
  have hscope : ¬ presentation.InScope context offered := by
    rintro ⟨-,-,huser,-⟩
    exact absurd huser (by decide)
  have hd : DifferAt presentation.token .fresh (issueToken offered .fresh).2 :=
    differAt_issueToken offered .fresh
  have halike : presentation.Alike context minted 100 .fresh (issueToken offered .fresh).2 :=
    Or.inr (Or.inr (by decide +kernel))
  exact (foreign_presentations_indistinguishable hd hfresh (hfresh.issueToken hscope)).mpr halike

/-- A deep link of another user is answered as unavailable, an absent token as expired. -/
theorem linked_seen :
    ¬ ∀ (context : CaptureContext) (minted : Minted) (now repliedAt : ℤ) (q : Presentation)
      (db₁ db₂ : Database), DifferAt q.token db₁ db₂ → q.Foreign context db₁ →
        q.Foreign context db₂ →
          observed (context.domainAction minted now repliedAt db₁ q) =
            observed (context.domainAction minted now repliedAt db₂ q) := by
  intro h
  have hfresh := presentation.foreign_fresh context
  have hscope : ¬ presentation.InScope context linked := by
    rintro ⟨hsurface,-⟩
    exact absurd hsurface (by decide)
  have hsame := h context minted 100 101 presentation .fresh (issueToken linked .fresh).2
    (differAt_issueToken linked .fresh) hfresh (hfresh.issueToken hscope)
  have hseen : observed (context.domainAction minted 100 101 .fresh presentation) ≠
      observed (context.domainAction minted 100 101 (issueToken linked .fresh).2 presentation) := by
    decide +kernel
  exact hseen hsame

end StrangerReads

end RatatoskrTelegram
