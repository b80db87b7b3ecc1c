import RatatoskrTelegram.Webhook

/-!
# What one step of the webhook does

A transition opens a wait for a button and hands its prompt to the handler.
Every other step leaves the waits that go on as they were, and stamps a token
only through the acknowledgement of a claimed job.
-/

namespace RatatoskrTelegram

namespace DialogState

def Awaiting (d : DialogState) : Prop :=
  d.lifecycle = .active ∧ (d.step = .preview ∨ d.step = .confirming)

/-- No wait is opened: a dialogue left waiting was waiting, at the same step and version. -/
structure Keeps (d e : DialogState) : Prop where
  active : e.lifecycle = .active → d.lifecycle = .active
  version : d.version ≤ e.version
  awaiting : e.Awaiting → d.Awaiting ∧ e.step = d.step ∧ e.version = d.version

theorem Keeps.refl (d : DialogState) : d.Keeps d :=
  ⟨fun h => h,le_rfl,fun h => ⟨h,rfl,rfl⟩⟩

theorem Keeps.of_ends {d e : DialogState} (ha : d.lifecycle = .active) (hv : d.version ≤ e.version)
    (he : ¬ e.Awaiting) : d.Keeps e :=
  ⟨fun _ => ha,hv,fun h => absurd h he⟩

theorem Keeps.stamped (d : DialogState) (messageId : ℤ) : d.Keeps ((stampDialogue messageId).set d) :=
  ⟨fun h => h,le_rfl,fun h => ⟨h,rfl,rfl⟩⟩

theorem Keeps.expired {d : DialogState} (now : ℤ) (ha : d.lifecycle = .active) :
    d.Keeps ((expireDialogue now).set d) := by
  refine .of_ends ha ?_ ?_
  · show d.version ≤ d.version + 1
    omega
  · rintro ⟨h,_⟩
    simp at h

end DialogState

/-- Each dialogue left stems from a stored one, and none opens a wait. -/
abbrev DialoguesKeep (t u : Table DialogState) : Prop :=
  Table.Descends DialogState.Keeps (fun _ => False) t u

namespace DialoguesKeep

theorem refl (t : Table DialogState) : DialoguesKeep t t :=
  (Table.Evolves.refl DialogState.Keeps.refl).descends

theorem update {t : Table DialogState} {p : DialogState → Prop} [DecidablePred p]
    {a : Assignment DialogState} (h : ∀ d ∈ t, p d → d.Keeps (a.set d)) :
    DialoguesKeep t (t.update p a) :=
  (Table.Evolves.update DialogState.Keeps.refl h).descends

theorem expired {row : LockedCallbackRow} (now : ℤ) (db : Database) :
    DialoguesKeep db.dialogStates (expiredDatabase row now db).dialogStates :=
  update fun _ _ h => .expired now h.2

theorem update_locked {t : Table DialogState} {d : DialogState} {a : Assignment DialogState}
    (hd : t.select d.id = some d) (h : d.Keeps (a.set d)) :
    DialoguesKeep t (t.update (·.id = d.id) a) := by
  refine update ?_
  intro e he hid
  obtain rfl : e = d := Table.eq_of_key he (Table.mem_of_select hd) hid
  exact h

end DialoguesKeep

namespace Call

/-- The two transitions open waits; the outside calls open none. -/
theorem dialogues_keep {c : Call} (hc : c.outside = true) (db : Database) :
    DialoguesKeep db.dialogStates (c.apply db).dialogStates := by
  cases c with
  | createRepositoryPreviewDialogue _ _ _ _ _ _ _ => simp [outside] at hc
  | stampCallbackMessage _ _ _ _ => simp [outside] at hc
  | consumeRepositorySelection _ _ _ _ => simp [outside] at hc
  | recordOutboundAcknowledgement bindingId job method messageId now =>
    rcases recordOutboundAcknowledgement_writes bindingId job method messageId now db with
      h | ⟨_,_,_,h⟩
    · rw [apply,h]
      exact .refl _
    · rw [apply,h]
      dsimp only [acknowledged,applyAcknowledgement,applyCallbackStamp]
      split
      · unfold stampCallback
        split
        · exact .refl _
        · exact .update fun d _ _ => .stamped d messageId
      · exact .refl _
  | consumeRepositoryDecision p now =>
    obtain ⟨r,t,he,h⟩ := consumeRepositoryDecision_step p now db
    rw [apply,he]
    cases h with
    | expired _ _ => exact .expired now db
    | cancelled hl hadm _ =>
      refine .update_locked (lockRepositoryCallback_eq_some hl).2.2.2.2 (.of_ends hadm.active ?_ ?_)
      · simp [hadm.version]
      · rintro ⟨h,_⟩
        simp at h
    | released hl hadm _ _ =>
      refine .update_locked (lockRepositoryCallback_eq_some hl).2.2.2.2 (.of_ends hadm.active ?_ ?_)
      · simp [hadm.version]
      · rintro ⟨_,h⟩
        simp at h
    | _ => exact .refl _
  | completeRepositoryDialogueProjection dialogueId update result jobId job now =>
    obtain ⟨r,t,he,h⟩ :=
      completeRepositoryDialogueProjection_step dialogueId update result jobId job now db
    rw [apply,he]
    cases h with
    | @completed dialogue _ hs _ _ ha _ _ =>
      obtain rfl : dialogue.id = dialogueId := Table.key_of_select hs
      refine .update_locked hs (.of_ends ha ?_ ?_)
      · show dialogue.version ≤ dialogue.version + 1
        omega
      · rintro ⟨h,_⟩
        simp at h
    | _ => exact .refl _
  | cleanupInteractions lockedDialogues lockedTokens now terminalBefore batchSize =>
    refine Table.Descends.delete (DialoguesKeep.update ?_) _
    intro d hd hid
    exact .expired now ((mem_expiryBatch hd).mp hid).1.1
  | _ =>
    rw [dialogues_kept _ rfl]
    exact .refl _

theorem Issues.surface {c : Call} {db : Database} {t : InteractionToken} (h : c.Issues db t)
    (hc : c.outside = true) : t.surface ≠ .callback := by
  cases h with
  | selection _ _ _ _ => simp [outside] at hc
  | confirmation _ _ _ _ => simp [outside] at hc
  | captured _ => simp [NewOperationIntent.row]
  | delivered _ _ => simp [PreparedLibraryReadIntent.row]
  | operation _ => simp [NewOperationIntent.row]
  | read _ => simp [PreparedLibraryReadIntent.row]

theorem namesNoDialogue_spec {correlationId : Option CorrelationId}
    (h : namesNoDialogue correlationId = true) (dialogueId : Uuid) :
    correlationId ≠ some (.dialogue dialogueId) := by
  rintro rfl
  simp [namesNoDialogue] at h

theorem AddsJob.ends {c : Call} {db : Database} {k : OutboundJob} {dialogueId : Uuid}
    (h : c.AddsJob db k) (hc : c.outside = true) (hk : k.Concerns dialogueId)
    (hn : db.outboundJobs.select k.id = none)
    (hstored : (c.apply db).outboundJobs.select k.id = some k) :
    (∃ d, db.dialogStates.select dialogueId = some d) ∧
      ∀ e, (c.apply db).dialogStates.select dialogueId = some e → e.lifecycle ≠ .active := by
  cases h with
  | edit => exact absurd hk (namesNoDialogue_spec hc _)
  | acknowledgement _ => exact absurd hk (namesNoDialogue_spec hc _)
  | enqueued => exact absurd hk (namesNoDialogue_spec hc _)
  | delivered => exact absurd hk (namesNoDialogue_spec hc _)
  | notified _ => exact absurd hk (namesNoDialogue_spec hc _)
  | @completed id update result jobId job now dialogue hd _ hr =>
    obtain rfl : dialogue.id = id := Table.key_of_select hd
    have hid : dialogue.id = dialogueId := by
      have hcorr : (job.row jobId now).correlationId = some (.dialogue dialogue.id) :=
        hr.2.2.2.2.2
      exact CorrelationId.dialogue.inj (Option.some.inj (hcorr.symm.trans hk))
    subst hid
    refine ⟨⟨_,hd⟩,?_⟩
    intro e he
    obtain ⟨r,t,hcall,hstep⟩ :=
      completeRepositoryDialogueProjection_step dialogue.id update result jobId job now db
    rw [apply,hcall] at he hstored
    cases hstep with
    | failed _ => simp [hn] at hstored
    | alreadyCompleted => simp [hn] at hstored
    | completed _ _ _ _ _ _ =>
      simp only [Table.select_update,hd,Option.map_some,if_true,Option.some.injEq] at he
      simp [← he]

end Call

namespace Dispatcher

/-- Every claimed job carries the correlation of its row, and an acknowledgement under way answers
a request that went out. -/
structure Answered (s : Dispatcher) : Prop where
  correlated : ∀ {i : ℕ} {job : QueuedOutboundJob} {stage : Stage},
    s.senders i = .working job stage → ∃ j, s.database.outboundJobs.select job.id = some j ∧
      j.correlationId = job.correlationId
  answered : ∀ {i : ℕ} {job : QueuedOutboundJob} {action : WireAction} {messageId now : ℤ}
    {failures : ℕ}, s.senders i = .working job (.acknowledged action messageId now failures) →
    .answered job action messageId ∈ s.wire

/-- The recorded answer `messageId` to the job `j` stamps the dialogue `d` and its token `t`. -/
structure Stamps (s : Dispatcher) (db : Database) (messageId : ℤ) (j : OutboundJob)
    (d : DialogState) (t : InteractionToken) : Prop where
  answered : ∃ i job action now failures,
    s.senders i = .working job (.acknowledged action messageId now failures) ∧ job.id = j.id ∧
      job.correlationId = some (.dialogue d.id)
  job : s.database.outboundJobs.select j.id = some j
  sending : j.state = .sending
  sent : db.outboundJobs.select j.id = some ((acknowledge messageId).set j)
  dialogue : s.database.dialogStates.select d.id = some d
  awaiting : d.Awaiting
  token : t.dialogueId = some d.id
  version : t.expectedDialogueVersion = some d.version

/-- What a step outside the two transitions does to the dialogues, to the callback tokens and to
the jobs that concern a dialogue. -/
structure Quiet (s : Dispatcher) (db : Database) : Prop where
  dialogues : DialoguesKeep s.database.dialogStates db.dialogStates
  tokens : ∀ t' ∈ db.interactionTokens, t'.surface = .callback → ∃ t ∈ s.database.interactionTokens,
    Call.SameAuthority t t' ∧ (t'.expectedMessageId = t.expectedMessageId ∨
      ∃ messageId j d, s.Stamps db messageId j d t ∧ t'.expectedMessageId = some messageId)
  jobs : Table.Evolves OutboundJob.Moves (fun k => ∀ dialogueId, k.Concerns dialogueId →
      (∃ d, s.database.dialogStates.select dialogueId = some d) ∧
        ∀ e, db.dialogStates.select dialogueId = some e → e.lifecycle ≠ .active)
    s.database.outboundJobs db.outboundJobs

theorem Quiet.refl (s : Dispatcher) : s.Quiet s.database where
  dialogues := .refl _
  tokens t ht _ := ⟨t,ht,.refl t,Or.inl rfl⟩
  jobs := .refl fun _ => .stays

/-- A call outside the two transitions is quiet; it stamps as an acknowledgement a sender holds. -/
theorem Quiet.of_call {s : Dispatcher} {c : Call} (hc : c.Promised) (ho : c.outside = true)
    (hack : ∀ bindingId job method messageId now,
      c = .recordOutboundAcknowledgement bindingId job method messageId now → ∃ i action failures,
        s.senders i = .working job (.acknowledged action messageId now failures)) :
    s.Quiet (c.apply s.database) where
  dialogues := Call.dialogues_keep ho s.database
  tokens t' ht' hsurface := by
    rcases (Call.tokens_change c s.database).origin (Table.select_of_mem ht') with
      ⟨t,ht,hr⟩ | ⟨_,hissued⟩
    · refine ⟨t,Table.mem_of_select ht,hr.same,?_⟩
      cases hr with
      | @stamped _ d botId chatId messageId hstamps hd hp hid hv _ =>
        cases hstamps with
        | @acknowledged bindingId job method now j hcorr _ _ hj hown =>
          obtain ⟨i,action,failures,hi⟩ := hack _ _ _ _ _ rfl
          refine Or.inr ⟨messageId,j,d,?_,rfl⟩
          exact {
            answered := ⟨i,job,action,now,failures,hi,hown.1.symm,hcorr⟩
            job := hown.1 ▸ hj
            sending := hown.2.1
            sent := by
              have hsent := @recordOutboundAcknowledgement_select bindingId job method messageId now
                s.database j hj hown
              rw [hown.1]
              exact hsent
            dialogue := hd
            awaiting := hp.2.2.2
            token := hid
            version := hv}
        | direct => simp [Call.outside] at ho
      | _ => exact Or.inl rfl
    · exact absurd hsurface (hissued.surface ho)
  jobs := by
    constructor
    · intro id j hj
      exact (Call.jobs_move hc s.database).kept hj
    · intro id k hn hk dialogueId hcon
      obtain rfl : k.id = id := Table.key_of_select hk
      exact (Call.jobs_added hc s.database hn hk).ends ho hcon hn hk

section Steps

variable {limits : SenderLimits} {s t : Dispatcher} {a : Action}

theorem Steps.quiet (h : Steps limits s a t) (ho : a.outside = true) : s.Quiet t.database := by
  cases h with
  | produced hc hp =>
    refine .of_call hc ho ?_
    rintro _ _ _ _ _ rfl
    simp [Call.isProducer] at hp
  | began _ => exact .of_call (c := .quarantineExpiredSends _) trivial rfl (by simp)
  | claimed _ _ => exact .of_call (c := .claimNext _ _ _ _) trivial rfl (by simp)
  | prepared _ _ _ => exact .of_call (c := .prepareOutboundMethod _ _) trivial rfl (by simp)
  | recorded hi _ =>
    refine .of_call (c := .recordOutboundAcknowledgement _ _ _ _ _) trivial rfl ?_
    intro _ _ _ _ _ he
    cases he
    exact ⟨_,_,_,hi⟩
  | committed _ hi =>
    refine .of_call (c := .recordOutboundAcknowledgement _ _ _ _ _) trivial rfl ?_
    intro _ _ _ _ _ he
    cases he
    exact ⟨_,_,_,hi⟩
  | settled _ _ => exact .of_call (c := .settleOutboundJob _ _ _ _ _) trivial rfl (by simp)
  | failed _ _ => exact .of_call (c := .settleOutboundJob _ _ _ _ _) trivial rfl (by simp)
  | rendered _ _ _ => exact .of_call (c := .advanceRender _ _ _ _) trivial rfl (by simp)
  | unbound _ _ => exact .of_call (c := .unbindMessage _ _) trivial rfl (by simp)
  | _ => exact .refl _

theorem Answered.initial : Answered initial where
  correlated hi := by simp [Dispatcher.initial] at hi
  answered hi := by simp [Dispatcher.initial] at hi

theorem Answered.of_jobs {F : OutboundJob → Prop} (h : s.Answered) {db : Database}
    (hj : Table.Evolves OutboundJob.Moves F s.database.outboundJobs db.outboundJobs) :
    Answered {s with database := db} where
  correlated hi := by
    obtain ⟨j,hsel,hc⟩ := h.correlated hi
    obtain ⟨k,hk,hm⟩ := hj.kept hsel
    exact ⟨k,hk,hm.sameWork.correlationId.trans hc⟩
  answered := h.answered

theorem Answered.step (h : s.Answered) (hs : Steps limits s a t) : t.Answered where
  correlated {i job stage} hi := by
    rcases (hs.reaches hi).held with ⟨stage',hi'⟩ | ⟨locked,now,snapshot,head,_,_,hh,rfl,_⟩
    · obtain ⟨j,hj,hc⟩ := h.correlated hi'
      obtain ⟨k,hk,ht⟩ := hs.jobs.kept hj
      exact ⟨k,hk,ht.moves.sameWork.correlationId.trans hc⟩
    · have hm : s.database.outboundJobs.select head.id = some head :=
        Table.select_of_mem (mem_of_claimHead hh).1
      obtain ⟨k,hk,ht⟩ := hs.jobs.kept hm
      exact ⟨k,hk,ht.moves.sameWork.correlationId⟩
  answered {i job action messageId now failures} hi := by
    rcases (hs.reaches hi).acknowledged_inv with ⟨_,hi'⟩ | ⟨_,ht⟩
    · exact hs.wire_kept (h.answered hi')
    · rw [ht]
      exact List.mem_append_right _ (List.mem_singleton_self _)

end Steps

end Dispatcher

namespace Webhook

inductive Opened (s : Webhook) (dialogues : List Uuid) (e : DialogState) : Prop
  | preview : e.Previewed → e.id ∉ s.dialogues → e.id ∈ dialogues → Opened s dialogues e
  | confirmation {d : DialogState} {t : InteractionToken} {messageId : ℤ} :
      s.database.dialogStates.select e.id = some d → d.lifecycle = .active → d.step = .preview →
      d.version = 0 → e.lifecycle = .active → e.step = .confirming → e.version = 1 →
      t ∈ s.database.interactionTokens → t.surface = .callback → t.dialogueId = some e.id →
      t.expectedMessageId = some messageId → Opened s dialogues e

/-- The transition opens the wait of `e` and mints the tokens its prompt offers. -/
structure Opens (s : Webhook) (db : Database) (prompt : Prompt) (e : DialogState)
    (dialogues : List Uuid) (minted : List Token) : Prop where
  dialogueId : prompt.dialogueId = e.id
  opened : s.Opened dialogues e
  stored : db.dialogStates.select e.id = some e
  others : ∀ id, id ≠ e.id → db.dialogStates.select id = s.database.dialogStates.select id
  jobs : db.outboundJobs = s.database.outboundJobs
  tokens : ∀ t' ∈ db.interactionTokens, t'.surface = .callback →
    (∃ t ∈ s.database.interactionTokens, Call.SameAuthority t t' ∧
      t'.expectedMessageId = t.expectedMessageId) ∨
    (t'.dialogueId = some e.id ∧ t'.expectedDialogueVersion = some e.version ∧
      t'.expectedMessageId = none ∧ prompt.Offers t'.token)
  fresh : ∀ token, prompt.Offers token → token ∉ s.tokens ∧ token ∈ minted

/-- What one step can do. -/
inductive Steps (s : Webhook) : Webhook → Prop
  | quiet {d : Dispatcher} : s.dispatcher.Quiet d.database →
      (s.dispatcher.Answered → d.Answered) → (∀ event ∈ s.dispatcher.wire, event ∈ d.wire) →
      Steps s {s with dispatcher := d}
  | opened {i : ℕ} {db : Database} {prompt : Prompt} {e : DialogState} {dialogues : List Uuid}
      {minted : List Token} : s.handlers i = none → s.Opens db prompt e dialogues minted →
      Steps s (s.transit i db (some prompt) dialogues minted)
  | enqueued {i : ℕ} {prompt : Prompt} {jobId : Uuid} {now : ℤ} {jobs : Table OutboundJob} :
      s.handlers i = some prompt →
      s.database.outboundJobs.insert (prompt.job.row jobId now) = some jobs →
      Steps s (s.transit i {s.database with outboundJobs := jobs} none [] [])
  | lost {i : ℕ} {prompt : Prompt} : s.handlers i = some prompt → Steps s (s.lose i prompt)

theorem Steps.rested (s : Webhook) : Steps s s :=
  .quiet (d := s.dispatcher) (.refl _) (fun h => h) fun _ h => h

theorem Steps.of_dialogues {s : Webhook} {db : Database}
    (hd : DialoguesKeep s.database.dialogStates db.dialogStates)
    (ht : db.interactionTokens = s.database.interactionTokens)
    (hj : db.outboundJobs = s.database.outboundJobs) :
    Steps s {s with dispatcher := {s.dispatcher with database := db}} := by
  have hjobs {F : OutboundJob → Prop} :
      Table.Evolves OutboundJob.Moves F s.database.outboundJobs db.outboundJobs := by
    rw [hj]
    exact .refl fun _ => .stays
  refine .quiet ⟨hd,?_,hjobs⟩ (fun h => h.of_jobs (F := fun _ => True) hjobs) fun _ h => h
  intro t h _
  rw [ht] at h
  exact ⟨t,h,.refl t,Or.inl rfl⟩

theorem transit_none {s : Webhook} {i : ℕ} (hi : s.handlers i = none) (db : Database) :
    s.transit i db none [] [] = {s with dispatcher := {s.dispatcher with database := db}} := by
  have hh : Function.update s.handlers i none = s.handlers := by
    rw [← hi]
    exact Function.update_eq_self i s.handlers
  simp [transit,hh]

theorem preview_opens {s : Webhook} {dialogueId : Uuid} {scope : DialogueScope}
    {preview : RepositoryPreview} {selections : List (RepositoryActionCapability × Token)}
    {now expiresAt : ℤ} {v : Uuid} {db : Database} (hid : dialogueId ∉ s.dialogues)
    (hfresh : ∀ selection ∈ selections, selection.2 ∉ s.tokens)
    (h : createRepositoryPreviewDialogue dialogueId scope preview.target preview.accountRef
      selections now expiresAt s.database = (.ok v,db)) :
    v = dialogueId ∧ ∃ e, s.Opens db (previewPrompt dialogueId scope preview selections) e
      [dialogueId] (selections.map Prod.snd) := by
  dsimp only [createRepositoryPreviewDialogue,transaction] at h
  split_ifs at h with hlt
  · cases hd : s.database.dialogStates.insert (previewDialogue dialogueId scope preview.target
      preview.accountRef now expiresAt) with
    | none => simp [hd] at h
    | some dialogues =>
      cases hi : insertSelections dialogueId scope now expiresAt selections
        s.database.interactionTokens with
      | error e => simp [hd,hi] at h
      | ok tokens =>
        simp only [hd,hi,Prod.mk.injEq,Except.ok.injEq] at h
        obtain ⟨rfl,rfl⟩ := h
        refine ⟨rfl,previewDialogue dialogueId scope preview.target preview.accountRef now expiresAt,
          ?_⟩
        exact {
          dialogueId := rfl
          opened := .preview ⟨rfl,rfl,rfl⟩ hid (List.mem_singleton_self _)
          stored := by
            rw [Table.select_insert hd]
            exact if_pos rfl
          others := by
            intro id hne
            rw [Table.select_insert hd]
            exact if_neg hne
          jobs := rfl
          tokens := by
            intro t' ht' _
            rcases (insertSelections_rows hi).origin (Table.select_of_mem ht') with
              ⟨t,ht,rfl⟩ | ⟨_,_,mode,token,action,hm,_,rfl⟩
            · exact Or.inl ⟨t,Table.mem_of_select ht,.refl t,rfl⟩
            · exact Or.inr ⟨rfl,rfl,rfl,modeLabel mode,List.mem_map.mpr ⟨(mode,token),hm,rfl⟩⟩
          fresh := by
            rintro token ⟨label,hm⟩
            obtain ⟨selection,hs,he⟩ := List.mem_map.mp hm
            obtain ⟨-,rfl⟩ := Prod.mk.inj he
            exact ⟨hfresh selection hs,List.mem_map_of_mem hs⟩}
  · simp at h

theorem selection_opens {s : Webhook} {p : CallbackPresentation} {confirmToken cancelToken : Token}
    {now : ℤ} {row : LockedCallbackRow} {mode : RepositoryActionCapability}
    {confirmed tokens : Table InteractionToken} (hconfirm : confirmToken ∉ s.tokens)
    (hcancel : cancelToken ∉ s.tokens) (hl : lockRepositoryCallback p.token s.database = some row)
    (hadm : Admitted row p .preview 0 now)
    (hc : (s.database.interactionTokens.update (·.token = row.token.token)
        (consumeToken p.actorId now)).insert (callbackAuthority confirmToken .confirm
        row.dialogue.id ⟨p.update.botId,p.actorId,p.chatId⟩ 1 now
        (min row.token.expiresAt row.dialogue.expiresAt)) = some confirmed)
    (ht : confirmed.insert (callbackAuthority cancelToken .cancel row.dialogue.id
        ⟨p.update.botId,p.actorId,p.chatId⟩ 1 now
        (min row.token.expiresAt row.dialogue.expiresAt)) = some tokens) :
    s.Opens (selectedDatabase row mode tokens s.database)
      (confirmationPrompt p.update.botId p.chatId ⟨row.dialogue.id,mode,confirmToken,cancelToken⟩)
      ((confirmDialogue {row.dialogue.payload with selectedMode := some mode}).set row.dialogue)
      [] [confirmToken,cancelToken] := by
  obtain ⟨hrow,_,hsurface,hid,hd⟩ := lockRepositoryCallback_eq_some hl
  have hmessage : row.token.expectedMessageId = some p.messageId := by
    have hscope := hadm.scope
    simp only [callbackScopeValid,decide_eq_true_eq] at hscope
    exact hscope.2.1
  exact {
    dialogueId := rfl
    opened := .confirmation hd hadm.active hadm.step hadm.version hadm.active rfl rfl hrow hsurface
      hid hmessage
    stored := by
      show (s.database.dialogStates.update _ _).select row.dialogue.id = _
      rw [Table.select_update,hd,Option.map_some,if_pos rfl]
    others := by
      intro id hne
      show (s.database.dialogStates.update _ _).select id = _
      rw [Table.select_update]
      cases hsel : s.database.dialogStates.select id with
      | none => rfl
      | some d =>
        have hkey : d.id ≠ row.dialogue.id := by
          rw [show d.id = id from Table.key_of_select hsel]
          exact hne
        rw [Option.map_some,if_neg hkey]
    jobs := rfl
    tokens := by
      intro t' ht' _
      have hevolves : Table.Evolves (fun t t' : InteractionToken => Call.SameAuthority t t' ∧
          t'.expectedMessageId = t.expectedMessageId) (fun t' => t'.dialogueId = some row.dialogue.id ∧
          t'.expectedDialogueVersion = some 1 ∧ t'.expectedMessageId = none ∧
          Prompt.Offers (confirmationPrompt p.update.botId p.chatId
            ⟨row.dialogue.id,mode,confirmToken,cancelToken⟩) t'.token)
          s.database.interactionTokens tokens := by
        refine ((Table.Evolves.update ?_ ?_).insert hc ?_).insert ht ?_
        · exact fun t => ⟨.refl t,rfl⟩
        · exact fun t _ _ => ⟨⟨rfl,rfl,rfl,rfl,rfl,rfl,rfl,rfl,rfl,rfl,rfl,rfl,rfl,rfl⟩,rfl⟩
        · exact ⟨rfl,rfl,rfl,"Confirm",List.mem_cons_self⟩
        · exact ⟨rfl,rfl,rfl,"Cancel",List.mem_cons_of_mem _ List.mem_cons_self⟩
      rcases hevolves.origin (Table.select_of_mem ht') with ⟨t,hsel,hsame⟩ | ⟨_,hnew⟩
      · exact Or.inl ⟨t,Table.mem_of_select hsel,hsame⟩
      · exact Or.inr hnew
    fresh := by
      rintro token ⟨label,hm⟩
      simp only [confirmationPrompt,List.mem_cons,Prod.mk.injEq,List.not_mem_nil,or_false] at hm
      rcases hm with ⟨_,rfl⟩ | ⟨_,rfl⟩
      · exact ⟨hconfirm,List.mem_cons_self⟩
      · exact ⟨hcancel,List.mem_cons_of_mem _ List.mem_cons_self⟩}

theorem enqueueOutboundJob_ok {id : Uuid} {job : NewOutboundJob} {now : ℤ} {db after : Database}
    {v : Uuid} (hr : job.revision = none)
    (h : enqueueOutboundJob id job now db = (.ok v,after)) :
    ∃ jobs, db.outboundJobs.insert (job.row id now) = some jobs ∧
      after = {db with outboundJobs := jobs} := by
  dsimp only [enqueueOutboundJob,transaction] at h
  rw [insertOutboundJob_unrevised hr] at h
  cases hi : db.outboundJobs.insert (job.row id now) with
  | none => simp [hi] at h
  | some jobs =>
    simp only [hi,Prod.mk.injEq] at h
    exact ⟨jobs,rfl,h.2.symm⟩

theorem steps_of_step {limits : SenderLimits} {s u : Webhook} {a : WebhookAction}
    (h : step limits s a = some u) : Steps s u := by
  cases a with
  | dispatch a =>
    simp only [step] at h
    split at h
    · rename_i ho
      obtain ⟨d,hd,rfl⟩ := Option.map_eq_some_iff.mp h
      have hs := Dispatcher.steps_of_step hd
      exact .quiet (hs.quiet ho) (fun ha => ha.step hs) fun _ he => hs.wire_kept he
    · simp at h
  | preview i dialogueId scope preview selections now =>
    simp only [step] at h
    split at h
    · rename_i hguard
      obtain ⟨hi,hid,hfresh⟩ := hguard
      split at h
      · rename_i v db hcall
        obtain ⟨rfl,e,ho⟩ := preview_opens hid hfresh hcall
        obtain rfl := Option.some.inj h
        exact .opened hi ho
      · obtain rfl := Option.some.inj h
        exact .rested s
    · simp at h
  | select i p confirmToken cancelToken now =>
    simp only [step] at h
    split at h
    · rename_i hguard
      obtain ⟨hi,hconfirm,hcancel⟩ := hguard
      obtain ⟨r,db,hcall,hstep⟩ :=
        consumeRepositorySelection_step p confirmToken cancelToken now s.database
      rw [hcall] at h
      cases hstep with
      | selected hl hadm _ hc ht =>
        obtain rfl := Option.some.inj h
        exact .opened hi (selection_opens hconfirm hcancel hl hadm hc ht)
      | failed _ =>
        obtain rfl := Option.some.inj h
        rw [transit_none hi]
        exact .rested s
      | refused _ =>
        obtain rfl := Option.some.inj h
        rw [transit_none hi]
        exact .rested s
      | expired _ _ =>
        obtain rfl := Option.some.inj h
        rw [transit_none hi]
        exact .of_dialogues (.expired now _) rfl rfl
    · simp at h
  | enqueue i jobId now =>
    simp only [step] at h
    split at h
    · rename_i prompt hi
      split at h
      · rename_i v db hcall
        obtain ⟨jobs,hinsert,rfl⟩ := enqueueOutboundJob_ok rfl hcall
        obtain rfl := Option.some.inj h
        exact .enqueued hi hinsert
      · obtain rfl := Option.some.inj h
        exact .lost hi
    · simp at h
  | drop i =>
    obtain ⟨prompt,hi,rfl⟩ := Option.map_eq_some_iff.mp h
    exact .lost hi

/-- Only minted dialogues are named, and no token is ahead of its dialogue. -/
structure Named (s : Webhook) : Prop where
  dialogues : ∀ {id : Uuid} {d : DialogState}, s.database.dialogStates.select id = some d →
    id ∈ s.dialogues
  tokens : ∀ t ∈ s.database.interactionTokens, t.surface = .callback → ∃ id version,
    t.dialogueId = some id ∧ id ∈ s.dialogues ∧ t.expectedDialogueVersion = some version ∧
      ∀ d, s.database.dialogStates.select id = some d → version ≤ d.version
  jobs : ∀ j ∈ s.database.outboundJobs, ∀ id, j.Concerns id → id ∈ s.dialogues
  handlers : ∀ {i : ℕ} {prompt : Prompt}, s.handlers i = some prompt →
    prompt.dialogueId ∈ s.dialogues

theorem Named.initial : Named initial where
  dialogues h := by simp [Webhook.initial,Dispatcher.initial,Database.fresh] at h
  tokens t ht := by
    exact absurd ht (List.not_mem_nil)
  jobs j hj := by
    exact absurd hj (List.not_mem_nil)
  handlers h := by simp [Webhook.initial] at h

theorem Opens.minted {s : Webhook} {db : Database} {prompt : Prompt} {e : DialogState}
    {dialogues : List Uuid} {minted : List Token} (h : s.Opens db prompt e dialogues minted)
    (hn : s.Named) : e.id ∈ dialogues ++ s.dialogues := by
  cases h.opened with
  | preview _ _ hid => exact List.mem_append_left _ hid
  | confirmation hd _ _ _ _ _ _ _ _ _ _ => exact List.mem_append_right _ (hn.dialogues hd)

theorem handlers_of_update {s : Webhook} {i k : ℕ} {prompt : Prompt}
    (h : Function.update s.handlers i none k = some prompt) :
    k ≠ i ∧ s.handlers k = some prompt := by
  by_cases hk : k = i
  · subst hk
    rw [Function.update_self] at h
    simp at h
  · rw [Function.update_of_ne hk] at h
    exact ⟨hk,h⟩

theorem handlers_of_prompt {s : Webhook} {i k : ℕ} {prompt prompt' : Prompt}
    (h : Function.update s.handlers i (some prompt) k = some prompt') :
    (k = i ∧ prompt' = prompt) ∨ (k ≠ i ∧ s.handlers k = some prompt') := by
  by_cases hk : k = i
  · subst hk
    rw [Function.update_self] at h
    exact Or.inl ⟨rfl,(Option.some.inj h).symm⟩
  · rw [Function.update_of_ne hk] at h
    exact Or.inr ⟨hk,h⟩

theorem Named.quiet {s : Webhook} {d : Dispatcher} (h : s.Named)
    (hq : s.dispatcher.Quiet d.database) : Named {s with dispatcher := d} := by
  have hkept {id : Uuid} {e : DialogState} (he : d.database.dialogStates.select id = some e) :
      ∃ d₀, s.database.dialogStates.select id = some d₀ ∧ d₀.Keeps e := by
    rcases hq.dialogues id e he with hd | ⟨_,hf⟩
    · exact hd
    · exact hf.elim
  refine ⟨?_,?_,?_,h.handlers⟩
  · intro id e he
    obtain ⟨d₀,hd,_⟩ := hkept he
    exact h.dialogues hd
  · intro t' ht' hsurface
    obtain ⟨t,ht,hsame,_⟩ := hq.tokens t' ht' hsurface
    obtain ⟨id,version,hid,hm,hv,hle⟩ := h.tokens t ht (hsame.surface ▸ hsurface)
    refine ⟨id,version,hsame.dialogueId.trans hid,hm,hsame.version.trans hv,?_⟩
    intro e he
    obtain ⟨d₀,hd,hk⟩ := hkept he
    exact (hle d₀ hd).trans hk.version
  · intro k hk id hcon
    rcases hq.jobs.origin (Table.select_of_mem hk) with ⟨j,hj,hm⟩ | ⟨_,hf⟩
    · exact h.jobs j (Table.mem_of_select hj) id ((hm.concerns id).mp hcon)
    · obtain ⟨⟨d₀,hd⟩,_⟩ := hf id hcon
      exact h.dialogues hd

/-- A token that was there is not ahead of the wait that opens: a new dialogue was not named
before, and a confirmation comes a version later. -/
theorem Named.opened_tokens {s : Webhook} {db : Database} {prompt : Prompt} {e : DialogState}
    {dialogues : List Uuid} {minted : List Token} (h : s.Named)
    (ho : s.Opens db prompt e dialogues minted) {t' : InteractionToken}
    (ht' : t' ∈ db.interactionTokens) (hsurface : t'.surface = .callback) :
    ∃ id version, t'.dialogueId = some id ∧ id ∈ dialogues ++ s.dialogues ∧
      t'.expectedDialogueVersion = some version ∧
        ∀ d, db.dialogStates.select id = some d → version ≤ d.version := by
  rcases ho.tokens t' ht' hsurface with ⟨t,ht,hsame,_⟩ | ⟨hid,hv,_,_⟩
  · obtain ⟨id,version,hid,hm,hv,hle⟩ := h.tokens t ht (hsame.surface ▸ hsurface)
    refine ⟨id,version,hsame.dialogueId.trans hid,List.mem_append_right _ hm,
      hsame.version.trans hv,?_⟩
    intro d hd
    by_cases hne : id = e.id
    · subst hne
      obtain rfl := Option.some.inj (ho.stored.symm.trans hd)
      cases ho.opened with
      | preview _ hnot _ => exact absurd hm hnot
      | confirmation hd₀ _ _ hv₀ _ _ hv₁ _ _ _ _ =>
        have hbefore := hle _ hd₀
        omega
    · exact hle d ((ho.others id hne).symm.trans hd)
  · refine ⟨e.id,e.version,hid,ho.minted h,hv,?_⟩
    intro d hd
    obtain rfl := Option.some.inj (ho.stored.symm.trans hd)
    exact le_rfl

theorem Named.opened {s : Webhook} {i : ℕ} {db : Database} {prompt : Prompt} {e : DialogState}
    {dialogues : List Uuid} {minted : List Token} (h : s.Named)
    (ho : s.Opens db prompt e dialogues minted) :
    (s.transit i db (some prompt) dialogues minted).Named := by
  refine ⟨?_,fun t' => h.opened_tokens ho,?_,?_⟩
  · intro id d hd
    by_cases hid : id = e.id
    · exact hid ▸ ho.minted h
    · exact List.mem_append_right _ (h.dialogues ((ho.others id hid).symm.trans hd))
  · intro j hj id hcon
    refine List.mem_append_right _ (h.jobs j ?_ id hcon)
    rw [← ho.jobs]
    exact hj
  · intro k prompt' hk
    rcases handlers_of_prompt hk with ⟨_,rfl⟩ | ⟨_,hold⟩
    · rw [ho.dialogueId]
      exact ho.minted h
    · exact List.mem_append_right _ (h.handlers hold)

theorem Named.step {s u : Webhook} (h : s.Named) (hs : Steps s u) : u.Named := by
  cases hs with
  | quiet hq _ _ => exact h.quiet hq
  | opened _ ho => exact h.opened ho
  | @enqueued i prompt jobId now jobs hi hinsert =>
    refine ⟨h.dialogues,h.tokens,?_,?_⟩
    · intro j hj id hcon
      rcases (Table.mem_insert hinsert).mp hj with hj | rfl
      · exact h.jobs j hj id hcon
      · obtain rfl : prompt.dialogueId = id := CorrelationId.dialogue.inj (Option.some.inj hcon)
        exact h.handlers hi
    · intro k prompt' hk
      exact h.handlers (handlers_of_update hk).2
  | @lost i prompt hi =>
    refine ⟨h.dialogues,h.tokens,h.jobs,?_⟩
    intro k prompt' hk
    exact h.handlers (handlers_of_update hk).2

end Webhook

end RatatoskrTelegram
