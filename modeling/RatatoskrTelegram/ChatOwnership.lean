import RatatoskrTelegram.JobOrigins
import RatatoskrTelegram.SenderSteps
import RatatoskrTelegram.TokenEffects

/-!
# To whom the stored rows belong

A job and a binding name a chat, a token and a dialogue a chat with a user. Which of them a row can
name is settled by the call that adds it; a row that is stored is never moved to another chat, and
the senders write and deliver in the chats of the rows alone.
-/

namespace RatatoskrTelegram

def Occupied (P : ℤ → ℤ → Prop) (chatId : ℤ) : Prop := ∃ userId, P userId chatId

/-- The users and the chats of the rows that a call adds belong together. -/
def Call.About (P : ℤ → ℤ → Prop) : Call → Prop
  | recordAcceptedCaptureProjection _ _ _ intent _ _ | issueOperationIntent _ intent _ =>
    P intent.scope.telegramUserId intent.scope.chatId
  | enqueueOutboundJob _ job _ | completeRepositoryDialogueProjection _ _ _ _ job _ =>
    Occupied P job.chatId
  | enqueueLibraryReadDelivery intents _ job _ =>
    Occupied P job.chatId ∧
      ∀ prepared ∈ intents, P prepared.scope.telegramUserId prepared.scope.chatId
  | admitNotification _ candidates _ => ∀ c ∈ candidates, P c.1.telegramUserId c.1.chatId
  | recordOutboundAcknowledgement _ job _ _ _ => Occupied P job.chatId
  | createRepositoryPreviewDialogue _ scope _ _ _ _ _ => P scope.telegramUserId scope.chatId
  | consumeRepositorySelection p _ _ _ => P p.actorId p.chatId
  | issueLibraryReadIntent prepared _ => P prepared.scope.telegramUserId prepared.scope.chatId
  | _ => True

/-- The stored rows belong to users in their chats. -/
structure Database.Belongs (P : ℤ → ℤ → Prop) (db : Database) : Prop where
  jobs : ∀ j ∈ db.outboundJobs, Occupied P j.chatId
  bindings : ∀ b ∈ db.messageBindings, Occupied P b.chatId
  tokens : ∀ t ∈ db.interactionTokens, P t.telegramUserId t.chatId
  dialogues : ∀ d ∈ db.dialogStates, P d.telegramUserId d.chatId

theorem DialogState.Moves.scope {d e : DialogState} (h : d.Moves e) :
    e.telegramUserId = d.telegramUserId ∧ e.chatId = d.chatId := by
  cases h with
  | stays | stamped | selected | cancelled | released | completed | expired => exact ⟨rfl,rfl⟩

theorem createRepositoryPreviewDialogue_scope (dialogueId : Uuid) (scope : DialogueScope)
    (target : Json) (accountRef : Option Json)
    (selections : List (RepositoryActionCapability × Token)) (now expiresAt : ℤ) (db : Database) :
    DialoguesMove
      (fun d => d.telegramUserId = scope.telegramUserId ∧ d.chatId = scope.chatId) db.dialogStates
      (createRepositoryPreviewDialogue dialogueId scope target accountRef selections now expiresAt
        db).2.dialogStates := by
  refine transaction_rel (R := fun s t : Database => DialoguesMove
    (fun d => d.telegramUserId = scope.telegramUserId ∧ d.chatId = scope.chatId)
    s.dialogStates t.dialogStates) DialoguesMove.refl ?_
  intro v t h
  split at h
  · split at h
    · simp at h
    · rename_i dialogues hi
      split at h
      · simp at h
      · obtain ⟨-,rfl⟩ := Ending.commit.inj h
        exact ((Table.Evolves.refl fun _ => .stays).insert hi ⟨rfl,rfl⟩).descends
  · simp at h

namespace Database.Belongs

variable {P Q : ℤ → ℤ → Prop} {db : Database} {c : Call}

theorem mono (h : db.Belongs P) (hpq : ∀ userId chatId, P userId chatId → Q userId chatId) :
    db.Belongs Q where
  jobs j hj := (h.jobs j hj).imp fun userId => hpq userId j.chatId
  bindings b hb := (h.bindings b hb).imp fun userId => hpq userId b.chatId
  tokens t ht := hpq _ _ (h.tokens t ht)
  dialogues d hd := hpq _ _ (h.dialogues d hd)

theorem fresh (P : ℤ → ℤ → Prop) : Database.fresh.Belongs P where
  jobs j hj := absurd hj (Table.not_mem_empty j)
  bindings b hb := absurd hb (Table.not_mem_empty b)
  tokens t ht := absurd ht (Table.not_mem_empty t)
  dialogues d hd := absurd hd (Table.not_mem_empty d)

theorem jobs_apply (h : db.Belongs P) (hc : c.Promised) (ha : c.About P) {k : OutboundJob}
    (hk : k ∈ (c.apply db).outboundJobs) : Occupied P k.chatId := by
  have hsel := Table.select_of_mem hk
  rcases (Call.jobs_change hc db).origin hsel with ⟨j,hj,hw⟩ | ⟨hn,hf⟩
  · rw [hw.moves.sameWork.chatId]
    exact h.jobs j (Table.mem_of_select hj)
  · have hadds := Call.jobs_added hc db hn hsel
    cases hf with
    | @edit _ event _ _ binding _ hl _ => exact h.bindings binding (lockBinding_eq_some hl).1
    | @acknowledgement _ _ jobId intent job now _ hv _ _ _ _ =>
      have hchat : (job.row jobId now).chatId = intent.scope.chatId := hv.2.2.1
      rw [hchat]
      exact ⟨_,ha⟩
    | direct _ _ ho _ =>
      cases hadds with
      | edit => simp [editJob] at ho
      | acknowledgement hv =>
        have hop : _ = none := ho
        exact absurd (hv.2.2.2.2.1.symm.trans hop) (by simp)
      | enqueued => exact ha
      | delivered => exact ha.1
      | notified hm => exact ⟨_,ha _ hm⟩
      | completed => exact ha

theorem bindings_apply (h : db.Belongs P) (ha : c.About P) {b : MessageBinding}
    (hb : b ∈ (c.apply db).messageBindings) : Occupied P b.chatId := by
  rcases (Call.bindings_change c db).origin (Table.select_of_mem hb) with ⟨r,hr,hw⟩ | ⟨-,hf⟩
  · rw [hw.advances.chatId]
    exact h.bindings r (Table.mem_of_select hr)
  · cases hf with
    | captured => exact ⟨_,ha⟩
    | acknowledged _ _ hchat _ =>
      rw [← hchat]
      exact ha

theorem tokens_apply (h : db.Belongs P) (ha : c.About P) {t : InteractionToken}
    (ht : t ∈ (c.apply db).interactionTokens) : P t.telegramUserId t.chatId := by
  rcases (Call.tokens_change c db).origin (Table.select_of_mem ht) with ⟨r,hr,hw⟩ | ⟨-,hf⟩
  · rw [hw.same.telegramUserId,hw.same.chatId]
    exact h.tokens r (Table.mem_of_select hr)
  · cases hf with
    | selection => exact ha
    | confirmation => exact ha
    | captured => exact ha
    | delivered hm _ => exact ha.2 _ hm
    | operation => exact ha
    | read => exact ha

theorem dialogues_apply (h : db.Belongs P) (ha : c.About P) {d : DialogState}
    (hd : d ∈ (c.apply db).dialogStates) : P d.telegramUserId d.chatId := by
  have hsel := Table.select_of_mem hd
  rcases Call.dialogues_move c db _ d hsel with ⟨r,hr,hm⟩ | ⟨hn,hcreates,-⟩
  · rw [hm.scope.1,hm.scope.2]
    exact h.dialogues r (Table.mem_of_select hr)
  · cases c with
    | createRepositoryPreviewDialogue dialogueId scope target accountRef selections now expiresAt =>
      rcases createRepositoryPreviewDialogue_scope dialogueId scope target accountRef selections
        now expiresAt db _ d hsel with ⟨r,hr,-⟩ | ⟨-,huser,hchat⟩
      · exact absurd (hn.symm.trans hr) (by simp)
      · rw [huser,hchat]
        exact ha
    | _ => exact hcreates.elim

theorem apply (h : db.Belongs P) (hc : c.Promised) (ha : c.About P) : (c.apply db).Belongs P where
  jobs _ hk := h.jobs_apply hc ha hk
  bindings _ hb := h.bindings_apply ha hb
  tokens _ ht := h.tokens_apply ha ht
  dialogues _ hd := h.dialogues_apply ha hd

end Database.Belongs

def WireEvent.job : WireEvent → QueuedOutboundJob
  | request job _ | answered job _ _ | refused job _ _ => job

namespace Dispatcher

/-- Whatever is stored or has passed on the wire belongs to somebody, and so does what the senders
have at hand. -/
structure Belongs (P : ℤ → ℤ → Prop) (s : Dispatcher) : Prop where
  claims : s.Claims
  database : s.database.Belongs P
  wire : ∀ event ∈ s.wire, Occupied P event.job.chatId

variable {P Q : ℤ → ℤ → Prop} {limits : SenderLimits} {s t : Dispatcher} {a : Action}

theorem Belongs.mono (h : s.Belongs P) (hpq : ∀ userId chatId, P userId chatId → Q userId chatId) :
    s.Belongs Q where
  claims := h.claims
  database := h.database.mono hpq
  wire event he := (h.wire event he).imp fun userId => hpq userId event.job.chatId

theorem Belongs.initial (P : ℤ → ℤ → Prop) : Belongs P initial where
  claims := Claims.initial
  database := .fresh P
  wire event he := by simp [Dispatcher.initial] at he

theorem Belongs.held (h : s.Belongs P) {i : ℕ} {job : QueuedOutboundJob} {stage : Stage}
    (hi : s.senders i = .working job stage) : Occupied P job.chatId := by
  obtain ⟨j,hj,hcopies⟩ := h.claims.copies hi
  rw [← hcopies.chatId]
  exact h.database.jobs j (Table.mem_of_select hj)

/-- A producer's call is about what it says, and a sender's about the claimed job. -/
theorem Steps.about (hs : Steps limits s a t) (h : s.Belongs P)
    (ha : ∀ c : Call, a = .produce c → c.About P) :
    t.database = s.database ∨
      ∃ c : Call, c.Promised ∧ c.About P ∧ t.database = c.apply s.database := by
  cases hs with
  | ticked | snapped | resolved | deferred | put | answered | refused | retried | rested =>
    exact Or.inl rfl
  | produced hc _ => exact Or.inr ⟨_,hc,ha _ rfl,rfl⟩
  | began | claimed | prepared | settled | failed | rendered | unbound =>
    refine Or.inr ⟨_,?_,?_,call_database s _ _ _⟩ <;> trivial
  | recorded hi _ | committed _ hi =>
    refine Or.inr ⟨_,?_,?_,call_database s _ _ _⟩
    · trivial
    · exact h.held hi

theorem Belongs.step (h : s.Belongs P) (hs : Steps limits s a t)
    (ha : ∀ c : Call, a = .produce c → c.About P) : t.Belongs P where
  claims := h.claims.step hs
  database := by
    rcases hs.about h ha with he | ⟨c,hc,habout,he⟩
    · rw [he]
      exact h.database
    · rw [he]
      exact h.database.apply hc habout
  wire event he := by
    have hgrown {i : ℕ} {job : QueuedOutboundJob} {stage : Stage} {seen : WireEvent}
        (hi : s.senders i = .working job stage) (hseen : seen.job = job)
        (he : event ∈ s.wire ++ [seen]) : Occupied P event.job.chatId := by
      rcases List.mem_append.mp he with he | he
      · exact h.wire event he
      · rw [List.mem_singleton.mp he,hseen]
        exact h.held hi
    cases hs.observes with
    | quiet hw =>
      rw [hw] at he
      exact h.wire event he
    | put hi ht =>
      subst ht
      exact hgrown hi rfl he
    | answered messageId hi ht =>
      subst ht
      exact hgrown hi rfl he
    | refused shape hi ht =>
      subst ht
      exact hgrown hi rfl he

end Dispatcher

end RatatoskrTelegram
