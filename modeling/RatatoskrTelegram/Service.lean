import RatatoskrTelegram.ChatOwnership
import RatatoskrTelegram.HandlerScope
import RatatoskrTelegram.NotificationTransport

/-!
# The service

Any number of workers take updates through the gate and on to their handlers, any number of
consumers admit notifications, and the senders deliver. They share one store, and their steps fall
between each other as they may.
-/

namespace RatatoskrTelegram

/-- What a worker is about; a handler goes on with the answers it has got so far. -/
inductive HandlingStage
  | idle
  | gating (item : WorkItem) (stage : GateStage)
  | handling (item : WorkItem) (asked : Exchanges) (handler : Handler ProcessingOutcome)

/-- `venues` is what each consumer has found for the notification it admits next. -/
structure Service where
  access : AccessStore
  dispatcher : Dispatcher
  workers : ℕ → HandlingStage
  venues : ℕ → List CandidateRow

/-- `ends` is a worker that is gone, or that goes on to its next update. -/
inductive ServiceAction
  | takes (worker : ℕ) (item : WorkItem)
  | gates (worker : ℕ)
  | losesGate (worker : ℕ) (applied : Bool) (cause : PersistenceError)
  | starts (worker : ℕ)
  | asks (worker : ℕ) (e : Exchange Request Request.Answer)
  | ends (worker : ℕ)
  | operates (w : AccessWrite)
  | finds (consumer : ℕ) (recipient : Uuid) (notificationClass : String)
  | notifies (consumer : ℕ) (notification : NewNotificationDelivery) (ids : List (Uuid × Uuid))
      (now : ℤ)
  | keeps (c : Call)
  | dispatches (a : Action)

/-- The calls of the intake, of the operation followers and of the cleanup. -/
def Call.keeps : Call → Bool
  | recordUpdate _ _ | claimUpdate _ _ | deferUpdateRetry _ _ _ | settleUpdate _ _ _ _
  | acceptOperationEvent _ _ _ _ | cleanupInteractions _ _ _ _ _ => true
  | _ => false

namespace Service

def start (store : AccessStore) : Service := ⟨store,.initial,fun _ => .idle,fun _ => []⟩

def turns (s : Service) (worker : ℕ) (stage : HandlingStage) : Service :=
  {s with workers := Function.update s.workers worker stage}

def tables (s : Service) : HandlerTables := ⟨s.access,s.dispatcher.database⟩

def stores (s : Service) (v : HandlerTables) : Service :=
  {s with access := v.access, dispatcher := {s.dispatcher with database := v.database}}

def calls (s : Service) (c : Call) : Service :=
  {s with dispatcher := {s.dispatcher with database := c.apply s.dispatcher.database}}

def finds (s : Service) (consumer : ℕ) (found : List CandidateRow) : Service :=
  {s with venues := Function.update s.venues consumer found}

inductive Steps (setup : WorkerSetup) (limits : SenderLimits) (s : Service) :
    ServiceAction → Service → Prop
  | took {worker : ℕ} {item : WorkItem} : s.workers worker = .idle →
      Steps setup limits s (.takes worker item)
        (s.turns worker (.gating item (.begin item.update.body)))
  | gated {worker : ℕ} {item : WorkItem} {stage stage' : GateStage} {after : AccessStore} :
      s.workers worker = .gating item stage → stage.next s.access = some (stage',after) →
      Steps setup limits s (.gates worker)
        (turns {s with access := after} worker (.gating item stage'))
  | gateLost {worker : ℕ} {applied : Bool} {cause : PersistenceError} {item : WorkItem}
      {stage stage' : GateStage} {after : AccessStore} :
      s.workers worker = .gating item stage → stage.next s.access = some (stage',after) →
      Steps setup limits s (.losesGate worker applied cause)
        (turns {s with access := if applied then after else s.access} worker
          (.gating item (.failed cause)))
  | started {worker : ℕ} {item : WorkItem} {senderId chatId : ℤ} :
      s.workers worker = .gating item (.admitted senderId chatId) →
      Steps setup limits s (.starts worker)
        (s.turns worker (.handling item [] (Handlers.selfDomainAction setup item)))
  | asked {worker : ℕ} {item : WorkItem} {asked : Exchanges} {q : Request}
      {next : q.Answer → Handler ProcessingOutcome} {answer : q.Answer} {v : HandlerTables} :
      s.workers worker = .handling item asked (.ask q next) → s.tables.Answers q answer v →
      Steps setup limits s (.asks worker ⟨q,answer⟩)
        ((s.stores v).turns worker (.handling item (asked ++ [⟨q,answer⟩]) (next answer)))
  | ended {worker : ℕ} : Steps setup limits s (.ends worker) (s.turns worker .idle)
  | operated (w : AccessWrite) :
      Steps setup limits s (.operates w) {s with access := w.apply s.access}
  | found (consumer : ℕ) (recipient : Uuid) (notificationClass : String) :
      Steps setup limits s (.finds consumer recipient notificationClass)
        (s.finds consumer (s.access.candidateRows recipient notificationClass))
  | notified (consumer : ℕ) (notification : NewNotificationDelivery) (ids : List (Uuid × Uuid))
      (now : ℤ) : Steps setup limits s (.notifies consumer notification ids now)
        (s.calls (.admitNotification notification ((s.venues consumer).zip ids) now))
  | kept {c : Call} : c.keeps = true → Steps setup limits s (.keeps c) (s.calls c)
  | dispatched {a : Action} {after : Dispatcher} : (∀ c, a ≠ .produce c) →
      Dispatcher.step limits s.dispatcher a = some after →
      Steps setup limits s (.dispatches a) {s with dispatcher := after}

/-- A run from empty tables behind the given identities and chats. -/
abbrev Runs (setup : WorkerSetup) (limits : SenderLimits) (store : AccessStore)
    (tr : List ServiceAction) (s : Service) : Prop :=
  Run (Steps setup limits) (start store) tr s

end Service

abbrev AccessStore.Owner (store : AccessStore) (userId chatId : ℤ) : Prop :=
  store.Owns userId chatId

def enqueued (history : Exchanges) : ℕ := history.countP fun e => e.request.enqueues

theorem Quiet.enqueued {history : Exchanges} (h : Quiet history) : enqueued history = 0 := by
  refine List.countP_eq_zero.mpr ?_
  intro e he
  simp [h e he]

theorem Allowed.enqueued {who : Acting} {history : Exchanges} {q : Request}
    (h : Allowed who history q) (hone : enqueued history ≤ 1) (answer : q.Answer) :
    RatatoskrTelegram.enqueued (history ++ [⟨q,answer⟩]) ≤ 1 := by
  unfold RatatoskrTelegram.enqueued at hone ⊢
  rw [List.countP_append,List.countP_singleton]
  dsimp only
  split
  · rename_i hq
    have hnone : List.countP (fun e => e.request.enqueues) history = 0 := (h.2 hq).enqueued
    omega
  · omega

/-- What a pass through the gate has found out about its item. -/
def GateStage.About (item : WorkItem) : GateStage → Prop
  | finding senderId chat => ∃ user, user.senderId = some senderId ∧
      item.update.body.principals = some (some user,chat)
  | inserting senderId chatId | reading senderId chatId | binding senderId chatId
  | admitted senderId chatId => Acting.Speaks ⟨item.botId,senderId,chatId⟩ item
  | _ => True

/-- What a worker rests on: an admission is of the owner of the chat, and a handler that is under
way is safe to go on in the name of the owner. -/
def HandlingStage.Rightful (store : AccessStore) : HandlingStage → Prop
  | idle => True
  | gating item stage => stage.About item ∧
      ∀ senderId chatId, stage = .admitted senderId chatId → store.Owns senderId chatId
  | handling item asked handler => ∃ who : Acting, who.Speaks item ∧
      store.Owns who.userId who.chatId ∧ handler.Safe (Allowed who) Accounted asked ∧
      enqueued asked ≤ 1

def AccessStore.Keeps (store after : AccessStore) : Prop :=
  ∀ userId chatId, store.Owns userId chatId → after.Owns userId chatId

theorem HandlingStage.Rightful.mono {store after : AccessStore} {stage : HandlingStage}
    (h : stage.Rightful store) (hk : store.Keeps after) : stage.Rightful after := by
  cases stage with
  | idle => trivial
  | gating item stage =>
    exact ⟨h.1,fun senderId chatId hs => hk senderId chatId (h.2 senderId chatId hs)⟩
  | handling item asked handler =>
    obtain ⟨who,hspeaks,howns,h⟩ := h
    exact ⟨who,hspeaks,hk _ _ howns,h⟩

namespace GateStage

variable {item : WorkItem} {stage stage' : GateStage} {store after : AccessStore}

theorem about_begin (item : WorkItem) : (begin item.update.body).About item := by
  unfold begin
  cases hp : item.update.body.principals with
  | none => trivial
  | some principals =>
    obtain ⟨sender,chat⟩ := principals
    dsimp only
    cases hs : sender.bind User.senderId with
    | none => trivial
    | some senderId =>
      obtain ⟨user,rfl,hid⟩ := Option.bind_eq_some_iff.mp hs
      exact ⟨user,hid,hp⟩

theorem about_identified {senderId : ℤ} {chat : Option Chat}
    (h : (finding senderId chat).About item) (found : Option IdentityRecord) :
    (identified senderId chat found).About item := by
  obtain ⟨user,hid,hp⟩ := h
  unfold identified
  cases hs : found.map IdentityRecord.accessState with
  | none => trivial
  | some state =>
    cases state with
    | disabled => trivial
    | enabled =>
      cases chat with
      | none => trivial
      | some chat =>
        dsimp only
        split
        · trivial
        · rename_i hkind
          obtain ⟨id,kind⟩ := chat
          obtain rfl : kind = .privateChat := by simpa using hkind
          exact ⟨rfl,user,hid,hp⟩

/-- A pass that goes on is about the same sender and chat, and it is admitted by a binding. -/
theorem about_next (h : stage.About item) (hn : stage.next store = some (stage',after)) :
    stage'.About item ∧
      ∀ senderId chatId, stage' = .admitted senderId chatId → after.Owns senderId chatId := by
  unfold next at hn
  cases stage with
  | finding senderId chat =>
    obtain ⟨rfl,-⟩ := Prod.mk.inj (Option.some.inj hn)
    refine ⟨about_identified h _,?_⟩
    intro id chatId hs
    unfold identified at hs
    split at hs
    · simp at hs
    · simp at hs
    · split at hs
      · simp at hs
      · split at hs <;> simp at hs
  | inserting senderId chatId =>
    obtain ⟨rfl,-⟩ := Prod.mk.inj (Option.some.inj hn)
    exact ⟨h,by simp⟩
  | reading senderId chatId =>
    obtain ⟨rfl,-⟩ := Prod.mk.inj (Option.some.inj hn)
    unfold evaluated
    split
    · exact ⟨trivial,by simp⟩
    · split
      · exact ⟨trivial,by simp⟩
      · exact ⟨h,by simp⟩
  | binding senderId chatId =>
    rcases store.bindPrivateChat_cases senderId chatId with ⟨e,hb⟩ | ⟨hb,hfree,-⟩
    · simp only [hb] at hn
      obtain ⟨rfl,-⟩ := Prod.mk.inj (Option.some.inj hn)
      exact ⟨trivial,by simp⟩
    · simp only [hb] at hn
      obtain ⟨rfl,rfl⟩ := Prod.mk.inj (Option.some.inj hn)
      refine ⟨h,?_⟩
      intro id there hs
      obtain ⟨rfl,rfl⟩ := GateStage.admitted.inj hs
      exact AccessStore.owns_bound hfree
  | _ => simp at hn

end GateStage

theorem Transaction.call_within {who : Acting} {t : Transaction} (h : t.Within who)
    (ids : TransactionIds) {P : ℤ → ℤ → Prop} (hp : P who.userId who.chatId) :
    (t.call ids).Promised ∧ (t.call ids).isProducer = true ∧ (t.call ids).About P := by
  have hsends {job : NewOutboundJob} (hs : who.Sends job) : Occupied P job.chatId := by
    rw [hs.2.2]
    exact ⟨_,hp⟩
  cases t with
  | enqueueOutboundJob job now => exact ⟨h.1,rfl,hsends h⟩
  | enqueueLibraryReadDelivery intents job now =>
    refine ⟨h.1.1,rfl,hsends h.1,?_⟩
    intro prepared hmem
    obtain ⟨-,huser,hchat⟩ := h.2 prepared hmem
    rw [huser,hchat]
    exact hp
  | resolveOperationIntent p | resolveLibraryReadIntent p => exact ⟨trivial,rfl,trivial⟩
  | createRepositoryPreviewDialogue scope target accountRef actions now expiresAt =>
    obtain rfl : scope = who.scope := h
    exact ⟨trivial,rfl,hp⟩
  | consumeRepositorySelection p now =>
    obtain ⟨-,huser,hchat⟩ : who.Presses p := h
    refine ⟨trivial,rfl,?_⟩
    show P p.actorId p.chatId
    rw [huser,hchat]
    exact hp
  | consumeRepositoryDecision p now => exact ⟨trivial,rfl,trivial⟩
  | completeRepositoryDialogueProjection dialogueId update result job now =>
    exact ⟨trivial,rfl,hsends h.2⟩
  | recordAcceptedCaptureProjection intent acknowledgement now =>
    refine ⟨trivial,rfl,?_⟩
    show P intent.scope.telegramUserId intent.scope.chatId
    rw [h.1]
    exact hp

theorem PreferenceStatement.keeps (store : AccessStore) (s : PreferenceStatement) :
    store.Keeps (s.after store) := by
  intro userId chatId h
  cases s with
  | readRow | readOverrides | write => exact h

theorem HandlerTables.Answers.effect {v v' : HandlerTables} {q : Request} {answer : q.Answer}
    {who : Acting} {history : Exchanges} (h : v.Answers q answer v') (hw : q.Within who history)
    {P : ℤ → ℤ → Prop} (hp : P who.userId who.chatId) :
    v.access.Keeps v'.access ∧ (v'.database = v.database ∨
      ∃ c : Call, c.Promised ∧ c.isProducer = true ∧ c.About P ∧
        v'.database = c.apply v.database) := by
  have hsame : v.access.Keeps v.access := fun _ _ h => h
  cases h with
  | clock | minted | aborted | failed | platform | file => exact ⟨hsame,Or.inl rfl⟩
  | transacted ids t | committed ids t =>
    obtain ⟨hc,hproducer,habout⟩ := Transaction.call_within hw ids hp
    exact ⟨hsame,Or.inr ⟨_,hc,hproducer,habout,rfl⟩⟩
  | stated s | written s => exact ⟨s.keeps v.access,Or.inl rfl⟩

namespace Service

variable {setup : WorkerSetup} {limits : SenderLimits} {store : AccessStore}
  {tr : List ServiceAction} {s t : Service} {a : ServiceAction}

structure Upright (s : Service) : Prop where
  dispatcher : s.dispatcher.Belongs s.access.Owner
  venues : ∀ consumer, ∀ c ∈ s.venues consumer, s.access.Owns c.telegramUserId c.chatId
  workers : ∀ worker, (s.workers worker).Rightful s.access

theorem Upright.start (store : AccessStore) : (start store).Upright where
  dispatcher := .initial _
  venues consumer c hc := by simp [Service.start] at hc
  workers worker := trivial

/-- Another store of identities and chats, in which nobody has lost a chat. -/
theorem Upright.moves (h : s.Upright) {after : AccessStore} (hk : s.access.Keeps after) :
    Upright {s with access := after} where
  dispatcher := h.dispatcher.mono hk
  venues consumer c hc := hk _ _ (h.venues consumer c hc)
  workers worker := (h.workers worker).mono hk

theorem Upright.turns (h : s.Upright) {worker : ℕ} {stage : HandlingStage}
    (hstage : stage.Rightful s.access) : (s.turns worker stage).Upright where
  dispatcher := h.dispatcher
  venues := h.venues
  workers other := by
    show (Function.update s.workers worker stage other).Rightful s.access
    by_cases he : other = worker
    · subst he
      rw [Function.update_self]
      exact hstage
    · rw [Function.update_of_ne he]
      exact h.workers other

theorem Upright.finds (h : s.Upright) {consumer : ℕ} {found : List CandidateRow}
    (hfound : ∀ c ∈ found, s.access.Owns c.telegramUserId c.chatId) :
    (s.finds consumer found).Upright where
  dispatcher := h.dispatcher
  venues other c hc := by
    have hc : c ∈ Function.update s.venues consumer found other := hc
    by_cases he : other = consumer
    · subst he
      rw [Function.update_self] at hc
      exact hfound c hc
    · rw [Function.update_of_ne he] at hc
      exact h.venues other c hc
  workers := h.workers

theorem Upright.calls (limits : SenderLimits) (h : s.Upright) {c : Call} (hc : c.Promised)
    (hp : c.isProducer = true) (ha : c.About s.access.Owner) : (s.calls c).Upright where
  dispatcher := by
    have hstep : Dispatcher.Steps limits s.dispatcher (.produce c) (s.calls c).dispatcher :=
      .produced hc hp
    refine h.dispatcher.step hstep ?_
    intro c' he
    obtain rfl := Action.produce.inj he
    exact ha
  venues := h.venues
  workers := h.workers

theorem Upright.asks (limits : SenderLimits) (h : s.Upright) {worker : ℕ} {item : WorkItem}
    {asked : Exchanges} {q : Request} {next : q.Answer → Handler ProcessingOutcome}
    {answer : q.Answer} {v : HandlerTables}
    (hw : s.workers worker = .handling item asked (.ask q next))
    (ha : s.tables.Answers q answer v) :
    ((s.stores v).turns worker
      (.handling item (asked ++ [⟨q,answer⟩]) (next answer))).Upright := by
  have hrightful := h.workers worker
  rw [hw] at hrightful
  obtain ⟨who,hspeaks,howns,⟨hallowed,hnext⟩,hone⟩ := hrightful
  obtain ⟨hk,heffect⟩ := ha.effect (P := s.access.Owner) hallowed.1 howns
  have hstored : (s.stores v).Upright := by
    rcases heffect with he | ⟨c,hc,hp,habout,he⟩
    · have hmoved := h.moves hk
      rw [stores,he]
      exact hmoved
    · have hcalled := (h.calls limits hc hp habout).moves hk
      rw [stores,he]
      exact hcalled
  exact hstored.turns ⟨who,hspeaks,hk _ _ howns,hnext answer,hallowed.enqueued hone answer⟩

theorem Upright.step (h : s.Upright) (hs : Steps setup limits s a t) : t.Upright := by
  cases hs with
  | @took worker item hw =>
    refine h.turns ⟨GateStage.about_begin item,?_⟩
    intro senderId chatId hadmitted
    unfold GateStage.begin at hadmitted
    split at hadmitted
    · simp at hadmitted
    · split at hadmitted <;> simp at hadmitted
  | @gated worker item stage stage' after hw hn =>
    have hrightful := h.workers worker
    rw [hw] at hrightful
    have hk : s.access.Keeps after := fun _ _ howns => howns.writes (GateStage.next_writes hn)
    exact (h.moves hk).turns (GateStage.about_next hrightful.1 hn)
  | @gateLost worker applied cause item stage stage' after hw hn =>
    have hk : s.access.Keeps (if applied then after else s.access) := by
      intro userId chatId howns
      cases applied with
      | true => exact howns.writes (GateStage.next_writes hn)
      | false => exact howns
    exact (h.moves hk).turns ⟨trivial,by simp⟩
  | @started worker item senderId chatId hw =>
    have hrightful := h.workers worker
    rw [hw] at hrightful
    exact h.turns ⟨⟨item.botId,senderId,chatId⟩,hrightful.1,hrightful.2 _ _ rfl,
      Handlers.safe_selfDomainAction hrightful.1 setup,by simp [enqueued]⟩
  | asked hw ha => exact h.asks limits hw ha
  | ended => exact h.turns trivial
  | operated w => exact h.moves fun _ _ howns => howns.apply w
  | found consumer recipient notificationClass =>
    exact h.finds fun c hc => (AccessStore.mem_candidateRows hc).1
  | notified consumer notification ids now =>
    refine h.calls limits trivial rfl ?_
    intro c hc
    exact h.venues consumer c.1 (List.of_mem_zip hc).1
  | @kept c hkeeps =>
    cases c with
    | recordUpdate | claimUpdate | deferUpdateRetry | settleUpdate | acceptOperationEvent
    | cleanupInteractions => exact h.calls limits trivial rfl trivial
    | _ => simp [Call.keeps] at hkeeps
  | dispatched ha hstep =>
    exact ⟨h.dispatcher.step (Dispatcher.steps_of_step hstep) fun c hc => absurd hc (ha c),
      h.venues,h.workers⟩

theorem upright_run (h : Runs setup limits store tr s) : s.Upright :=
  h.invariant (.start store) fun _ _ _ hv hs => hv.step hs

/-- However the steps of the workers, the consumers, the senders and the operator fall: whatever is
stored, and whatever has passed on the wire, is in a chat that somebody owns, with the owner's
tokens and dialogues, and a worker asks for nothing but in the name of the sender of its update,
who owns the chat it came from. -/
theorem acts_for_owner (h : Runs setup limits store tr s) :
    s.dispatcher.database.Belongs s.access.Owner ∧
    (∀ event ∈ s.dispatcher.wire, Occupied s.access.Owner event.job.chatId) ∧
    ∀ {worker : ℕ} {item : WorkItem} {asked : Exchanges} {q : Request}
      {next : q.Answer → Handler ProcessingOutcome},
      s.workers worker = .handling item asked (.ask q next) →
      ∃ who : Acting, who.Speaks item ∧ s.access.Owns who.userId who.chatId ∧
        q.Within who asked := by
  have hupright := upright_run h
  refine ⟨hupright.dispatcher.database,hupright.dispatcher.wire,?_⟩
  intro worker item asked q next hw
  have hrightful := hupright.workers worker
  rw [hw] at hrightful
  obtain ⟨who,hspeaks,howns,⟨hallowed,-⟩,-⟩ := hrightful
  exact ⟨who,hspeaks,howns,hallowed.1⟩

/-- In every run, a handler asks for one message at most, and when it comes to its end the outcome
accounts for what it has asked. -/
theorem outcome_accounted (h : Runs setup limits store tr s) {worker : ℕ} {item : WorkItem}
    {asked : Exchanges} {handler : Handler ProcessingOutcome}
    (hw : s.workers worker = .handling item asked handler) :
    enqueued asked ≤ 1 ∧ ∀ outcome, handler = .done outcome → Accounted asked outcome := by
  have hrightful := (upright_run h).workers worker
  rw [hw] at hrightful
  obtain ⟨who,hspeaks,howns,hsafe,hone⟩ := hrightful
  refine ⟨hone,?_⟩
  rintro outcome rfl
  exact hsafe

end Service

namespace PressedButton

open Service

def setup : WorkerSetup where
  parseUrl _ := none
  parseContract _ := none
  parseMediaType _ := none
  sha256 _ := []
  knownClasses := []
  actionRequest _ := none
  resultJson _ := ""
  maxAttachmentBytes := 0

def limits : SenderLimits := ⟨5,2,60,30⟩

def callback : CallbackQuery :=
  ⟨"query",FirstContact.owner,some (.regular ⟨none,⟨42,.privateChat⟩⟩ 5),some []⟩

def item : WorkItem := ⟨7,1,.callbackQuery callback⟩

def presses : CallbackPresentation := ⟨[],⟨7,1⟩,42,42,5⟩

def beginning : List ServiceAction :=
  [.takes 0 item,.gates 0,.gates 0,.gates 0,.gates 0,.starts 0,.asks 0 ⟨.clock,10⟩]

section Worker

variable {tr : List ServiceAction} {s : Service} {after : AccessStore} {asked : Exchanges}

theorem passes (h : Runs setup limits FirstContact.store tr s) (stage stage' : GateStage)
    (hw : s.workers 0 = .gating item stage) (hn : stage.next s.access = some (stage',after)) :
    Runs setup limits FirstContact.store (tr ++ [ServiceAction.gates 0])
      (turns {s with access := after} 0 (.gating item stage')) :=
  h.snoc (.gated hw hn)

theorem starts (h : Runs setup limits FirstContact.store tr s)
    (hw : s.workers 0 = .gating item (.admitted 42 42)) :
    Runs setup limits FirstContact.store (tr ++ [ServiceAction.starts 0])
      (s.turns 0 (.handling item [] (Handlers.selfDomainAction setup item))) :=
  h.snoc (.started hw)

theorem asks (h : Runs setup limits FirstContact.store tr s) (q : Request) (answer : q.Answer)
    {next : q.Answer → Handler ProcessingOutcome}
    (hw : s.workers 0 = .handling item asked (.ask q next))
    (ha : s.tables.Answers q answer s.tables) :
    Runs setup limits FirstContact.store (tr ++ [ServiceAction.asks 0 ⟨q,answer⟩])
      ((s.stores s.tables).turns 0 (.handling item (asked ++ [⟨q,answer⟩]) (next answer))) :=
  h.snoc (.asked hw ha)

end Worker

theorem beginning_run : ∃ s, Runs setup limits FirstContact.store beginning s ∧
    s.workers 0 = .handling item [⟨.clock,10⟩]
      (Handlers.handleCallback setup item callback 10 >>= fun outcome =>
        pure outcome.processing) := by
  have htaken : Runs setup limits FirstContact.store [.takes 0 item] _ := Run.single (.took rfl)
  have hfound := passes htaken (.finding 42 (some ⟨42,.privateChat⟩)) (.inserting 42 42) rfl rfl
  have hinserted := passes hfound (.inserting 42 42) (.reading 42 42) rfl rfl
  have hread := passes hinserted (.reading 42 42) (.binding 42 42) rfl rfl
  have hbound := passes hread (.binding 42 42) (.admitted 42 42) rfl rfl
  have hasked := asks (starts hbound rfl) .clock (10 : ℤ) rfl (.clock 10)
  exact ⟨_,hasked,rfl⟩

/-- The token is looked up in the name of the owner. -/
theorem pressed_by_owner : ∃ s who, Runs setup limits FirstContact.store beginning s ∧
    Acting.Speaks who item ∧ s.access.Owns who.userId who.chatId ∧
    (Request.transaction (.consumeRepositorySelection presses 10)).Within who [⟨.clock,10⟩] := by
  obtain ⟨s,hrun,hw⟩ := beginning_run
  obtain ⟨who,hwho⟩ := (acts_for_owner hrun).2.2 (hw.trans rfl)
  exact ⟨s,who,hrun,hwho⟩

def lookup : Exchange Request Request.Answer :=
  ⟨.transaction (.consumeRepositorySelection presses 10),.error .stalePreference⟩

def reply : Exchange Request Request.Answer := ⟨.file (.answerCallbackQuery "query"),none⟩

theorem failing_run : ∃ s,
    Runs setup limits FirstContact.store
      (beginning ++ [ServiceAction.asks 0 lookup] ++ [ServiceAction.asks 0 reply]) s ∧
    s.workers 0 = .handling item [⟨.clock,10⟩,lookup,reply] (.done (.settle .failed)) := by
  obtain ⟨s,hrun,hw⟩ := beginning_run
  have hlooked := asks hrun lookup.request lookup.answer (hw.trans rfl) (.aborted _ _)
  have hended := asks hlooked reply.request reply.answer rfl (.file _ _)
  exact ⟨_,hended,rfl⟩

theorem failure_accounted : ∃ s,
    Runs setup limits FirstContact.store
      (beginning ++ [ServiceAction.asks 0 lookup] ++ [ServiceAction.asks 0 reply]) s ∧
    enqueued [⟨.clock,10⟩,lookup,reply] ≤ 1 ∧
    Accounted [⟨.clock,10⟩,lookup,reply] (.settle .failed) := by
  obtain ⟨s,hrun,hw⟩ := failing_run
  obtain ⟨hone,haccounted⟩ := outcome_accounted hrun hw
  exact ⟨s,hrun,hone,haccounted _ rfl⟩

end PressedButton

end RatatoskrTelegram
