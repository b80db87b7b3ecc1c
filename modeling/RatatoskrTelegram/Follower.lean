import RatatoskrTelegram.SenderSteps

/-!
# The follower, the feed and the projection consumer

A follower hands the frames of one operation to a shared feed and, after a
terminal one, waits until the canonical binding is terminal. The consumer takes
the events one by one; what it cannot accept it drops.
-/

namespace RatatoskrTelegram

inductive OperationStatus
  | accepted | queued | running | succeeded | partiallySucceeded | failed | cancelled
  deriving DecidableEq, Repr

def OperationStatus.isTerminal : OperationStatus → Bool
  | succeeded | partiallySucceeded | failed | cancelled => true
  | accepted | queued | running => false

structure OperationEvent where
  eventId : Uuid
  occurredAtSecs : ℤ
  correlationId : CorrelationId
  operationId : Uuid
  status : OperationStatus
  deriving DecidableEq, Repr

/-- The event of one frame; its correlation text is `operation:` before the operation's id. -/
def mapFrame (operationId eventId : Uuid) (observedAtSecs : ℤ) (status : OperationStatus) :
    OperationEvent where
  eventId := eventId
  occurredAtSecs := observedAtSecs
  correlationId := .other ("operation:" ++ toString operationId)
  operationId := operationId
  status := status

/-- What the consumer hands to the accept step, given the rendered payload and its hash. -/
def OperationEvent.rendered (event : OperationEvent) (payload : MessagePayload)
    (contentHash : String) : AcceptedEvent where
  operationId := event.operationId
  eventId := event.eventId
  occurredAtSecs := event.occurredAtSecs
  terminal := event.status.isTerminal
  payload := payload
  contentHash := contentHash
  correlationId := event.correlationId

inductive FollowState
  | away | pumping | waiting
  deriving DecidableEq, Repr

/-- One followed operation beside the feed all operations share. `observed` keeps the events its
follower has handed over. -/
structure Following where
  database : Database
  follower : FollowState
  feed : List OperationEvent
  accepting : Option OperationEvent
  observed : List OperationEvent

inductive FollowAction
  | scan
  | frame (eventId : Uuid) (observedAtSecs : ℤ) (status : OperationStatus)
  | stop
  | poll
  | feed (event : OperationEvent)
  | take
  | accept (jobId : Uuid) (payload : MessagePayload) (contentHash : String)
      (now renderIntervalSecs : ℤ)
  | fault
  | call (c : Call)

def Settled (operationId : Uuid) (db : Database) : Prop :=
  ∃ b ∈ lockBinding operationId db.messageBindings, b.terminal = true

instance (operationId : Uuid) (db : Database) : Decidable (Settled operationId db) := by
  delta Settled
  infer_instance

def Unsettled (operationId : Uuid) (db : Database) : Prop :=
  ∃ b ∈ lockBinding operationId db.messageBindings, b.terminal = false

instance (operationId : Uuid) (db : Database) : Decidable (Unsettled operationId db) := by
  delta Unsettled
  infer_instance

section Calls

variable {operationId : Uuid} {db : Database} {c : Call}

theorem lockBinding_apply {b : MessageBinding}
    (hb : lockBinding operationId db.messageBindings = some b)
    (hc : ∀ created ∈ (c.apply db).messageBindings.rows, created.operationId = operationId →
      b.chatId ≤ created.chatId) :
    ∃ b', lockBinding operationId (c.apply db).messageBindings = some b' ∧ c.Rebinds db b b' := by
  obtain ⟨hm,hop,_⟩ := lockBinding_iff.mp hb
  obtain ⟨b',hb',hre⟩ := (c.bindings_change db).kept (Table.select_of_mem hm)
  have hadv := hre.advances
  refine ⟨b',lockBinding_iff.mpr ⟨Table.mem_of_select hb',hadv.operationId.trans hop,?_⟩,hre⟩
  intro created hcm hcop
  rw [hadv.chatId]
  exact hc created hcm hcop

theorem Settled.apply (h : Settled operationId db)
    (hc : ∀ b ∈ lockBinding operationId db.messageBindings,
      ∀ created ∈ (c.apply db).messageBindings.rows, created.operationId = operationId →
        b.chatId ≤ created.chatId) : Settled operationId (c.apply db) := by
  obtain ⟨b,hb,ht⟩ := h
  obtain ⟨b',hb',hre⟩ := lockBinding_apply hb (hc b hb)
  exact ⟨b',hb',hre.advances.terminal ht⟩

theorem accept_creates_none (jobId : Uuid) (event : AcceptedEvent) (now renderIntervalSecs : ℤ) :
    ∀ b ∈ lockBinding operationId db.messageBindings,
      ∀ created ∈ ((Call.acceptOperationEvent jobId event now renderIntervalSecs).apply
        db).messageBindings.rows, created.operationId = operationId → b.chatId ≤ created.chatId := by
  intro b hb created hc hop
  obtain ⟨_,_,hmin⟩ := lockBinding_iff.mp hb
  rcases (Call.bindings_change _ db).origin (Table.select_of_mem hc) with ⟨b',hb',hre⟩ | ⟨_,hf⟩
  · have hadv := hre.advances
    rw [hadv.chatId]
    exact hmin b' (Table.mem_of_select hb') (hadv.operationId.symm.trans hop)
  · cases hf

theorem Unsettled.accept (h : Unsettled operationId db) {jobId : Uuid} {event : AcceptedEvent}
    {now renderIntervalSecs : ℤ} (hop : event.operationId = operationId)
    (hterm : event.terminal = true) (hseen : event.eventId ∉ db.inbox)
    (hid : db.outboundJobs.select jobId = none)
    (hfresh : ∀ b ∈ lockBinding operationId db.messageBindings,
      ¬ Overtaken event.occurredAtSecs b) :
    Settled operationId (acceptOperationEvent jobId event now renderIntervalSecs db).2 := by
  subst hop
  obtain ⟨b,hb,ht⟩ := h
  obtain ⟨r,t,he,hstep⟩ := acceptOperationEvent_step jobId event now renderIntervalSecs db
  obtain ⟨b',hb',hre⟩ :=
    lockBinding_apply hb (accept_creates_none jobId event now renderIntervalSecs b hb)
  rw [Call.apply] at hb'
  rw [he] at hb' ⊢
  cases hstep with
  | duplicate hdup => exact absurd hdup hseen
  | unbound _ hl => exact absurd (hb.symm.trans hl) (by simp)
  | postTerminal _ hl ht' =>
    obtain rfl := Option.some.inj (hb.symm.trans hl)
    simp [ht] at ht'
  | stale _ hl _ hw =>
    obtain rfl := Option.some.inj (hb.symm.trans hl)
    exact absurd hw (hfresh b hb)
  | failed hn => exact absurd hid hn
  | @recorded binding jobs _ hl ht' _ _ =>
    obtain rfl := Option.some.inj (hb.symm.trans hl)
    refine ⟨b',hb',?_⟩
    have hadv := hre.advances
    have hm := (lockBinding_eq_some hl).1
    have hkey : Keyed.key b' = Keyed.key b := Prod.ext hadv.operationId hadv.chatId
    have hsel : (recordBinding b event db.messageBindings).select (Keyed.key b) = _ :=
      recordBinding_select ht' hm (Table.select_of_mem hm)
    have hsel' := Table.select_of_mem (lockBinding_eq_some hb').1
    rw [hkey] at hsel'
    rw [Option.some.inj (hsel'.symm.trans hsel),if_pos rfl]
    exact hterm

theorem settled_or_unsettled {b : MessageBinding}
    (hb : lockBinding operationId db.messageBindings = some b) :
    Settled operationId db ∨ Unsettled operationId db := by
  cases ht : b.terminal with
  | true => exact Or.inl ⟨b,hb,ht⟩
  | false => exact Or.inr ⟨b,hb,ht⟩

end Calls

namespace Following

def initial : Following := ⟨Database.fresh,.away,[],none,[]⟩

def step (operationId : Uuid) (s : Following) : FollowAction → Option Following
  | .scan =>
    if s.follower = .away ∧ Unsettled operationId s.database then
      some {s with follower := .pumping}
    else none
  | .frame eventId observedAtSecs status =>
    if s.follower = .pumping then
      let event := mapFrame operationId eventId observedAtSecs status
      some {s with
        follower := if status.isTerminal then .waiting else .pumping
        feed := s.feed ++ [event]
        observed := s.observed ++ [event]}
    else none
  | .stop => if s.follower = .pumping then some {s with follower := .away} else none
  | .poll =>
    if s.follower = .waiting ∧ ¬ Unsettled operationId s.database then
      some {s with follower := .away}
    else if s.follower = .waiting then some s
    else none
  | .feed event =>
    if event.operationId ≠ operationId then some {s with feed := s.feed ++ [event]} else none
  | .take =>
    match s.accepting, s.feed with
    | none, event :: rest => some {s with feed := rest, accepting := some event}
    | _, _ => none
  | .accept jobId payload contentHash now renderIntervalSecs =>
    match s.accepting with
    | some event => some {s with
        database := (acceptOperationEvent jobId (event.rendered payload contentHash) now
          renderIntervalSecs s.database).2
        accepting := none}
    | none => none
  | .fault =>
    match s.accepting with
    | some _ => some {s with accepting := none}
    | none => none
  | .call c => if c.Promised then some {s with database := c.apply s.database} else none

def Pending (operationId : Uuid) (s : Following) : Prop :=
  ∃ event, (event ∈ s.feed ∨ s.accepting = some event) ∧ event.operationId = operationId ∧
    event.status.isTerminal = true

def Observed (s : Following) : Prop :=
  ∃ event ∈ s.observed, event.status.isTerminal = true

/-- While the follower waits the terminal event is still under way or the binding is terminal, and
once the feed is drained the binding is terminal. -/
structure OutcomeKept (operationId : Uuid) (s : Following) : Prop where
  waiting : s.follower = .waiting → s.Pending operationId ∨ Settled operationId s.database
  drained : s.Observed → s.feed = [] → s.accepting = none → Settled operationId s.database

/-- A terminal event of a binding that is not terminal is accepted without an error, is not older
than the watermark and was not consumed before; and no other call creates a binding of the operation
below the canonical one. -/
def OutcomeHeard (operationId : Uuid) (s : Following) : FollowAction → Prop
  | .fault => ∀ event ∈ s.accepting, event.operationId = operationId →
      event.status.isTerminal = true → Settled operationId s.database
  | .accept jobId _ _ _ _ => ∀ event ∈ s.accepting, event.operationId = operationId →
      event.status.isTerminal = true → Settled operationId s.database ∨
        (event.eventId ∉ s.database.inbox ∧ s.database.outboundJobs.select jobId = none ∧
          ∀ b ∈ lockBinding operationId s.database.messageBindings,
            ¬ Overtaken event.occurredAtSecs b)
  | .call c => ∀ b ∈ lockBinding operationId s.database.messageBindings,
      ∀ created ∈ (c.apply s.database).messageBindings.rows, created.operationId = operationId →
        b.chatId ≤ created.chatId
  | _ => True

instance (operationId : Uuid) (s : Following) (a : FollowAction) :
    Decidable (s.OutcomeHeard operationId a) := by
  cases a <;> unfold OutcomeHeard <;> infer_instance

structure Tracked (operationId : Uuid) (s : Following) : Prop where
  bound : s.follower ≠ .away ∨ s.Observed →
    ∃ b, lockBinding operationId s.database.messageBindings = some b
  waiting : s.follower = .waiting → s.Observed
  pending : s.Observed → s.Pending operationId ∨ Settled operationId s.database

namespace Tracked

variable {operationId : Uuid} {s t : Following} {a : FollowAction}

theorem apply (h : s.Tracked operationId) {c : Call}
    (hc : ∀ b ∈ lockBinding operationId s.database.messageBindings,
      ∀ created ∈ (c.apply s.database).messageBindings.rows, created.operationId = operationId →
        b.chatId ≤ created.chatId) :
    Tracked operationId {s with database := c.apply s.database} where
  bound hs := by
    obtain ⟨b,hb⟩ := h.bound hs
    obtain ⟨b',hb',_⟩ := lockBinding_apply hb (hc b hb)
    exact ⟨b',hb'⟩
  waiting := h.waiting
  pending ho := (h.pending ho).imp_right fun hset => hset.apply hc

/-- The consumer may let go of its event once the event is not the last trace of the outcome. -/
theorem release (h : s.Tracked operationId)
    (hd : s.Observed → ∀ event ∈ s.accepting, event.operationId = operationId →
      event.status.isTerminal = true → Settled operationId s.database) :
    Tracked operationId {s with accepting := none} where
  bound := h.bound
  waiting := h.waiting
  pending ho := by
    rcases h.pending ho with ⟨event,hm | hm,hop,ht⟩ | hset
    · exact Or.inl ⟨event,Or.inl hm,hop,ht⟩
    · exact Or.inr (hd ho event hm hop ht)
    · exact Or.inr hset

theorem scanned (h : s.Tracked operationId) (hu : Unsettled operationId s.database) :
    Tracked operationId {s with follower := .pumping} where
  bound _ := by
    obtain ⟨b,hb,_⟩ := hu
    exact ⟨b,hb⟩
  waiting hw := by simp at hw
  pending := h.pending

theorem left (h : s.Tracked operationId) : Tracked operationId {s with follower := .away} where
  bound ho := h.bound (ho.imp_left fun hf => absurd rfl hf)
  waiting hw := by simp at hw
  pending := h.pending

/-- The follower waits behind a terminal frame only, and that one is in the feed. -/
theorem framed (h : s.Tracked operationId) (hf : s.follower = .pumping) (eventId : Uuid)
    (observedAtSecs : ℤ) (status : OperationStatus) :
    Tracked operationId {s with
      follower := if status.isTerminal then .waiting else .pumping
      feed := s.feed ++ [mapFrame operationId eventId observedAtSecs status]
      observed := s.observed ++ [mapFrame operationId eventId observedAtSecs status]} where
  bound _ := h.bound (Or.inl (by simp [hf]))
  waiting hw := by
    cases hterm : status.isTerminal with
    | false => simp [hterm] at hw
    | true => exact ⟨mapFrame operationId eventId observedAtSecs status,by simp,hterm⟩
  pending := by
    rintro ⟨event,hm,ht⟩
    rcases List.mem_append.mp hm with hm | hm
    · rcases h.pending ⟨event,hm,ht⟩ with ⟨event',hm',hop,ht'⟩ | hset
      · exact Or.inl ⟨event',hm'.imp_left fun hf => List.mem_append_left _ hf,hop,ht'⟩
      · exact Or.inr hset
    · obtain rfl := List.mem_singleton.mp hm
      exact Or.inl ⟨_,Or.inl (by simp),rfl,ht⟩

theorem fed (h : s.Tracked operationId) (event : OperationEvent) :
    Tracked operationId {s with feed := s.feed ++ [event]} where
  bound := h.bound
  waiting := h.waiting
  pending ho := by
    rcases h.pending ho with ⟨event',hm,hop,ht⟩ | hset
    · exact Or.inl ⟨event',hm.imp_left fun hf => List.mem_append_left _ hf,hop,ht⟩
    · exact Or.inr hset

theorem taken (h : s.Tracked operationId) {event : OperationEvent} {rest : List OperationEvent}
    (hn : s.accepting = none) (hf : s.feed = event :: rest) :
    Tracked operationId {s with feed := rest, accepting := some event} where
  bound := h.bound
  waiting := h.waiting
  pending ho := by
    rcases h.pending ho with ⟨event',hm | hm,hop,ht⟩ | hset
    · rw [hf] at hm
      rcases List.mem_cons.mp hm with rfl | hm
      · exact Or.inl ⟨_,Or.inr rfl,hop,ht⟩
      · exact Or.inl ⟨event',Or.inl hm,hop,ht⟩
    · simp [hn] at hm
    · exact Or.inr hset

/-- An outcome that is heard settles the binding before the consumer lets go of it. -/
theorem accepted (h : s.Tracked operationId) {event : OperationEvent} (he : s.accepting = some event)
    {jobId : Uuid} {payload : MessagePayload} {contentHash : String} {now renderIntervalSecs : ℤ}
    (hh : s.OutcomeHeard operationId (.accept jobId payload contentHash now renderIntervalSecs)) :
    Tracked operationId {s with
      database := (acceptOperationEvent jobId (event.rendered payload contentHash) now
        renderIntervalSecs s.database).2
      accepting := none} := by
  refine (h.apply (c := .acceptOperationEvent jobId (event.rendered payload contentHash) now
    renderIntervalSecs) (accept_creates_none _ _ _ _)).release ?_
  intro ho event' he' hop hterm
  obtain rfl := Option.some.inj (he.symm.trans he')
  rcases hh event he hop hterm with hset | ⟨hseen,hid,hfresh⟩
  · exact hset.apply (accept_creates_none _ _ _ _)
  · obtain ⟨b,hb⟩ := h.bound (Or.inr ho)
    rcases settled_or_unsettled hb with hset | huns
    · exact hset.apply (accept_creates_none _ _ _ _)
    · exact huns.accept hop hterm hseen hid hfresh

theorem step (h : s.Tracked operationId) (hs : Following.step operationId s a = some t)
    (hh : s.OutcomeHeard operationId a) : t.Tracked operationId := by
  cases a with
  | scan =>
    simp only [Following.step] at hs
    split at hs
    · rename_i hc
      obtain rfl := Option.some.inj hs
      exact h.scanned hc.2
    · simp at hs
  | frame eventId observedAtSecs status =>
    simp only [Following.step] at hs
    split at hs
    · rename_i hf
      obtain rfl := Option.some.inj hs
      exact h.framed hf eventId observedAtSecs status
    · simp at hs
  | stop =>
    simp only [Following.step] at hs
    split at hs
    · obtain rfl := Option.some.inj hs
      exact h.left
    · simp at hs
  | poll =>
    simp only [Following.step] at hs
    split at hs
    · obtain rfl := Option.some.inj hs
      exact h.left
    · split at hs
      · obtain rfl := Option.some.inj hs
        exact h
      · simp at hs
  | feed event =>
    simp only [Following.step] at hs
    split at hs
    · obtain rfl := Option.some.inj hs
      exact h.fed event
    · simp at hs
  | take =>
    simp only [Following.step] at hs
    split at hs
    · rename_i event rest hn hf
      obtain rfl := Option.some.inj hs
      exact h.taken hn hf
    · simp at hs
  | fault =>
    simp only [Following.step] at hs
    split at hs
    · obtain rfl := Option.some.inj hs
      exact h.release fun _ => hh
    · simp at hs
  | accept jobId payload contentHash now renderIntervalSecs =>
    simp only [Following.step] at hs
    split at hs
    · rename_i event he
      obtain rfl := Option.some.inj hs
      exact h.accepted he hh
    · simp at hs
  | call c =>
    simp only [Following.step] at hs
    split at hs
    · obtain rfl := Option.some.inj hs
      exact h.apply hh
    · simp at hs

theorem initial (operationId : Uuid) : Following.initial.Tracked operationId where
  bound hs := by
    rcases hs with ha | ⟨event,hm,_⟩
    · exact absurd rfl ha
    · simp [Following.initial] at hm
  waiting hw := by simp [Following.initial] at hw
  pending ho := by
    obtain ⟨event,hm,_⟩ := ho
    simp [Following.initial] at hm

theorem outcomeKept (h : s.Tracked operationId) : s.OutcomeKept operationId where
  waiting hw := h.pending (h.waiting hw)
  drained ho hf ha := by
    rcases h.pending ho with ⟨event,hm | hm,_⟩ | hset
    · simp [hf] at hm
    · simp [ha] at hm
    · exact hset

end Tracked

/-- In a run whose accepts of a terminal event all take effect the outcome is never lost. -/
theorem outcome_never_lost {operationId : Uuid} {tr : List FollowAction} {s : Following}
    (h : Run (fun v a w => step operationId v a = some w ∧ v.OutcomeHeard operationId a) initial tr
      s) : s.OutcomeKept operationId :=
  (h.invariant (Tracked.initial operationId) fun _ _ _ hv hs => hv.step hs.1 hs.2).outcomeKept

namespace OneCapture

open Dispatcher.OneCapture (intent acknowledgement)

def attaches : List FollowAction :=
  [.call (.recordAcceptedCaptureProjection 1 (.filled 'c') 10 intent
    acknowledgement 0),.scan]

def finishes : List FollowAction := [.frame 21 2 .succeeded,.take]

def commits : FollowAction := .accept 12 ⟨"done",none,none⟩ "h2" 2 0

theorem outcome_kept : ∃ s,
    Run (fun v a w => step 3 v a = some w ∧ v.OutcomeHeard 3 a) initial
      (attaches ++ finishes ++ [commits]) s ∧ s.Observed ∧ s.OutcomeKept 3 := by
  obtain ⟨s,hr,ho⟩ : ∃ s, Run (fun v a w => step 3 v a = some w ∧ v.OutcomeHeard 3 a) initial
      (attaches ++ finishes ++ [commits]) s ∧ ∃ event ∈ s.observed, event.status.isTerminal = true :=
    exists_run_of_guarded (by decide +kernel)
  exact ⟨s,hr,ho,outcome_never_lost hr⟩

/-- An accept that fails drops the outcome: the follower waits, the feed is drained and the binding
is not terminal. -/
theorem outcome_dropped :
    ¬ ∀ (operationId : Uuid) (tr : List FollowAction) (s : Following),
      Run (fun v a w => step operationId v a = some w) initial tr s →
        s.OutcomeKept operationId := by
  intro h
  obtain ⟨s,hr,hw,hf,ha,hs⟩ : ∃ s, Run (fun v a w => step 3 v a = some w) initial
      (attaches ++ finishes ++ [.fault]) s ∧ s.follower = .waiting ∧ s.feed = [] ∧
        s.accepting = none ∧ ¬ Settled 3 s.database :=
    exists_run_of_replay (by decide +kernel)
  rcases (h 3 _ s hr).waiting hw with ⟨event,hm | hm,_⟩ | hset
  · simp [hf] at hm
  · simp [ha] at hm
  · exact hs hset

end OneCapture

end Following

end RatatoskrTelegram
