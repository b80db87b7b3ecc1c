import RatatoskrTelegram.Limiter
import RatatoskrTelegram.SenderSteps

/-!
# The rate gate before the wire

The senders of one process share a limiter, and no write reaches the wire before
it has let the sender through. A denial settles the job as a retry, so it costs
the attempt that the claim has counted. The clock may read anything at any time.
-/

namespace RatatoskrTelegram

/-- The senders with the limiter they share. `passes` are the senders it has let through, and
`denials` what it has denied, with the wait in milliseconds. -/
structure Gated where
  dispatcher : Dispatcher
  limiter : LimiterState
  passes : ℕ → Bool
  denials : List (QueuedOutboundJob × ℕ)

/-- A step of the senders, a reading of the clock, a question to the limiter, or a new process. -/
inductive GatedAction
  | act (a : Action)
  | reads (now : ℤ)
  | acquire (i : ℕ)
  | restart

namespace Gated

def initial : Gated := ⟨Dispatcher.initial,.new,fun _ => false,[]⟩

/-- A write is prepared only by a sender that was let through; deferring is the limiter's. -/
def allows (s : Gated) : Action → Bool
  | .prepare i => s.passes i
  | .defer _ _ => false
  | _ => true

def passesAfter (s : Gated) : Action → ℕ → Bool
  | .prepare i | .crash i => Function.update s.passes i false
  | _ => s.passes

/-- A pause the provider asks for cools the chat down. -/
def limiterAfter (s : Gated) : Action → LimiterState
  | .refuse i shape =>
    match s.dispatcher.senders i, classifyShape shape with
    | .working job (.onWire _ now), .rateLimited retryAfterSecs =>
      s.limiter.penalize job.chatId (saturated (now + retryAfterSecs))
    | _, _ => s.limiter
  | _ => s.limiter

def next (limits : SenderLimits) (budget : RateBudget) (s : Gated) : GatedAction → Option Gated
  | .reads now => some {s with dispatcher := {s.dispatcher with clock := now}}
  | .restart => some {s with
      dispatcher := {s.dispatcher with senders := fun _ => .idle}
      limiter := .new
      passes := fun _ => false}
  | .acquire i =>
    match s.dispatcher.senders i with
    | .working job (.resolved _) =>
      let answer := s.limiter.tryAcquire budget s.dispatcher.clock job.chatId
      match s.passes i, answer.1.afterMs with
      | true, _ => none
      | false, none => some {s with
          limiter := answer.2
          passes := Function.update s.passes i true}
      | false, some ms => (s.dispatcher.step limits (.defer i ms)).map fun d => {s with
          dispatcher := d
          limiter := answer.2
          denials := s.denials ++ [(job,ms)]}
    | _ => none
  | .act a =>
    if s.allows a = true then
      (s.dispatcher.step limits a).map fun d => {s with
        dispatcher := d
        limiter := s.limiterAfter a
        passes := s.passesAfter a}
    else none

section Steps

variable {limits : SenderLimits} {budget : RateBudget} {s t : Gated} {a : GatedAction}

/-- A step changes the clock, lets a sender through, stops the senders, defers a denied job, or is
a step of the senders that defers nothing. -/
theorem next_cases (h : next limits budget s a = some t) :
    (t.dispatcher.database = s.dispatcher.database ∧ t.dispatcher.wire = s.dispatcher.wire ∧
      t.denials = s.denials ∧ ∀ i job stage, t.dispatcher.senders i = .working job stage →
        s.dispatcher.senders i = .working job stage) ∨
    (∃ i job action ms, a = .acquire i ∧ 0 < ms ∧
      s.dispatcher.senders i = .working job (.resolved action) ∧
      s.dispatcher.step limits (.defer i ms) = some t.dispatcher ∧
      t.denials = s.denials ++ [(job,ms)]) ∨
    ∃ b, a = .act b ∧ (∀ i ms, b ≠ .defer i ms) ∧
      s.dispatcher.step limits b = some t.dispatcher ∧ t.denials = s.denials := by
  cases a with
  | reads now =>
    obtain rfl := Option.some.inj h
    exact Or.inl ⟨rfl,rfl,rfl,fun _ _ _ hi => hi⟩
  | restart =>
    obtain rfl := Option.some.inj h
    refine Or.inl ⟨rfl,rfl,rfl,fun i job stage hi => ?_⟩
    simp at hi
  | acquire i =>
    simp only [next] at h
    split at h
    · rename_i job action hi
      split at h
      · simp at h
      · obtain rfl := Option.some.inj h
        exact Or.inl ⟨rfl,rfl,rfl,fun _ _ _ hi => hi⟩
      · rename_i ms _ hms
        obtain ⟨d,hd,rfl⟩ := Option.map_eq_some_iff.mp h
        rcases s.limiter.tryAcquire_wait budget s.dispatcher.clock job.chatId with
          hp | ⟨ms',hms',hpos⟩
        · simp [hp,RateDecision.afterMs] at hms
        · obtain rfl : ms' = ms := Option.some.inj (hms'.symm.trans hms)
          exact Or.inr (Or.inl ⟨i,job,action,ms',rfl,hpos,hi,hd,rfl⟩)
    · simp at h
  | act b =>
    simp only [next] at h
    split at h
    · rename_i hallows
      obtain ⟨d,hd,rfl⟩ := Option.map_eq_some_iff.mp h
      refine Or.inr (Or.inr ⟨b,rfl,?_,hd,rfl⟩)
      rintro i ms rfl
      simp [allows] at hallows
    · simp at h

def aboutJob : WireEvent → QueuedOutboundJob
  | .request job _ | .answered job _ _ | .refused job _ _ => job

/-- The claim of this attempt was answered by the provider with a failure. -/
def WireFailed (wire : List WireEvent) (id : Uuid) (attempts : ℤ) : Prop :=
  ∃ job action decision, job.id = id ∧ job.attempts = attempts ∧
    .request job action ∈ wire ∧ .refused job action decision ∈ wire

/-- The claim of this attempt was denied by the limiter. -/
def Denied (denials : List (QueuedOutboundJob × ℕ)) (id : Uuid) (attempts : ℤ) : Prop :=
  ∃ job ms, job.id = id ∧ job.attempts = attempts ∧ (job,ms) ∈ denials

/-- The job has failed for good, with the class of a transient failure. -/
def DeadLettered (j : OutboundJob) : Prop :=
  j.state = .failedPermanent ∧ j.lastErrorClass = some "transient"

instance : DecidablePred DeadLettered := fun j => by
  delta DeadLettered
  infer_instance

structure Traced (limits : SenderLimits) (s : Gated) : Prop where
  settling : ∀ {i : ℕ} {job : QueuedOutboundJob} {outcome : DeliveryOutcome},
    s.dispatcher.senders i = .working job (.settling outcome) → outcome = .supersededStale ∨
      ∃ ms, 0 < ms ∧ (job,ms) ∈ s.denials ∧ outcome = .retryWithBackoff (deferralSecs ms)
  onWire : ∀ {i : ℕ} {job : QueuedOutboundJob} {action : WireAction} {now : ℤ},
    s.dispatcher.senders i = .working job (.onWire action now) →
      .request job action ∈ s.dispatcher.wire
  refused : ∀ {i : ℕ} {job : QueuedOutboundJob} {action : WireAction} {decision : Classified}
    {now : ℤ}, s.dispatcher.senders i = .working job (.refused action decision now) →
      .request job action ∈ s.dispatcher.wire ∧
        .refused job action decision ∈ s.dispatcher.wire
  deadLettered : ∀ {id : Uuid} {j : OutboundJob},
    s.dispatcher.database.outboundJobs.select id = some j → DeadLettered j →
      limits.maxAttempts ≤ j.attempts ∧
        (WireFailed s.dispatcher.wire id j.attempts ∨ Denied s.denials id j.attempts)

theorem Traced.initial : Traced limits initial where
  settling hi := by simp [Gated.initial,Dispatcher.initial] at hi
  onWire hi := by simp [Gated.initial,Dispatcher.initial] at hi
  refused hi := by simp [Gated.initial,Dispatcher.initial] at hi
  deadLettered hj := absurd hj (by simp [Gated.initial,Dispatcher.initial,Database.fresh])

theorem deadLettered_settlement {now maxAttempts : ℤ} {outcome : DeliveryOutcome}
    {j : OutboundJob} (h : DeadLettered ((settlement now maxAttempts outcome).set j)) :
    outcome = .failedPermanent "transient" ∨
      maxAttempts ≤ j.attempts ∧ ∃ delaySecs, outcome = .retryWithBackoff delaySecs := by
  obtain ⟨hstate,hlabel⟩ := h
  cases outcome with
  | retryWithBackoff delaySecs =>
    refine Or.inr ⟨?_,delaySecs,rfl⟩
    by_contra hlt
    simp [settlement,hlt] at hstate
  | failedPermanent errorClass =>
    obtain rfl := Option.some.inj hlabel
    exact Or.inl rfl
  | _ => simp [settlement] at hstate

theorem failureOutcome_ne_transient (job : QueuedOutboundJob) (action : WireAction)
    (drawnMillis : ℕ) (decision : Classified) :
    failureOutcome limits job action drawnMillis decision ≠ .failedPermanent "transient" := by
  cases decision with
  | permanent label => cases label <;> simp [failureOutcome,PermanentClass.asStr]
  | outcomeUnknown => cases action <;> simp [failureOutcome]
  | _ => simp [failureOutcome]

/-- A dead letter was one before the step, or settles a claim that was denied or has failed. -/
theorem Traced.dead (h : Traced limits s) {b : Action} {d : Dispatcher} {j k : OutboundJob}
    (ht : Dispatcher.Touches limits s.dispatcher b d j k) (hd : DeadLettered k) :
    k = j ∨ k.attempts = j.attempts ∧ limits.maxAttempts ≤ j.attempts ∧
      (WireFailed s.dispatcher.wire j.id j.attempts ∨ Denied s.denials j.id j.attempts) := by
  have hattempts (now : ℤ) (outcome : DeliveryOutcome) :
      ((settlement now limits.maxAttempts outcome).set j).attempts = j.attempts := by
    cases outcome <;> rfl
  cases ht with
  | stays => exact Or.inl rfl
  | settled hi _ hown =>
    refine Or.inr ⟨hattempts _ _,?_⟩
    rcases h.settling hi with rfl | ⟨ms,_,hms,rfl⟩
    · exact absurd hd.1 (by simp [settlement])
    · rcases deadLettered_settlement hd with ho | ⟨hmax,_⟩
      · simp at ho
      · exact ⟨hmax,Or.inr ⟨_,ms,hown.1.symm,hown.2.2.symm,hms⟩⟩
  | failed drawnMillis hi _ hown =>
    refine Or.inr ⟨hattempts _ _,?_⟩
    rcases deadLettered_settlement hd with ho | ⟨hmax,_⟩
    · exact absurd ho (failureOutcome_ne_transient _ _ _ _)
    · exact ⟨hmax,Or.inl ⟨_,_,_,hown.1.symm,hown.2.2.symm,h.refused hi⟩⟩
  | withdrawn _ _ => exact absurd hd.1 (by simp)
  | quarantined _ _ => exact absurd hd.1 (by simp)
  | claimed _ _ _ => exact absurd hd.1 (by simp)
  | prepared _ _ hown => exact absurd hd.1 (by simp [hown.2.1])
  | acknowledged _ _ _ => exact absurd hd.1 (by simp)

theorem Traced.forward (h : Traced limits s) {b : Action}
    (hs : Dispatcher.Steps limits s.dispatcher b t.dispatcher)
    (hdenials : s.denials ⊆ t.denials)
    (hdefer : ∀ {i ms job action}, b = .defer i ms →
      s.dispatcher.senders i = .working job (.resolved action) →
        0 < ms ∧ (job,ms) ∈ t.denials) : Traced limits t where
  settling {i job outcome} hi := by
    rcases (hs.reaches hi).settling with hi' | ho | ⟨ms,action,hb,hi',ho⟩
    · rcases h.settling hi' with ho | ⟨ms,hpos,hms,ho⟩
      · exact Or.inl ho
      · exact Or.inr ⟨ms,hpos,hdenials hms,ho⟩
    · exact Or.inl ho
    · obtain ⟨hpos,hms⟩ := hdefer hb hi'
      exact Or.inr ⟨ms,hpos,hms,ho⟩
  onWire {i job action now} hi := by
    rcases (hs.reaches hi).onWire_inv with hi' | ⟨_,ht⟩
    · exact hs.wire_kept (h.onWire hi')
    · simp [ht]
  refused {i job action decision now} hi := by
    rcases (hs.reaches hi).refused_inv with hi' | ⟨hi',ht⟩
    · obtain ⟨hrequest,hrefused⟩ := h.refused hi'
      exact ⟨hs.wire_kept hrequest,hs.wire_kept hrefused⟩
    · exact ⟨hs.wire_kept (h.onWire hi'),by simp [ht]⟩
  deadLettered {id k} hk hd := by
    have hgrown : ∀ n, WireFailed s.dispatcher.wire id n ∨ Denied s.denials id n →
        WireFailed t.dispatcher.wire id n ∨ Denied t.denials id n := by
      rintro n (⟨job,action,decision,hid,hn,hrequest,hrefused⟩ | ⟨job,ms,hid,hn,hms⟩)
      · exact Or.inl ⟨job,action,decision,hid,hn,hs.wire_kept hrequest,hs.wire_kept hrefused⟩
      · exact Or.inr ⟨job,ms,hid,hn,hdenials hms⟩
    rcases hs.jobs.origin hk with ⟨j,hj,htouch⟩ | ⟨_,hadds⟩
    · obtain rfl : j.id = id := Table.key_of_select hj
      rcases h.dead htouch hd with rfl | ⟨hattempts,hmax,hcause⟩
      · obtain ⟨hmax,hcause⟩ := h.deadLettered hj hd
        exact ⟨hmax,hgrown _ hcause⟩
      · rw [hattempts]
        exact ⟨hmax,hgrown _ hcause⟩
    · exact absurd hd.1 (by simp [hadds.inserted.state])

theorem Traced.step (h : Traced limits s) (hs : next limits budget s a = some t) :
    Traced limits t := by
  rcases next_cases hs with ⟨hdb,hwire,hden,hsenders⟩ | ⟨i,job,action,ms,rfl,hpos,hi,hstep,hden⟩ |
    ⟨b,rfl,hne,hstep,hden⟩
  · refine ⟨fun hi => ?_,fun hi => ?_,fun hi => ?_,fun hj hd => ?_⟩
    · rw [hden]
      exact h.settling (hsenders _ _ _ hi)
    · rw [hwire]
      exact h.onWire (hsenders _ _ _ hi)
    · rw [hwire]
      exact h.refused (hsenders _ _ _ hi)
    · rw [hdb] at hj
      rw [hwire,hden]
      exact h.deadLettered hj hd
  · refine h.forward (Dispatcher.steps_of_step hstep) (by simp [hden]) ?_
    intro k ms' job' action' hb hk
    obtain ⟨rfl,rfl⟩ := Action.defer.inj hb
    obtain ⟨rfl,_⟩ := Sender.working.inj (hi.symm.trans hk)
    exact ⟨hpos,by simp [hden]⟩
  · refine h.forward (Dispatcher.steps_of_step hstep) (by simp [hden]) ?_
    intro k ms job action hb _
    exact absurd hb (hne k ms)

theorem traced_of_run {tr : List GatedAction}
    (h : Run (fun v b w => next limits budget v b = some w) initial tr s) : Traced limits s :=
  h.invariant (P := Traced limits) .initial fun _ _ _ hv hs => hv.step hs

theorem acquire_database {i : ℕ} (hs : next limits budget s (.acquire i) = some t) :
    t.dispatcher.database = s.dispatcher.database := by
  rcases next_cases hs with ⟨hdb,_⟩ | ⟨k,job,action,ms,ha,_,hi,hstep,_⟩ | ⟨b,ha,_⟩
  · exact hdb
  · simp only [Dispatcher.step,hi] at hstep
    rw [← Option.some.inj hstep,Dispatcher.become_database]
  · simp at ha

theorem settle_denied {i drawnMillis delaySecs : ℕ} {job : QueuedOutboundJob} {j : OutboundJob}
    (hs : next limits budget s (.act (.settle i drawnMillis)) = some t)
    (hi : s.dispatcher.senders i = .working job (.settling (.retryWithBackoff delaySecs)))
    (hj : s.dispatcher.database.outboundJobs.select job.id = some j)
    (hown : j.OwnedBy job.id job.attempts) (hlt : j.attempts < limits.maxAttempts) :
    t.dispatcher.database.outboundJobs.select job.id = some {j with
      state := .retryWait
      nextAttemptAt := s.dispatcher.clock + delaySecs
      leaseExpiresAt := none} := by
  simp only [next,allows,if_true] at hs
  obtain ⟨d,hd,rfl⟩ := Option.map_eq_some_iff.mp hs
  simp only [Dispatcher.step,hi] at hd
  obtain rfl := Option.some.inj hd
  have he := settleOutboundJob_owned s.dispatcher.clock limits.maxAttempts
    (.retryWithBackoff delaySecs) hj hown
  simp only [Dispatcher.call_database,Call.apply,he,settledDatabase]
  rw [Table.select_update,hj]
  simp [hown,settlement,not_le.mpr hlt]

end Steps

/-- A job is dead-lettered as a transient failure only once its claims have reached the bound, and
then its last claim has failed on the wire or was denied by the limiter. Below the bound a denial
only delays the job, by the whole seconds of the wait. -/
theorem limiter_denials_delay {limits : SenderLimits} {budget : RateBudget}
    {tr : List GatedAction} {s : Gated}
    (h : Run (fun v b w => next limits budget v b = some w) initial tr s) :
    (∀ id, ∀ j ∈ s.dispatcher.database.outboundJobs.select id, DeadLettered j →
      limits.maxAttempts ≤ j.attempts ∧
        (WireFailed s.dispatcher.wire id j.attempts ∨ Denied s.denials id j.attempts)) ∧
    (∀ i t, next limits budget s (.acquire i) = some t →
      t.dispatcher.database = s.dispatcher.database) ∧
    ∀ i drawnMillis job delaySecs t j,
      s.dispatcher.senders i = .working job (.settling (.retryWithBackoff delaySecs)) →
      next limits budget s (.act (.settle i drawnMillis)) = some t →
      s.dispatcher.database.outboundJobs.select job.id = some j →
      j.OwnedBy job.id job.attempts → j.attempts < limits.maxAttempts →
      (∃ ms, 0 < ms ∧ (job,ms) ∈ s.denials ∧ delaySecs = deferralSecs ms) ∧
        t.dispatcher.database.outboundJobs.select job.id = some {j with
          state := .retryWait
          nextAttemptAt := s.dispatcher.clock + delaySecs
          leaseExpiresAt := none} := by
  have htraced := traced_of_run h
  refine ⟨fun id j hj hd => htraced.deadLettered hj hd,fun i t ht => acquire_database ht,?_⟩
  intro i drawnMillis job delaySecs t j hi hs hj hown hlt
  refine ⟨?_,settle_denied hs hi hj hown hlt⟩
  rcases htraced.settling hi with ho | ⟨ms,hpos,hms,ho⟩
  · simp at ho
  · exact ⟨ms,hpos,hms,DeliveryOutcome.retryWithBackoff.inj ho⟩

namespace CrowdedOut

def notification : NewNotificationDelivery where
  botId := 7
  eventId := 1
  streamSequence := some 1
  notificationId := 9
  notificationClass := "digest"
  priorityHigh := false
  quietHintSeconds := none
  payload := ⟨"news",none,none⟩
  contentHash := "h0"
  correlationId := none
  occurredAt := 0

/-- A digest for chat 42 is queued under job 5. -/
def digest : GatedAction :=
  .act (.produce (.admitNotification notification
    [(⟨42,42,true,.inherit,none,none,false,true⟩,8,5)] 0))

def response (chatId : ℤ) : NewOutboundJob where
  botId := 7
  chatId := chatId
  kind := .sendMessage
  payload := ⟨"answer",none,none⟩
  contentHash := "h1"
  operationId := none
  revision := none
  correlationId := none
  nextAttemptAt := none

def claims : List GatedAction :=
  [.act (.beginClaim 0),.act (.snapshot 0),.act (.claim 0 ∅),.act (.resolve 0),.acquire 0]

def delivered : List GatedAction :=
  [.act (.prepare 0),.act (.put 0),.act (.answer 0 500),.act (.record 0 2)]

/-- In one second a response takes the token, and the digest is denied. -/
def denied (n : ℕ) : List GatedAction :=
  .act (.produce (.enqueueOutboundJob (11 + n) (response (100 + n)) n)) ::
    (claims ++ delivered ++ claims)

def crowded : ℕ → List GatedAction
  | 0 => [digest]
  | n + 1 => crowded n ++ denied n ++ [GatedAction.act (.settle 0 0),.act (.tick 1)]

def budget : RateBudget := ⟨25,1200⟩

def held : QueuedOutboundJob where
  id := 5
  botId := 7
  chatId := 42
  kind := .sendMessage
  payload := ⟨"news",none,none⟩
  contentHash := "h0"
  operationId := none
  revision := none
  correlationId := none
  recoveryOf := none
  notificationClass := some "digest"
  attempts := 1

/-- The digest is never put on the wire, and is dead-lettered. -/
theorem dead_without_wire : ∃ tr s,
    Run (fun v b w => next Dispatcher.OneCapture.limits budget v b = some w) initial tr s ∧
    (∃ j ∈ s.dispatcher.database.outboundJobs.select 5, DeadLettered j) ∧
    ∀ event ∈ s.dispatcher.wire, (aboutJob event).id ≠ 5 := by
  obtain ⟨s,hs,hdead⟩ : ∃ s,
      Run (fun v b w => next Dispatcher.OneCapture.limits budget v b = some w) initial
        (crowded 5) s ∧
      (∃ j ∈ s.dispatcher.database.outboundJobs.select 5, DeadLettered j) ∧
      ∀ event ∈ s.dispatcher.wire, (aboutJob event).id ≠ 5 :=
    exists_run_of_replay (by decide +kernel)
  exact ⟨crowded 5,s,hs,hdead⟩

/-- The first denial puts it back for a second. -/
theorem denied_once : ∃ s t,
    Run (fun v b w => next Dispatcher.OneCapture.limits budget v b = some w) initial
      (crowded 0 ++ denied 0) s ∧
    next Dispatcher.OneCapture.limits budget s (.act (.settle 0 0)) = some t ∧
    ∃ j ∈ t.dispatcher.database.outboundJobs.select 5, j.state = .retryWait ∧
      j.nextAttemptAt = s.dispatcher.clock + 1 := by
  obtain ⟨s,hs,hi,hnext,j,hj,hown⟩ : ∃ s,
      Run (fun v b w => next Dispatcher.OneCapture.limits budget v b = some w) initial
        (crowded 0 ++ denied 0) s ∧
      s.dispatcher.senders 0 = .working held (.settling (.retryWithBackoff 1)) ∧
      (next Dispatcher.OneCapture.limits budget s (.act (.settle 0 0))).isSome = true ∧
      ∃ j ∈ s.dispatcher.database.outboundJobs.select 5, j.OwnedBy 5 1 :=
    exists_run_of_replay (by decide +kernel)
  obtain ⟨t,ht⟩ := Option.isSome_iff_exists.mp hnext
  have hlt : j.attempts < Dispatcher.OneCapture.limits.maxAttempts := by
    rw [hown.2.2]
    decide
  obtain ⟨_,hrow⟩ := (limiter_denials_delay hs).2.2 0 0 held 1 t j hi ht hj hown hlt
  exact ⟨s,t,hs,ht,_,hrow,rfl,rfl⟩

end CrowdedOut

end Gated

end RatatoskrTelegram
