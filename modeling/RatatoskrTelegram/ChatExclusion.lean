import RatatoskrTelegram.Dispatcher

/-!
# One claimed job in flight per chat

The busy chats of a claim are those of its snapshot. As long as every chat in
flight at the locks was busy in the snapshot, at most one job of a chat is
sending under an unexpired lease. One sender alone always reads so.
-/

namespace RatatoskrTelegram

theorem OutboundJob.InFlight.earlier {j : OutboundJob} {now later : ℤ} (h : j.InFlight later)
    (hle : now ≤ later) : j.InFlight now := by
  obtain ⟨hs,l,hl,hlt⟩ := h
  exact ⟨hs,l,hl,by omega⟩

theorem OutboundJob.Inserted.not_inFlight {j : OutboundJob} (h : j.Inserted) (now : ℤ) :
    ¬ j.InFlight now := by
  rintro ⟨hs,_⟩
  simp [h.state] at hs

theorem Call.Rewrites.inFlight {db : Database} {c : Call} {j k : OutboundJob} {now : ℤ}
    (h : c.Rewrites db j k) (hk : k.InFlight now) :
    j.InFlight now ∨ ∃ snapshot locked at' leaseTtlSecs,
      c = .claimNext snapshot locked at' leaseTtlSecs ∧
        claimHead snapshot locked at' db.outboundJobs = some j := by
  cases h with
  | stays => exact Or.inl hk
  | withdrawn _ _ _ =>
    have hs := hk.1
    simp at hs
  | quarantined _ =>
    have hs := hk.1
    simp at hs
  | claimed hc => exact Or.inr ⟨_,_,_,_,rfl,hc⟩
  | prepared _ => exact Or.inl hk
  | @settled _ _ at' maxAttempts outcome _ =>
    have hs := hk.1
    cases outcome with
    | retryWithBackoff delaySecs =>
      by_cases hmax : maxAttempts ≤ j.attempts <;> simp [settlement,hmax] at hs
    | _ => simp [settlement] at hs
  | acknowledged _ =>
    have hs := hk.1
    simp at hs

def Sender.reading : Sender → Option ℤ
  | .idle => none
  | .quarantined now => some now
  | .claiming now _ => some now
  | .working _ _ => none

@[simp] theorem Sender.reading_idle : idle.reading = none := rfl
@[simp] theorem Sender.reading_quarantined (now : ℤ) : (quarantined now).reading = some now := rfl
@[simp] theorem Sender.reading_claiming (now : ℤ) (snapshot : Table OutboundJob) :
    (claiming now snapshot).reading = some now := rfl
@[simp] theorem Sender.reading_working (job : QueuedOutboundJob) (stage : Stage) :
    (working job stage).reading = none := rfl

def Call.claims : Call → Bool
  | claimNext _ _ _ _ => true
  | _ => false

@[simp] theorem retryRecord_reading (job : QueuedOutboundJob) (action : WireAction)
    (messageId now : ℤ) (failures : ℕ) :
    (retryRecord job action messageId now failures).reading = none := by
  unfold retryRecord
  split <;> rfl

@[simp] theorem afterFailure_reading (job : QueuedOutboundJob) (now : ℤ) (decision : Classified) :
    (afterFailure job now decision).reading = none := by
  unfold afterFailure
  split
  · split <;> rfl
  · split <;> rfl
  · rfl

/-- Two jobs of one chat are never both sending under an unexpired lease. -/
def ChatsExclusive (jobs : Table OutboundJob) (now : ℤ) : Prop :=
  ∀ j ∈ jobs.rows, ∀ k ∈ jobs.rows, j.chatId = k.chatId → j.InFlight now → k.InFlight now → j = k

instance (jobs : Table OutboundJob) (now : ℤ) : Decidable (ChatsExclusive jobs now) := by
  delta ChatsExclusive
  infer_instance

namespace Dispatcher

/-- Claimed work in a chat is never concurrent, at the present clock. -/
def Exclusive (s : Dispatcher) : Prop :=
  ChatsExclusive s.database.outboundJobs s.clock

instance (s : Dispatcher) : Decidable s.Exclusive :=
  inferInstanceAs (Decidable (ChatsExclusive _ _))

def ReadingsPast (s : Dispatcher) : Prop :=
  ∀ i, ∀ now ∈ (s.senders i).reading, now ≤ s.clock

/-- Every chat in flight is busy in that snapshot. -/
def SeenBusy (s : Dispatcher) (now : ℤ) (snapshot : Table OutboundJob) : Prop :=
  ∀ j ∈ s.database.outboundJobs.rows, j.InFlight now → busy snapshot now j.chatId = true

instance (s : Dispatcher) (now : ℤ) (snapshot : Table OutboundJob) :
    Decidable (s.SeenBusy now snapshot) := by
  delta SeenBusy
  infer_instance

/-- At the locks of a claim statement every chat in flight is one its snapshot shows as busy. -/
def UpToDate (s : Dispatcher) : Action → Prop
  | .claim i _ =>
    match s.senders i with
    | .claiming now snapshot => s.SeenBusy now snapshot
    | _ => True
  | _ => True

instance (s : Dispatcher) (a : Action) : Decidable (s.UpToDate a) := by
  induction a using Action.casesOn with
  | claim i locked =>
    show Decidable (match s.senders i with | .claiming now snapshot => _ | _ => _)
    induction s.senders i using Sender.casesOn <;> infer_instance
  | _ => exact instDecidableTrue

section Steps

variable {limits : SenderLimits} {s t : Dispatcher} {a : Action}

theorem ReadingsPast.update (h : s.ReadingsPast) {i : ℕ} {sender : Sender}
    (hi : ∀ now ∈ sender.reading, now ≤ s.clock) :
    ∀ k, ∀ now ∈ (Function.update s.senders i sender k).reading, now ≤ s.clock := by
  intro k now hk
  by_cases hki : k = i
  · subst hki
    rw [Function.update_self] at hk
    exact hi now hk
  · rw [Function.update_of_ne hki] at hk
    exact h k now hk

theorem ReadingsPast.step (h : s.ReadingsPast) (hs : Steps limits s a t) : t.ReadingsPast := by
  cases hs with
  | ticked secs =>
    intro i now hn
    have := h i now hn
    show now ≤ s.clock + secs
    omega
  | produced _ _ => exact h
  | began _ =>
    refine h.update ?_
    intro now hn
    obtain rfl : s.clock = now := by simpa using hn
    exact le_rfl
  | @snapped i now hi =>
    refine h.update ?_
    intro now' hn
    obtain rfl : now = now' := by simpa using hn
    exact h i now (by simp [hi])
  | _ => exact h.update (by simp)

theorem inFlight_of_call {c : Call} {db : Database} (hc : c.Promised) {k : OutboundJob} {now : ℤ}
    (hk : k ∈ (c.apply db).outboundJobs) (hf : k.InFlight now) :
    ∃ j ∈ db.outboundJobs, j.id = k.id ∧ j.chatId = k.chatId ∧ (j.InFlight now ∨
      ∃ snapshot locked at' leaseTtlSecs, c = .claimNext snapshot locked at' leaseTtlSecs ∧
        claimHead snapshot locked at' db.outboundJobs = some j) := by
  rcases (Call.jobs_change hc db).origin (Table.select_of_mem hk) with ⟨j,hj,hw⟩ | ⟨_,hn⟩
  · have hsame := hw.moves.sameWork
    exact ⟨j,Table.mem_of_select hj,hsame.id.symm,hsame.chatId.symm,hw.inFlight hf⟩
  · exact absurd hf (hn.inserted.not_inFlight now)

theorem Exclusive.call (h : s.Exclusive) {c : Call} (hc : c.Promised)
    (hclaim : ∀ snapshot locked now leaseTtlSecs head,
      c = .claimNext snapshot locked now leaseTtlSecs →
      claimHead snapshot locked now s.database.outboundJobs = some head →
      ∀ j ∈ s.database.outboundJobs, j.chatId = head.chatId → ¬ j.InFlight s.clock) :
    ChatsExclusive (c.apply s.database).outboundJobs s.clock := by
  intro j hj k hk hchat hfj hfk
  obtain ⟨j',hj',hjid,hjchat,hjf⟩ := inFlight_of_call hc hj hfj
  obtain ⟨k',hk',hkid,hkchat,hkf⟩ := inFlight_of_call hc hk hfk
  have hchat' : j'.chatId = k'.chatId := by rw [hjchat,hkchat,hchat]
  have heq : j' = k' := by
    rcases hjf with hjf | ⟨snapshot,locked,now,ttl,rfl,hhead⟩
    · rcases hkf with hkf | ⟨snapshot,locked,now,ttl,rfl,hhead⟩
      · exact h j' hj' k' hk' hchat' hjf hkf
      · exact absurd hjf (hclaim _ _ _ _ _ rfl hhead j' hj' hchat')
    · rcases hkf with hkf | ⟨_,_,_,_,he,hhead'⟩
      · exact absurd hkf (hclaim _ _ _ _ _ rfl hhead k' hk' hchat'.symm)
      · cases he
        exact Option.some.inj (hhead.symm.trans hhead')
  refine Table.eq_of_key hj hk ?_
  show j.id = k.id
  rw [← hjid,← hkid,heq]

theorem Exclusive.quiet (h : s.Exclusive) {c : Call} (hc : c.Promised)
    (hq : c.claims = false) : ChatsExclusive (c.apply s.database).outboundJobs s.clock := by
  refine h.call hc ?_
  rintro _ _ _ _ _ rfl
  simp [Call.claims] at hq

theorem Exclusive.step (h : s.Exclusive) (hr : s.ReadingsPast) (hs : Steps limits s a t)
    (hu : s.UpToDate a) : t.Exclusive := by
  cases hs with
  | ticked secs =>
    intro j hj k hk hchat hfj hfk
    have hle : s.clock ≤ s.clock + secs := by omega
    exact h j hj k hk hchat (hfj.earlier hle) (hfk.earlier hle)
  | @produced c hc hp =>
    have hq : c.claims = false := by cases c <;> first | rfl | simp [Call.isProducer] at hp
    exact h.quiet hc hq
  | @claimed i locked now snapshot head hi hhead =>
    refine h.call (c := .claimNext snapshot locked now limits.leaseTtlSecs) trivial ?_
    intro snapshot' locked' now' ttl' head' he hhead' j hj hchat hf
    cases he
    obtain rfl := Option.some.inj (hhead.symm.trans hhead')
    have hpast : now ≤ s.clock := hr i now (by simp [hi])
    simp only [UpToDate,hi] at hu
    have hbusy := hu j hj (hf.earlier hpast)
    have hfree := (mem_of_claimHead hhead).2.2.1
    rw [← hchat,hbusy] at hfree
    simp at hfree
  | snapped _ => exact h
  | resolved _ => exact h
  | deferred _ _ => exact h
  | put _ => exact h
  | answered _ _ => exact h
  | refused _ _ => exact h
  | retried _ _ => exact h
  | rested _ _ => exact h
  | _ =>
    refine h.quiet ?_ ?_
    · trivial
    · rfl

theorem Steps.claiming (hs : Steps limits s a t) {i : ℕ} {now : ℤ} {snapshot : Table OutboundJob}
    (hi : t.senders i = .claiming now snapshot) :
    (s.senders i = .claiming now snapshot ∧ a.sender ≠ some i) ∨
      (a.sender = some i ∧ snapshot = t.database.outboundJobs) := by
  by_cases ha : a.sender = some i
  · right
    refine ⟨ha,?_⟩
    have hreading : (t.senders i).reading = some now := by
      rw [hi]
      rfl
    cases hs with
    | ticked _ => simp [Action.sender] at ha
    | produced _ _ => simp [Action.sender] at ha
    | snapped _ =>
      obtain rfl := Option.some.inj ha
      simp only [become_senders,Function.update_self,Sender.claiming.injEq] at hi
      exact hi.2.symm
    | began _ =>
      obtain rfl := Option.some.inj ha
      simp at hi
    | retried _ h =>
      rcases h with ⟨_,rfl,_⟩ | ⟨_,rfl⟩
      · obtain rfl := Option.some.inj ha
        simp at hreading
      · obtain rfl := Option.some.inj ha
        simp at hreading
    | rested h _ =>
      obtain rfl := Option.some.inj (h.symm.trans ha)
      simp at hi
    | _ =>
      obtain rfl := Option.some.inj ha
      simp at hreading
  · left
    rw [hs.senders_of_ne ha] at hi
    exact ⟨hi,ha⟩

theorem seenBusy_own (s : Dispatcher) (now : ℤ) : s.SeenBusy now s.database.outboundJobs :=
  fun _ hj hf => List.any_eq_true.mpr ⟨_,hj,by simpa using hf⟩

/-- The snapshot still shows every chat in flight after a step of another process. -/
theorem SeenBusy.step {now : ℤ} {snapshot : Table OutboundJob} (h : s.SeenBusy now snapshot)
    (hs : Steps limits s a t) (ha : a.sender = none) : t.SeenBusy now snapshot := by
  cases hs with
  | ticked _ => exact h
  | @produced c hc hp =>
    intro k hk hf
    obtain ⟨j,hj,_,hchat,hold | ⟨_,_,_,_,rfl,_⟩⟩ := inFlight_of_call hc hk hf
    · rw [← hchat]
      exact h j hj hold
    · simp [Call.isProducer] at hp
  | retried _ h =>
    rcases h with ⟨_,rfl,_⟩ | ⟨_,rfl⟩ <;> simp [Action.sender] at ha
  | rested h _ => simp [h] at ha
  | _ => simp [Action.sender] at ha

end Steps

/-- In every run whose claim statements are up to date, claimed work in a chat is exclusive. -/
theorem chats_exclusive (limits : SenderLimits) (tr : List Action) (s : Dispatcher)
    (h : Run (fun v a w => step limits v a = some w ∧ v.UpToDate a) initial tr s) :
    s.Exclusive := by
  have hinv : s.Exclusive ∧ s.ReadingsPast := by
    refine h.invariant (P := fun v => v.Exclusive ∧ v.ReadingsPast) ⟨?_,?_⟩ ?_
    · intro j hj
      exact absurd hj (Table.not_mem_empty j)
    · intro i now hn
      simp [initial] at hn
    · rintro v a w ⟨he,hr⟩ ⟨hs,hu⟩
      have hstep := steps_of_step hs
      exact ⟨he.step hr hstep hu,hr.step hstep⟩
  exact hinv.1

/-- One sender's claims are all up to date, so with one sender claimed work is always exclusive. -/
theorem chats_exclusive_of_single {limits : SenderLimits} {i : ℕ} {tr : List Action}
    {s : Dispatcher} (htr : ∀ a ∈ tr, ∀ k ∈ a.sender, k = i) (h : Runs limits tr s) :
    s.Exclusive := by
  refine chats_exclusive limits tr s ((h.strengthen (P := fun v =>
    ∀ k now snapshot, v.senders k = .claiming now snapshot →
      k = i ∧ v.SeenBusy now snapshot) ?_ ?_).mono ?_)
  · intro k now snapshot hk
    simp [initial] at hk
  · intro v a w ha hv hs k now snapshot hk
    have hsteps := steps_of_step hs
    rcases hsteps.claiming hk with ⟨hold,hne⟩ | ⟨hown,rfl⟩
    · obtain ⟨rfl,hseen⟩ := hv k now snapshot hold
      refine ⟨rfl,hseen.step hsteps ?_⟩
      by_contra hsome
      obtain ⟨m,hm⟩ := Option.ne_none_iff_exists'.mp hsome
      exact hne (htr a ha m hm ▸ hm)
    · exact ⟨htr a ha k hown,w.seenBusy_own now⟩
  · rintro v a w ⟨hs,hv⟩
    refine ⟨hs,?_⟩
    cases a with
    | claim k locked =>
      cases hk : v.senders k with
      | claiming now snapshot => simpa [UpToDate,hk] using (hv k now snapshot hk).2
      | _ => simp [UpToDate,hk]
    | _ => trivial

namespace TwoSenders

def limits : SenderLimits := ⟨5,2,60,30⟩

def message (text : String) : NewOutboundJob where
  botId := 7
  chatId := 42
  kind := .sendMessage
  payload := ⟨text,none,none⟩
  contentHash := text
  operationId := none
  revision := none
  correlationId := none
  nextAttemptAt := none

/-- Two messages are due, and both senders read the queue before either has locked a row. -/
def racing : List Action :=
  [.produce (.enqueueOutboundJob 1 (message "first") 0),
    .produce (.enqueueOutboundJob 2 (message "second") 0),
    .beginClaim 0,.beginClaim 1,.snapshot 0,.snapshot 1,.claim 0 ∅,.claim 1 ∅]

/-- The second sender skips the claimed row and takes the other one of the same chat. -/
theorem claims_concurrent : ∃ s, Runs limits racing s ∧ ¬ s.Exclusive :=
  exists_run_of_replay (by decide +kernel)

/-- The second sender reads the queue after the first has claimed. -/
def waiting : List Action :=
  [.produce (.enqueueOutboundJob 1 (message "first") 0),
    .produce (.enqueueOutboundJob 2 (message "second") 0),
    .beginClaim 0,.beginClaim 1,.snapshot 0,.claim 0 ∅,.snapshot 1,.claim 1 ∅]

theorem claims_in_turn :
    ∃ s, Run (fun v a w => step limits v a = some w ∧ v.UpToDate a) initial waiting s ∧
      s.database.outboundJobs.any (·.InFlight s.clock) = true ∧ s.Exclusive := by
  obtain ⟨s,hs,hf⟩ : ∃ s, Run (fun v a w => step limits v a = some w ∧ v.UpToDate a)
      initial waiting s ∧ s.database.outboundJobs.any (·.InFlight s.clock) = true :=
    exists_run_of_guarded (by decide +kernel)
  exact ⟨s,hs,hf,chats_exclusive limits waiting s hs⟩

end TwoSenders

end Dispatcher

end RatatoskrTelegram
