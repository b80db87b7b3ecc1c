import RatatoskrTelegram.CallEffects

/-!
# Recorded projections stay well formed

A recorded edit takes a revision above all earlier ones of its binding, and a
recorded terminal edit caps the binding: no later call enqueues or sweeps there.
-/

namespace RatatoskrTelegram

structure Records (db : Database) (c : Call) (key : Uuid × ℤ) (event : AcceptedEvent)
    (jobId : Uuid) (revision : ℤ) : Prop where
  answer : ∃ now renderIntervalSecs,
    c = .acceptOperationEvent jobId event now renderIntervalSecs ∧
      (acceptOperationEvent jobId event now renderIntervalSecs db).1 = .ok (.recorded revision)
  canonical : (lockBinding event.operationId db.messageBindings).map Keyed.key = some key

section Recorded

variable {db : Database} {c : Call} {key : Uuid × ℤ} {event : AcceptedEvent} {jobId : Uuid}
  {revision : ℤ}

theorem Records.inv (h : Records db c key event jobId revision) :
    ∃ binding now renderIntervalSecs jobs, event.eventId ∉ db.inbox ∧
      lockBinding event.operationId db.messageBindings = some binding ∧
      db.messageBindings.select key = some binding ∧ binding.terminal = false ∧
      revision = nextRevision db.outboundJobs binding ∧
      (supersedeOlderEdits binding.operationId binding.chatId revision db.outboundJobs).insert
        (editJob jobId binding event revision now renderIntervalSecs) = some jobs ∧
      c.apply db = recordedDatabase binding event jobs db := by
  obtain ⟨now,renderIntervalSecs,rfl,ha⟩ := h.answer
  obtain ⟨r,t,he,hs⟩ := acceptOperationEvent_step jobId event now renderIntervalSecs db
  rw [he] at ha
  cases hs with
  | recorded hseen hl ht hw hi =>
    rename_i binding jobs
    obtain rfl : nextRevision db.outboundJobs binding = revision := by simpa using ha
    have hkey : Keyed.key binding = key := by simpa [hl] using h.canonical
    have hsel := Table.select_of_mem (lockBinding_eq_some hl).1
    rw [hkey] at hsel
    exact ⟨binding,now,renderIntervalSecs,jobs,hseen,hl,hsel,ht,rfl,hi,by rw [Call.apply,he]⟩
  | _ => simp at ha

theorem Records.lt_of_assigned (h : Records db c key event jobId revision) {j : OutboundJob}
    (hj : j ∈ db.outboundJobs) (ho : j.Of key.1 key.2) {r : ℤ} (hr : j.revision = some r) :
    r < revision := by
  obtain ⟨binding,_,_,_,_,_,hsel,_,rfl,_⟩ := h.inv
  obtain rfl := Table.key_of_select hsel
  exact assigned_lt_nextRevision hj ho hr

theorem Records.rendered_lt (h : Records db c key event jobId revision) {b : MessageBinding}
    (hb : db.messageBindings.select key = some b) : b.lastRenderedRevision < revision := by
  obtain ⟨binding,_,_,_,_,_,hsel,_,rfl,_⟩ := h.inv
  obtain rfl : binding = b := by simpa [hsel] using hb
  exact rendered_lt_nextRevision db.outboundJobs binding

end Recorded

/-- The job stored under that id carries that revision of the binding. -/
def Assigned (key : Uuid × ℤ) (revision : ℤ) (j : OutboundJob) : Prop :=
  j.Of key.1 key.2 ∧ j.revision = some revision

theorem Assigned.moves {key : Uuid × ℤ} {revision : ℤ} {j k : OutboundJob}
    (h : Assigned key revision j) (hm : j.Moves k) : Assigned key revision k :=
  ⟨(hm.sameWork.of_iff _ _).mpr h.1,hm.sameWork.revision.trans h.2⟩

/-- Every revision of the binding is at most that one, which only the job `jobId` carries. -/
def Capped (key : Uuid × ℤ) (jobId : Uuid) (revision : ℤ) (db : Database) : Prop :=
  (∃ b, db.messageBindings.select key = some b ∧ b.terminal = true) ∧
    ∀ j ∈ db.outboundJobs, ∀ r, Assigned key r j → r < revision ∨ (r = revision ∧ j.id = jobId)

section Recording

variable {db db' : Database} {c : Call} {tr : List Call} {key : Uuid × ℤ} {event : AcceptedEvent}
  {jobId : Uuid} {revision : ℤ}

theorem Records.assigned (h : Records db c key event jobId revision) :
    ∃ j, (c.apply db).outboundJobs.select jobId = some j ∧ Assigned key revision j := by
  obtain ⟨binding,now,renderIntervalSecs,jobs,_,hl,hsel,_,_,hi,he⟩ := h.inv
  obtain rfl := Table.key_of_select hsel
  refine ⟨editJob jobId binding event revision now renderIntervalSecs,?_,?_⟩
  · rw [he]
    show jobs.select jobId = _
    rw [Table.select_insert hi]
    simp [editJob]
  · have hop := (lockBinding_eq_some hl).2
    exact ⟨⟨by simp [editJob,hop],rfl⟩,rfl⟩

theorem Records.inbox (h : Records db c key event jobId revision) :
    event.eventId ∈ (c.apply db).inbox := by
  obtain ⟨binding,_,_,jobs,_,_,_,_,_,_,he⟩ := h.inv
  rw [he]
  exact Finset.mem_insert_self _ _

theorem Records.capped (h : Records db c key event jobId revision) (ht : event.terminal = true) :
    Capped key jobId revision (c.apply db) := by
  obtain ⟨binding,now,renderIntervalSecs,jobs,_,hl,hsel,hfalse,_,hi,he⟩ := h.inv
  have hkey := Table.key_of_select hsel
  constructor
  · refine ⟨(advanceWatermark event.occurredAtSecs).set (markTerminal.set binding),?_,rfl⟩
    have hof : binding.Of binding.operationId binding.chatId := ⟨rfl,rfl⟩
    rw [he]
    simp [recordedDatabase,recordBinding,ht,hsel,Flippable,MessageBinding.Of,hfalse]
  · intro j hj r hr
    rw [he] at hj
    rcases (Table.mem_insert hi).mp hj with hj | rfl
    · left
      obtain ⟨s,hs,⟨-,rfl⟩ | ⟨-,rfl⟩⟩ := mem_supersedeOlderEdits.mp hj
      · exact h.lt_of_assigned hs hr.1 hr.2
      · exact h.lt_of_assigned hs hr.1 hr.2
    · have he : revision = r := by simpa [editJob] using hr.2
      exact Or.inr ⟨he.symm,rfl⟩

theorem Capped.not_records (h : Capped key jobId revision db) {event' : AcceptedEvent}
    {jobId' : Uuid} {revision' : ℤ} : ¬ Records db c key event' jobId' revision' := by
  intro hr
  obtain ⟨b,hb,ht⟩ := h.1
  obtain ⟨binding,_,_,_,_,_,hsel,hfalse,_⟩ := hr.inv
  obtain rfl : binding = b := by simpa [hsel] using hb
  simp [ht] at hfalse

/-- No accept rewrites or enqueues a job of a binding that is already terminal. -/
theorem Capped.other_binding (h : Capped key jobId revision db) {binding : MessageBinding}
    {operationId : Uuid} (hl : lockBinding operationId db.messageBindings = some binding)
    (ht : binding.terminal = false) : Keyed.key binding ≠ key := by
  rintro rfl
  obtain ⟨b,hb,hterminal⟩ := h.1
  have hsel := Table.select_of_mem (lockBinding_eq_some hl).1
  obtain rfl := Option.some.inj (hsel.symm.trans hb)
  simp [hterminal] at ht

theorem Capped.step (h : Capped key jobId revision db) (hs : CallStep db c db') :
    Capped key jobId revision db' := by
  obtain ⟨hc,rfl⟩ := hs
  constructor
  · obtain ⟨b,hb,ht⟩ := h.1
    obtain ⟨b',hb',ha⟩ := c.bindings_advance db hb
    exact ⟨b',hb',ha.terminal ht⟩
  · intro k hk r hr
    rcases (Call.jobs_change hc db).origin (Table.select_of_mem hk) with ⟨j,hj,hw⟩ | ⟨_,hn⟩
    · have hsame := hw.moves.sameWork
      have hassigned : Assigned key r j :=
        ⟨(hsame.of_iff _ _).mp hr.1,hsame.revision.symm.trans hr.2⟩
      rw [hsame.id]
      exact h.2 j (Table.mem_of_select hj) r hassigned
    · cases hn with
      | edit _ hl ht =>
        have hop := (lockBinding_eq_some hl).2
        have hof := hr.1
        exact absurd (Prod.ext (hop.trans (Option.some.inj hof.1)) hof.2) (h.other_binding hl ht)
      | acknowledgement hv _ _ _ _ =>
        have hrev := hr.2
        simp [NewOutboundJob.row,hv.2.2.2.2.2] at hrev
      | direct _ _ _ hrev =>
        have := hr.2
        simp [hrev] at this

theorem Capped.run (h : Capped key jobId revision db) (hr : Run CallStep db tr db') :
    Capped key jobId revision db' :=
  hr.invariant h fun _ _ _ hv hs => hv.step hs

theorem Capped.superseded (h : Capped key jobId revision db) (hs : CallStep db c db')
    {id : Uuid} {j k : OutboundJob} (hj : db.outboundJobs.select id = some j)
    (ho : j.Of key.1 key.2) (hne : j.state ≠ .superseded)
    (hk : db'.outboundJobs.select id = some k) (hsup : k.state = .superseded) :
    ∃ claimAttempt now maxAttempts,
      c = .settleOutboundJob id claimAttempt now maxAttempts .supersededStale := by
  obtain ⟨hc,rfl⟩ := hs
  obtain ⟨k',hk',hw⟩ := (Call.jobs_change hc db).kept hj
  obtain rfl : k' = k := by simpa [hk'] using hk
  cases hw with
  | stays => exact absurd hsup hne
  | withdrawn hl ht hsw =>
    rename_i binding
    have hkey : (binding.operationId,binding.chatId) = key :=
      Prod.ext (Option.some.inj (hsw.1.1.symm.trans ho.1)) (hsw.1.2.symm.trans ho.2)
    exact absurd hkey (h.other_binding hl ht)
  | quarantined _ => simp at hsup
  | claimed _ => simp at hsup
  | prepared _ => exact absurd hsup hne
  | settled hown =>
    rename_i claimAttempt now maxAttempts outcome
    obtain rfl : id = _ := (Table.key_of_select hj).symm.trans hown.1
    cases outcome with
    | supersededStale => exact ⟨claimAttempt,now,maxAttempts,rfl⟩
    | retryWithBackoff delaySecs =>
      by_cases hmax : maxAttempts ≤ j.attempts <;> simp [settlement,hmax] at hsup
    | _ => simp [settlement] at hsup
  | acknowledged _ => simp at hsup

end Recording

theorem accept_records {jobId : Uuid} {event : AcceptedEvent} {db : Database}
    {binding : MessageBinding} (hseen : event.eventId ∉ db.inbox)
    (hl : lockBinding event.operationId db.messageBindings = some binding)
    (ht : binding.terminal = false) (hw : ¬ Overtaken event.occurredAtSecs binding)
    (hid : db.outboundJobs.select jobId = none) (now renderIntervalSecs : ℤ) :
    (acceptOperationEvent jobId event now renderIntervalSecs db).1 =
      .ok (.recorded (nextRevision db.outboundJobs binding)) := by
  obtain ⟨r,t,he,h⟩ := acceptOperationEvent_step jobId event now renderIntervalSecs db
  rw [he]
  cases h with
  | duplicate hin => exact absurd hin hseen
  | unbound _ hn => simp [hn] at hl
  | postTerminal _ hl' ht' =>
    obtain rfl := Option.some.inj (hl.symm.trans hl')
    simp [ht] at ht'
  | stale _ hl' _ hw' =>
    obtain rfl := Option.some.inj (hl.symm.trans hl')
    exact absurd hw' hw
  | failed hne => exact absurd hid hne
  | recorded _ hl' _ _ _ =>
    obtain rfl := Option.some.inj (hl.symm.trans hl')
    rfl

section Unrecorded

variable {jobId : Uuid} {event : AcceptedEvent} {now renderIntervalSecs : ℤ} {db : Database}

theorem duplicate_unchanged
    (h : (acceptOperationEvent jobId event now renderIntervalSecs db).1 = .ok .duplicate) :
    (acceptOperationEvent jobId event now renderIntervalSecs db).2 = db := by
  obtain ⟨r,t,he,hstep⟩ := acceptOperationEvent_step jobId event now renderIntervalSecs db
  rw [he] at h ⊢
  cases hstep with
  | duplicate _ => rfl
  | _ => simp at h

theorem unbound_unchanged
    (h : (acceptOperationEvent jobId event now renderIntervalSecs db).1 = .ok .unbound) :
    (acceptOperationEvent jobId event now renderIntervalSecs db).2 = db ∧
      event.eventId ∉ db.inbox := by
  obtain ⟨r,t,he,hstep⟩ := acceptOperationEvent_step jobId event now renderIntervalSecs db
  rw [he] at h ⊢
  cases hstep with
  | unbound hseen _ => exact ⟨rfl,hseen⟩
  | _ => simp at h

end Unrecorded

/-- Revisions only grow, the watermark and the terminal flag only move forward, a recorded terminal
edit is the last and the greatest and is never swept, an event id records once, and an answer of
`duplicate` or `unbound` leaves no trace. -/
theorem accepted_projections_well_formed :
    (∀ (db : Database) (c : Call) (key : Uuid × ℤ) (event : AcceptedEvent) (jobId : Uuid) (r : ℤ),
      Records db c key event jobId r →
      (∃ j, (c.apply db).outboundJobs.select jobId = some j ∧ Assigned key r j) ∧
      (∀ j ∈ db.outboundJobs, ∀ r', Assigned key r' j → r' < r) ∧
      ∀ b, db.messageBindings.select key = some b → b.lastRenderedRevision < r) ∧
    (∀ (db₁ db₂ : Database) (c₁ c₂ : Call) (tr : List Call) (key : Uuid × ℤ)
      (event₁ event₂ : AcceptedEvent) (id₁ id₂ : Uuid) (r₁ r₂ : ℤ),
      Records db₁ c₁ key event₁ id₁ r₁ → Run CallStep (c₁.apply db₁) tr db₂ →
      Records db₂ c₂ key event₂ id₂ r₂ → r₁ < r₂) ∧
    (∀ (db db' : Database) (tr : List Call) (key : Uuid × ℤ) (b : MessageBinding),
      Run CallStep db tr db' → db.messageBindings.select key = some b →
      ∃ b', db'.messageBindings.select key = some b' ∧
        (∀ w ∈ b.lastEventAt, ∃ w' ∈ b'.lastEventAt, w ≤ w') ∧
        (b.terminal = true → b'.terminal = true)) ∧
    (∀ (db db' : Database) (c : Call) (tr : List Call) (key : Uuid × ℤ) (event : AcceptedEvent)
      (jobId : Uuid) (r : ℤ),
      Records db c key event jobId r → event.terminal = true → Run CallStep (c.apply db) tr db' →
      (∀ c' event' jobId' r', ¬ Records db' c' key event' jobId' r') ∧
      (∃ j, db'.outboundJobs.select jobId = some j ∧ Assigned key r j) ∧
      (∀ j ∈ db'.outboundJobs, ∀ r', Assigned key r' j → r' < r ∨ (r' = r ∧ j.id = jobId)) ∧
      ∀ c' db'' j k, CallStep db' c' db'' → db'.outboundJobs.select jobId = some j →
        j.state ≠ .superseded → db''.outboundJobs.select jobId = some k → k.state = .superseded →
        ∃ claimAttempt now maxAttempts,
          c' = .settleOutboundJob jobId claimAttempt now maxAttempts .supersededStale) ∧
    (∀ (db₁ db₂ : Database) (c₁ c₂ : Call) (tr : List Call) (key₁ key₂ : Uuid × ℤ)
      (event₁ event₂ : AcceptedEvent) (id₁ id₂ : Uuid) (r₁ r₂ : ℤ),
      Records db₁ c₁ key₁ event₁ id₁ r₁ → Run CallStep (c₁.apply db₁) tr db₂ →
      Records db₂ c₂ key₂ event₂ id₂ r₂ → event₁.eventId ≠ event₂.eventId) ∧
    ∀ (jobId : Uuid) (event : AcceptedEvent) (now renderIntervalSecs : ℤ) (db : Database),
      ((acceptOperationEvent jobId event now renderIntervalSecs db).1 = .ok .duplicate →
        (acceptOperationEvent jobId event now renderIntervalSecs db).2 = db) ∧
      ((acceptOperationEvent jobId event now renderIntervalSecs db).1 = .ok .unbound →
        (acceptOperationEvent jobId event now renderIntervalSecs db).2 = db ∧
        event.eventId ∉ db.inbox ∧
        ∀ (db' : Database) (binding : MessageBinding) (jobId' : Uuid) (now' : ℤ),
          db'.inbox = db.inbox →
          lockBinding event.operationId db'.messageBindings = some binding →
          binding.terminal = false → ¬ Overtaken event.occurredAtSecs binding →
          db'.outboundJobs.select jobId' = none →
          (acceptOperationEvent jobId' event now' renderIntervalSecs db').1 =
            .ok (.recorded (nextRevision db'.outboundJobs binding))) := by
  refine ⟨?_,?_,?_,?_,?_,?_⟩
  · intro db c key event jobId r h
    exact ⟨h.assigned,fun j hj r' ha => h.lt_of_assigned hj ha.1 ha.2,fun b hb => h.rendered_lt hb⟩
  · intro db₁ db₂ c₁ c₂ tr key event₁ event₂ id₁ id₂ r₁ r₂ h₁ hr h₂
    obtain ⟨j,hj,ha⟩ := job_stable (P := Assigned key r₁) (fun _ _ ha hm => ha.moves hm) hr
      h₁.assigned
    exact h₂.lt_of_assigned (Table.mem_of_select hj) ha.1 ha.2
  · intro db db' tr key b hr hb
    obtain ⟨b',hb',ha⟩ := binding_stable (P := b.Advances)
      (fun _ _ h k => MessageBinding.Advances.trans _ _ _ h k) hr ⟨b,hb,.refl b⟩
    exact ⟨b',hb',ha.watermark,ha.terminal⟩
  · intro db db' c tr key event jobId r h ht hr
    have hcap := (h.capped ht).run hr
    obtain ⟨j,hj,ha⟩ := job_stable (P := Assigned key r) (fun _ _ ha hm => ha.moves hm) hr
      h.assigned
    refine ⟨fun _ _ _ _ => hcap.not_records,⟨j,hj,ha⟩,hcap.2,?_⟩
    intro c' db'' j' k hs hj' hne hk hsup
    obtain rfl := Option.some.inj (hj.symm.trans hj')
    exact hcap.superseded hs hj ha.1 hne hk hsup
  · intro db₁ db₂ c₁ c₂ tr key₁ key₂ event₁ event₂ id₁ id₂ r₁ r₂ h₁ hr h₂ he
    obtain ⟨_,_,_,_,hseen,_⟩ := h₂.inv
    exact hseen (he ▸ inbox_stable hr h₁.inbox)
  · intro jobId event now renderIntervalSecs db
    refine ⟨duplicate_unchanged,fun hu => ?_⟩
    obtain ⟨hsame,hseen⟩ := unbound_unchanged hu
    refine ⟨hsame,hseen,?_⟩
    intro db' binding jobId' now' hin hl ht hw hid
    exact accept_records (by rwa [hin]) hl ht hw hid now' renderIntervalSecs

namespace TerminalProjection

def progress : AcceptedEvent := ⟨3,20,100,false,⟨"half",none,none⟩,"h1",.other "corr"⟩

def outcome : AcceptedEvent := ⟨3,21,110,true,⟨"done",none,none⟩,"h2",.other "corr"⟩

def database : Database := {Database.fresh with
  messageBindings := .single (newBinding 6 7 3 42 (some 77))}

def first : Call := .acceptOperationEvent 30 progress 100 1

def last : Call := .acceptOperationEvent 31 outcome 110 1

def rendered : Database := (advanceRender 3 42 1 105 (first.apply database)).2

theorem records_first : Records database first (3,42) progress 30 1 :=
  ⟨⟨100,1,rfl,by decide⟩,by decide⟩

theorem records_last : Records rendered last (3,42) outcome 31 2 :=
  ⟨⟨110,1,rfl,by decide⟩,by decide⟩

theorem run : Run CallStep (first.apply database) [.advanceRender 3 42 1 105] rendered :=
  .single ⟨trivial,rfl⟩

/-- The revisions grow, the terminal edit caps the binding, and an unbound event is not consumed. -/
theorem well_formed :
    (1 : ℤ) < 2 ∧ Capped (3,42) 31 2 (last.apply rendered) ∧ progress.eventId ≠ outcome.eventId ∧
    (acceptOperationEvent 30 progress 100 1 Database.fresh).2 = Database.fresh := by
  obtain ⟨_,hgrow,_,hlast,honce,hquiet⟩ := accepted_projections_well_formed
  obtain ⟨_,_,hcap,_⟩ :=
    hlast rendered _ last [] (3,42) outcome 31 2 records_last rfl .refl
  refine ⟨hgrow _ _ _ _ _ _ _ _ _ _ _ _ records_first run records_last,⟨?_,hcap⟩,
    honce _ _ _ _ _ _ _ _ _ _ _ _ _ records_first run records_last,?_⟩
  · exact ⟨{newBinding 6 7 3 42 (some 77) with
      lastRenderedRevision := 1
      lastRenderedAt := some 105
      lastEventAt := some 110
      terminal := true},by decide,rfl⟩
  · exact ((hquiet 30 progress 100 1 Database.fresh).2 (by decide)).1

end TerminalProjection

end RatatoskrTelegram
