import RatatoskrTelegram.CleanupSafety

/-!
# Captures of one operation converge

Whatever the senders do meanwhile, all captures of one operation in one chat
share one binding and one acknowledgement job, and each leaves a live intent.
-/

namespace RatatoskrTelegram

/-- The job is the acknowledgement of a capture; the edits of an operation carry a revision. -/
def OutboundJob.Acknowledges (operationId : Uuid) (chatId : ℤ) (j : OutboundJob) : Prop :=
  j.Of operationId chatId ∧ j.revision = none

namespace Database

/-- No capture of the operation in that chat has left anything. -/
structure Unprojected (operationId : Uuid) (chatId : ℤ) (db : Database) : Prop where
  binding : ∀ b ∈ db.messageBindings, ¬ b.Of operationId chatId
  acknowledgement : ∀ j ∈ db.outboundJobs, ¬ j.Acknowledges operationId chatId

/-- One binding and one acknowledgement, and a deep link while the operation is unfinished. -/
structure Projected (operationId : Uuid) (chatId : ℤ) (db : Database) : Prop where
  binding : ∃! b, b ∈ db.messageBindings ∧ b.Of operationId chatId
  acknowledgement : ∃! j, j ∈ db.outboundJobs ∧ j.Acknowledges operationId chatId
  intent : ∀ b ∈ db.messageBindings, b.Of operationId chatId → b.terminal = false →
    ∃ t ∈ db.interactionTokens, NamesOperation operationId t

end Database

theorem CaptureStep.binding {bindingId : Uuid} {token : Token} {jobId : Uuid}
    {intent : NewOperationIntent} {acknowledgement : NewOutboundJob} {now : ℤ} {db db' : Database}
    (h : CaptureStep bindingId token jobId intent acknowledgement now db (.ok ()) db') :
    ∃ b, db'.messageBindings.select (intent.operationId,intent.scope.chatId) = some b := by
  cases h with
  | reconciled _ hb _ _ _ => exact ⟨_,hb⟩
  | enqueued _ hb _ _ _ _ _ => exact ⟨_,hb⟩

inductive Captures (operationId : Uuid) (chatId : ℤ) : Action → Prop
  | projected {bindingId : Uuid} {token : Token} {jobId : Uuid} {intent : NewOperationIntent}
      {acknowledgement : NewOutboundJob} {now : ℤ} : intent.operationId = operationId →
      intent.scope.chatId = chatId → Captures operationId chatId (.produce
        (.recordAcceptedCaptureProjection bindingId token jobId intent acknowledgement now))

namespace Dispatcher

section Runs

variable {limits : SenderLimits} {s t : Dispatcher} {a : Action} {operationId : Uuid} {chatId : ℤ}

/-- A new acknowledgement is the row of a capture, made while the pair had no job at all. -/
theorem Steps.acknowledged (hs : Steps limits s a t) (h : s.Acknowledged) {j : OutboundJob}
    (hj : j ∈ t.database.outboundJobs) (hn : s.database.outboundJobs.select j.id = none)
    (hack : j.Acknowledges operationId chatId) : Captures operationId chatId a ∧
      (∀ k ∈ s.database.outboundJobs, ¬ k.Of operationId chatId) ∧
      ∀ k ∈ t.database.outboundJobs, s.database.outboundJobs.select k.id = none →
        k.Acknowledges operationId chatId → k.id = j.id := by
  have hnew {k : OutboundJob} (hk : k ∈ t.database.outboundJobs)
      (hkn : s.database.outboundJobs.select k.id = none) (hka : k.Acknowledges operationId chatId) :
      ∃ c, a = .produce c ∧ c.Enqueues s.database k := by
    rcases hs.jobs.fresh hkn (Table.select_of_mem hk) with hadd | ⟨_,ho⟩
    · exact hadd
    · rw [hka.1.1] at ho
      simp at ho
  obtain ⟨c,rfl,hc⟩ := hnew hj hn hack
  have halone := h.enqueued_alone hc hack.1
  cases hc with
  | edit _ _ _ =>
    have hr := hack.2
    simp [editJob] at hr
  | direct _ _ ho _ =>
    rw [hack.1.1] at ho
    simp at ho
  | @acknowledgement _ _ _ intent job _ _ hv _ _ _ _ =>
    have hop : job.operationId = some operationId := hack.1.1
    have hchat : job.chatId = chatId := hack.1.2
    refine ⟨.projected ?_ (hv.2.2.1.symm.trans hchat),halone hv.2.2.2.1,?_⟩
    · rw [hv.2.2.2.2.1] at hop
      exact Option.some.inj hop
    · intro k hk hkn hka
      obtain ⟨c',hc',henq⟩ := hnew hk hkn hka
      obtain rfl := Action.produce.inj hc'
      cases henq with
      | acknowledgement _ _ _ _ _ => rfl
      | direct _ _ ho _ =>
        rw [hka.1.1] at ho
        simp at ho

def OneAcknowledgement (s : Dispatcher) : Prop :=
  ∀ ⦃operationId : Uuid⦄ ⦃chatId : ℤ⦄, ∀ j ∈ s.database.outboundJobs,
    ∀ k ∈ s.database.outboundJobs, j.Acknowledges operationId chatId →
    k.Acknowledges operationId chatId → j = k

theorem OneAcknowledgement.step (h : s.OneAcknowledgement) (ha : s.Acknowledged)
    (hs : Steps limits s a t) : t.OneAcknowledgement := by
  intro operationId chatId j hj k hk hjack hkack
  refine Table.eq_of_key hj hk ?_
  show j.id = k.id
  have hold {r r' : OutboundJob} (hr' : s.database.outboundJobs.select r.id = some r')
      (ht : Touches limits s a t r' r) (hack : r.Acknowledges operationId chatId) :
      r' ∈ s.database.outboundJobs ∧ r'.id = r.id ∧ r'.Acknowledges operationId chatId := by
    have hsame := ht.moves.sameWork
    exact ⟨Table.mem_of_select hr',hsame.id.symm,(hsame.of_iff _ _).mp hack.1,
      hsame.revision.symm.trans hack.2⟩
  rcases hs.jobs.origin (Table.select_of_mem hj) with ⟨j',hj',htj⟩ | ⟨hjn,_⟩
  · obtain ⟨hjm,hjid,hjold⟩ := hold hj' htj hjack
    rcases hs.jobs.origin (Table.select_of_mem hk) with ⟨k',hk',htk⟩ | ⟨hkn,_⟩
    · obtain ⟨hkm,hkid,hkold⟩ := hold hk' htk hkack
      rw [← hjid,← hkid,h j' hjm k' hkm hjold hkold]
    · exact absurd hjold.1 ((hs.acknowledged ha hk hkn hkack).2.1 j' hjm)
  · rcases hs.jobs.origin (Table.select_of_mem hk) with ⟨k',hk',htk⟩ | ⟨hkn,_⟩
    · obtain ⟨hkm,_,hkold⟩ := hold hk' htk hkack
      exact absurd hkold.1 ((hs.acknowledged ha hj hjn hjack).2.1 k' hkm)
    · exact (hs.acknowledged ha hk hkn hkack).2.2 j hj hjn hjack

theorem runs_acknowledged {tr : List Action} (h : Runs limits tr s) :
    s.Acknowledged ∧ s.OneAcknowledgement := by
  refine h.invariant (P := fun s => s.Acknowledged ∧ s.OneAcknowledgement) ?_ ?_
  · refine ⟨.initial,?_⟩
    intro operationId chatId j hj
    exact absurd hj (Table.not_mem_empty j)
  · rintro v b w ⟨hv,hone⟩ hstep
    have hs := steps_of_step hstep
    exact ⟨hv.step hs,hone.step hv hs⟩

/-- In every reachable state a pair has all records of its captures or none. -/
theorem runs_projected {tr : List Action} (h : Runs limits tr s) (operationId : Uuid)
    (chatId : ℤ) : s.database.Unprojected operationId chatId ∨
      s.database.Projected operationId chatId := by
  obtain ⟨hack,hone⟩ := runs_acknowledged h
  by_cases hb : ∃ b ∈ s.database.messageBindings, b.Of operationId chatId
  · obtain ⟨b,hbm,hbo⟩ := hb
    obtain ⟨j,hj,hja⟩ := hack.acknowledgement b hbm
    have hjack : j.Acknowledges operationId chatId := by
      obtain ⟨rfl,rfl⟩ := hbo
      exact ⟨hja.1,hja.2.2.2⟩
    refine Or.inr ⟨⟨b,⟨hbm,hbo⟩,?_⟩,⟨j,⟨hj,hjack⟩,?_⟩,?_⟩
    · rintro b' ⟨hbm',hbo'⟩
      exact Table.eq_of_key hbm' hbm ((MessageBinding.of_iff.mp hbo').trans
        (MessageBinding.of_iff.mp hbo).symm)
    · rintro k ⟨hk,hkack⟩
      exact hone k hk j hj hkack hjack
    · rintro b' hbm' ⟨rfl,_⟩ hopen
      exact runs_owned h b' hbm' hopen
  · refine Or.inl ⟨?_,?_⟩
    · intro b hbm hbo
      exact hb ⟨b,hbm,hbo⟩
    · intro j hj hjack
      obtain ⟨b,hsel⟩ := hack.bound j hj operationId hjack.1.1
      rw [hjack.1.2] at hsel
      exact hb ⟨b,Table.mem_of_select hsel,MessageBinding.of_iff.mpr (Table.key_of_select hsel)⟩

theorem runs_keep_binding {tr : List Action} {key : Uuid × ℤ}
    (h : Run (fun v a w => step limits v a = some w) s tr t)
    (hb : ∃ b, s.database.messageBindings.select key = some b) :
    ∃ b, t.database.messageBindings.select key = some b := by
  refine h.invariant (P := fun s => ∃ b, s.database.messageBindings.select key = some b) hb ?_
  rintro v a w ⟨b,hb⟩ hstep
  obtain ⟨b',hb',_⟩ := (steps_of_step hstep).bindings.kept hb
  exact ⟨b',hb'⟩

/-- Captures converge: a pair has one binding and one acknowledgement from its first projected
capture on, each projected capture leaves a live intent, and each failed one leaves no trace. -/
theorem captures_converge {tr : List Action} (h : Runs limits tr s) :
    (∀ operationId chatId, s.database.Unprojected operationId chatId ∨
      s.database.Projected operationId chatId) ∧
    (∀ bindingId token jobId intent acknowledgement now r db',
      recordAcceptedCaptureProjection bindingId token jobId intent acknowledgement now
        s.database = (r,db') → (∀ e, r = .error e → db' = s.database) ∧
      (r = .ok () → (∃ t ∈ db'.interactionTokens, LiveIntent intent now t) ∧
        ∀ tr' u, Run (fun v a w => step limits v a = some w) {s with database := db'} tr' u →
          u.database.Projected intent.operationId intent.scope.chatId)) ∧
    ∀ a t, step limits s a = some t → ∀ j ∈ t.database.outboundJobs,
      s.database.outboundJobs.select j.id = none → ∀ operationId chatId,
        j.Acknowledges operationId chatId → Captures operationId chatId a := by
  refine ⟨runs_projected h,?_,?_⟩
  · intro bindingId token jobId intent acknowledgement now r db' he
    obtain ⟨r',t,he',hstep⟩ := recordAcceptedCaptureProjection_step bindingId token jobId intent
      acknowledgement now s.database
    obtain ⟨rfl,rfl⟩ := Prod.mk.inj (he.symm.trans he')
    constructor
    · rintro e rfl
      cases hstep with
      | failed _ => rfl
    · rintro rfl
      refine ⟨hstep.live,?_⟩
      intro tr' u hrun
      have hfirst : step limits s (.produce (.recordAcceptedCaptureProjection bindingId token
          jobId intent acknowledgement now)) = some {s with database := db'} := by
        simp [step,Call.Promised,Call.isProducer,Call.apply,he]
      rcases runs_projected ((h.snoc hfirst).trans hrun) intent.operationId
        intent.scope.chatId with hnone | hall
      · obtain ⟨b,hb⟩ := runs_keep_binding hrun hstep.binding
        exact absurd (MessageBinding.of_iff.mpr (Table.key_of_select hb))
          (hnone.binding b (Table.mem_of_select hb))
      · exact hall
  · intro a t hstep j hj hn operationId chatId hack
    exact ((steps_of_step hstep).acknowledged (runs_acknowledged h).1 hj hn hack).1

end Runs

namespace OneCapture

/-- The capture is projected, its acknowledgement is sent, and the update is replayed. -/
def replayed : List Action :=
  [capture] ++ claims 0 ++ delivers 0 ++ succeeds 0 77 ++ [capture]

theorem capture_replayed : ∃ s, Runs limits replayed s ∧ s.database.Projected 3 42 := by
  obtain ⟨s,hs,hb⟩ : ∃ s, Runs limits replayed s ∧
      s.database.messageBindings.any (MessageBinding.Of 3 42) = true :=
    exists_run_of_replay (by decide +kernel)
  refine ⟨s,hs,?_⟩
  rcases (captures_converge hs).1 3 42 with hnone | hall
  · obtain ⟨b,hm,hof⟩ := Table.any_iff.mp hb
    exact absurd hof (hnone.binding b hm)
  · exact hall

end OneCapture

end Dispatcher

end RatatoskrTelegram
