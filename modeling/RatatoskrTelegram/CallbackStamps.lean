import RatatoskrTelegram.WebhookSteps

/-!
# A token is stamped with the message that shows it

While a dialogue waits, every unsettled job that concerns it carries the tokens
of its current version, and so does every prompt on its way into the queue. A
selection presents a stamped token, whose job is then the only one of the
preview and is settled.
-/

namespace RatatoskrTelegram

namespace Webhook

/-- The dialogue is stored and waits for a button. -/
def Awaits (s : Webhook) (d : DialogState) : Prop :=
  s.database.dialogStates.select d.id = some d ∧ d.Awaiting

/-- A callback token of that dialogue at its current version. -/
structure Current (s : Webhook) (d : DialogState) (t : InteractionToken) : Prop where
  stored : t ∈ s.database.interactionTokens
  surface : t.surface = .callback
  dialogueId : t.dialogueId = some d.id
  version : t.expectedDialogueVersion = some d.version

theorem Current.of_same {s u : Webhook} {d : DialogState} {t : InteractionToken}
    (h : u.Current d t) (ht : u.database.interactionTokens = s.database.interactionTokens) :
    s.Current d t :=
  ⟨ht ▸ h.stored,h.surface,h.dialogueId,h.version⟩

/-- The provider returned that message for the acknowledged job, whose inline keyboard carries the
token. -/
structure Shows (s : Webhook) (j : OutboundJob) (messageId : ℤ) (t : InteractionToken) : Prop where
  stored : s.database.outboundJobs.select j.id = some j
  sent : j.state = .sent
  acknowledged : j.acknowledgedMessageId = some messageId
  concerns : ∃ dialogueId, t.dialogueId = some dialogueId ∧ j.Concerns dialogueId
  carries : j.Carries t.token
  answered : ∃ job action, job.id = j.id ∧ .answered job action messageId ∈ s.dispatcher.wire

section Steps

variable {s u : Webhook}

theorem awaits_of_quiet {d : Dispatcher} (hq : s.dispatcher.Quiet d.database) {e : DialogState}
    (he : d.database.dialogStates.select e.id = some e) (hw : e.Awaiting) :
    ∃ d₀, s.Awaits d₀ ∧ d₀.id = e.id ∧ d₀.step = e.step ∧ d₀.version = e.version := by
  rcases hq.dialogues e.id e he with ⟨d₀,hd,hk⟩ | ⟨_,hf⟩
  · obtain ⟨hw₀,hstep,hv⟩ := hk.awaiting hw
    have hid : d₀.id = e.id := Table.key_of_select hd
    exact ⟨d₀,⟨hid ▸ hd,hw₀⟩,hid,hstep.symm,hv.symm⟩
  · exact hf.elim

theorem job_of_quiet {d : Dispatcher} (hq : s.dispatcher.Quiet d.database) {e : DialogState}
    (he : d.database.dialogStates.select e.id = some e) (hw : e.Awaiting) {k : OutboundJob}
    (hk : k ∈ d.database.outboundJobs) (hcon : k.Concerns e.id) :
    ∃ j ∈ s.database.outboundJobs, j.Moves k ∧ j.Concerns e.id := by
  rcases hq.jobs.origin (Table.select_of_mem hk) with ⟨j,hj,hm⟩ | ⟨_,hf⟩
  · exact ⟨j,Table.mem_of_select hj,hm,(hm.concerns e.id).mp hcon⟩
  · exact absurd hw.1 ((hf e.id hcon).2 e he)

theorem current_of_quiet {d : Dispatcher} (hq : s.dispatcher.Quiet d.database)
    {d₀ e : DialogState} (hid : d₀.id = e.id) (hv : d₀.version = e.version)
    {t' : InteractionToken} (ht : Current {s with dispatcher := d} e t') :
    ∃ t, s.Current d₀ t ∧ t.token = t'.token := by
  obtain ⟨t,hmem,hsame,_⟩ := hq.tokens t' ht.stored ht.surface
  refine ⟨t,⟨hmem,hsame.surface ▸ ht.surface,?_,?_⟩,hsame.token.symm⟩
  · rw [hid,← hsame.dialogueId]
    exact ht.dialogueId
  · rw [hv,← hsame.version]
    exact ht.version

theorem awaits_of_opens {i : ℕ} {db : Database} {prompt : Prompt} {e d : DialogState}
    {dialogues : List Uuid} {minted : List Token} (ho : s.Opens db prompt e dialogues minted)
    (hne : d.id ≠ e.id) (hd : (s.transit i db (some prompt) dialogues minted).Awaits d) :
    s.Awaits d :=
  ⟨(ho.others d.id hne).symm.trans hd.1,hd.2⟩

theorem current_of_opens {i : ℕ} {db : Database} {prompt : Prompt} {e d : DialogState}
    {dialogues : List Uuid} {minted : List Token} (ho : s.Opens db prompt e dialogues minted)
    (hne : d.id ≠ e.id) {t' : InteractionToken}
    (ht : (s.transit i db (some prompt) dialogues minted).Current d t') :
    ∃ t, s.Current d t ∧ t.token = t'.token := by
  rcases ho.tokens t' ht.stored ht.surface with ⟨t,hmem,hsame,_⟩ | ⟨hid,_⟩
  · exact ⟨t,⟨hmem,hsame.surface ▸ ht.surface,hsame.dialogueId ▸ ht.dialogueId,
      hsame.version ▸ ht.version⟩,hsame.token.symm⟩
  · exact absurd (Option.some.inj (ht.dialogueId.symm.trans hid)) hne

/-- The tokens at the version a transition opens are those its prompt offers. -/
theorem offers_of_opens {i : ℕ} {db : Database} {prompt : Prompt} {e : DialogState}
    {dialogues : List Uuid} {minted : List Token} (ho : s.Opens db prompt e dialogues minted)
    (hn : s.Named) {t' : InteractionToken}
    (ht : (s.transit i db (some prompt) dialogues minted).Current e t') :
    prompt.Offers t'.token := by
  rcases ho.tokens t' ht.stored ht.surface with ⟨t,hmem,hsame,_⟩ | ⟨_,_,_,hoffers⟩
  · obtain ⟨id,version,hid,hm,hv,hle⟩ := hn.tokens t hmem (hsame.surface ▸ ht.surface)
    obtain rfl : e.id = id :=
      Option.some.inj (ht.dialogueId.symm.trans (hsame.dialogueId.trans hid))
    have hversion : e.version = version :=
      Option.some.inj (ht.version.symm.trans (hsame.version.trans hv))
    cases ho.opened with
    | preview _ hnot _ => exact absurd hm hnot
    | confirmation hd _ _ hv₀ _ _ hv₁ _ _ _ _ =>
      have := hle _ hd
      omega
  · exact hoffers

end Steps

/-- What shows the tokens of the dialogues that wait, and what has stamped a token. -/
structure Prompted (s : Webhook) : Prop where
  answered : s.dispatcher.Answered
  jobs : ∀ {d : DialogState} {t : InteractionToken}, s.Awaits d → s.Current d t →
    ∀ j ∈ s.database.outboundJobs, j.Concerns d.id → j.state.isFinal = false → j.Carries t.token
  handlers : ∀ {d : DialogState} {t : InteractionToken}, s.Awaits d → s.Current d t →
    ∀ {i : ℕ} {prompt : Prompt}, s.handlers i = some prompt → prompt.dialogueId = d.id →
    prompt.Offers t.token
  sole : ∀ {d : DialogState}, s.Awaits d → d.step = .preview →
    ∀ j ∈ s.database.outboundJobs, j.Concerns d.id →
    (∀ k ∈ s.database.outboundJobs, k.Concerns d.id → k = j) ∧
      ∀ {i : ℕ} {prompt : Prompt}, s.handlers i = some prompt → prompt.dialogueId ≠ d.id
  one : ∀ {d : DialogState}, s.Awaits d → d.step = .preview →
    ∀ {i k : ℕ} {prompt prompt' : Prompt}, s.handlers i = some prompt →
    s.handlers k = some prompt' → prompt.dialogueId = d.id → prompt'.dialogueId = d.id → i = k
  shown : ∀ t ∈ s.database.interactionTokens, t.surface = .callback →
    ∀ {messageId : ℤ}, t.expectedMessageId = some messageId → ∃ j, s.Shows j messageId t

namespace Prompted

variable {s u : Webhook}

theorem confirmed (h : s.Prompted) {dialogues : List Uuid} {e : DialogState}
    (ho : s.Opened dialogues e) (hn : s.Named) :
    (∀ j ∈ s.database.outboundJobs, j.Concerns e.id → j.state.isFinal = true) ∧
      ∀ {i : ℕ} {prompt : Prompt}, s.handlers i = some prompt → prompt.dialogueId ≠ e.id := by
  cases ho with
  | preview _ hnot _ =>
    refine ⟨fun j hj hcon => absurd (hn.jobs j hj e.id hcon) hnot,?_⟩
    rintro i prompt hi hid
    exact hnot (hid ▸ hn.handlers hi)
  | @confirmation d t messageId hd hactive hstep _ _ _ _ ht hsurface hid hm =>
    obtain ⟨j,hj⟩ := h.shown t ht hsurface hm
    obtain ⟨dialogueId,hdid,hcon⟩ := hj.concerns
    obtain rfl : dialogueId = e.id := Option.some.inj (hdid.symm.trans hid)
    have hkey : d.id = e.id := Table.key_of_select hd
    have hw : s.Awaits d := ⟨hkey ▸ hd,hactive,Or.inl hstep⟩
    obtain ⟨hsole,hnone⟩ := h.sole hw hstep j (Table.mem_of_select hj.stored) (hkey ▸ hcon)
    constructor
    · intro k hk hkc
      rw [hsole k hk (hkey ▸ hkc),hj.sent]
      rfl
    · intro i prompt hi
      exact hkey ▸ hnone hi

theorem jobs_step (h : s.Prompted) (hn : s.Named) (hs : Steps s u) {d : DialogState}
    {t : InteractionToken} (hd : u.Awaits d) (ht : u.Current d t) {j : OutboundJob}
    (hj : j ∈ u.database.outboundJobs) (hcon : j.Concerns d.id) (hf : j.state.isFinal = false) :
    j.Carries t.token := by
  cases hs with
  | quiet hq _ _ =>
    obtain ⟨d₀,hw,hid,_,hv⟩ := awaits_of_quiet hq hd.1 hd.2
    obtain ⟨t₀,ht₀,htoken⟩ := current_of_quiet hq hid hv ht
    obtain ⟨j₀,hj₀,hm,hcon₀⟩ := job_of_quiet hq hd.1 hd.2 hj hcon
    have hopen : j₀.state.isFinal = false := by
      by_contra hfinal
      rw [hm.of_final (by simpa using hfinal)] at hf
      exact hfinal hf
    rw [hm.carries,← htoken]
    exact h.jobs hw ht₀ j₀ hj₀ (hid ▸ hcon₀) hopen
  | @opened _ _ _ e _ _ _ ho =>
    have hj₀ : j ∈ s.database.outboundJobs := ho.jobs ▸ hj
    by_cases hne : d.id = e.id
    · have hfinal := (h.confirmed ho.opened hn).1 j hj₀ (hne ▸ hcon)
      simp [hfinal] at hf
    · obtain ⟨t₀,ht₀,htoken⟩ := current_of_opens ho hne ht
      rw [← htoken]
      exact h.jobs (awaits_of_opens ho hne hd) ht₀ j hj₀ hcon hf
  | enqueued hi hinsert =>
    rcases (Table.mem_insert hinsert).mp hj with hj₀ | rfl
    · exact h.jobs hd (ht.of_same rfl) j hj₀ hcon hf
    · exact (h.handlers hd (ht.of_same rfl) hi
        (CorrelationId.dialogue.inj (Option.some.inj hcon))).carries _ _
  | lost _ => exact h.jobs hd (ht.of_same rfl) j hj hcon hf

theorem handlers_step (h : s.Prompted) (hn : s.Named) (hs : Steps s u) {d : DialogState}
    {t : InteractionToken} (hd : u.Awaits d) (ht : u.Current d t) {k : ℕ} {prompt' : Prompt}
    (hk : u.handlers k = some prompt') (hid : prompt'.dialogueId = d.id) :
    prompt'.Offers t.token := by
  cases hs with
  | quiet hq _ _ =>
    obtain ⟨d₀,hw,hkey,_,hv⟩ := awaits_of_quiet hq hd.1 hd.2
    obtain ⟨t₀,ht₀,htoken⟩ := current_of_quiet hq hkey hv ht
    rw [← htoken]
    exact h.handlers hw ht₀ hk (hid.trans hkey.symm)
  | @opened _ _ prompt e _ _ _ ho =>
    rcases handlers_of_prompt hk with ⟨_,rfl⟩ | ⟨_,hold⟩
    · have hkey : e.id = d.id := ho.dialogueId.symm.trans hid
      obtain rfl : e = d := by
        have hsel := ho.stored
        rw [hkey] at hsel
        exact Option.some.inj (hsel.symm.trans hd.1)
      exact offers_of_opens ho hn ht
    · by_cases hne : d.id = e.id
      · exact absurd (hid.trans hne) ((h.confirmed ho.opened hn).2 hold)
      · obtain ⟨t₀,ht₀,htoken⟩ := current_of_opens ho hne ht
        rw [← htoken]
        exact h.handlers (awaits_of_opens ho hne hd) ht₀ hold hid
  | enqueued _ _ => exact h.handlers hd (ht.of_same rfl) (handlers_of_update hk).2 hid
  | lost _ => exact h.handlers hd (ht.of_same rfl) (handlers_of_update hk).2 hid

theorem sole_step (h : s.Prompted) (hn : s.Named) (hs : Steps s u) {d : DialogState}
    (hd : u.Awaits d) (hstep : d.step = .preview) {j : OutboundJob}
    (hj : j ∈ u.database.outboundJobs) (hcon : j.Concerns d.id) :
    (∀ k ∈ u.database.outboundJobs, k.Concerns d.id → k = j) ∧
      ∀ {i : ℕ} {prompt : Prompt}, u.handlers i = some prompt → prompt.dialogueId ≠ d.id := by
  cases hs with
  | quiet hq _ _ =>
    obtain ⟨d₀,hw,hkey,hstep₀,_⟩ := awaits_of_quiet hq hd.1 hd.2
    obtain ⟨j₀,hj₀,hm,hcon₀⟩ := job_of_quiet hq hd.1 hd.2 hj hcon
    obtain ⟨hsole,hnone⟩ := h.sole hw (hstep₀.trans hstep) j₀ hj₀ (hkey ▸ hcon₀)
    refine ⟨?_,fun hi => hkey ▸ hnone hi⟩
    intro k hk hkc
    obtain ⟨k₀,hk₀,hmk,hkc₀⟩ := job_of_quiet hq hd.1 hd.2 hk hkc
    obtain rfl := hsole k₀ hk₀ (hkey ▸ hkc₀)
    exact Table.eq_of_key hk hj (hmk.sameWork.id.trans hm.sameWork.id.symm)
  | @opened i _ prompt e _ _ _ ho =>
    have hj₀ : j ∈ s.database.outboundJobs := ho.jobs ▸ hj
    by_cases hne : d.id = e.id
    · obtain rfl : e = d := by
        have hsel := ho.stored
        rw [← hne] at hsel
        exact Option.some.inj (hsel.symm.trans hd.1)
      cases ho.opened with
      | preview _ hnot _ => exact absurd (hn.jobs j hj₀ _ hcon) hnot
      | confirmation _ _ _ _ _ hconfirming _ _ _ _ _ => simp [hconfirming] at hstep
    · obtain ⟨hsole,hnone⟩ := h.sole (awaits_of_opens ho hne hd) hstep j hj₀ hcon
      refine ⟨fun k hk hkc => hsole k (ho.jobs ▸ hk) hkc,?_⟩
      intro k prompt' hk hid
      rcases handlers_of_prompt hk with ⟨_,rfl⟩ | ⟨_,hold⟩
      · exact hne (hid.symm.trans ho.dialogueId)
      · exact hnone hold hid
  | @enqueued i prompt jobId now jobs hi hinsert =>
    have hfirst (hid : prompt.dialogueId = d.id) (k : OutboundJob)
        (hk : k ∈ s.database.outboundJobs) (hkc : k.Concerns d.id) : False :=
      (h.sole hd hstep k hk hkc).2 hi hid
    rcases (Table.mem_insert hinsert).mp hj with hj₀ | rfl
    · obtain ⟨hsole,hnone⟩ := h.sole hd hstep j hj₀ hcon
      refine ⟨?_,fun hk => hnone (handlers_of_update hk).2⟩
      intro k hk hkc
      rcases (Table.mem_insert hinsert).mp hk with hk₀ | rfl
      · exact hsole k hk₀ hkc
      · exact absurd (CorrelationId.dialogue.inj (Option.some.inj hkc)) (hnone hi)
    · have hid : prompt.dialogueId = d.id := CorrelationId.dialogue.inj (Option.some.inj hcon)
      constructor
      · intro k hk hkc
        rcases (Table.mem_insert hinsert).mp hk with hk₀ | rfl
        · exact (hfirst hid k hk₀ hkc).elim
        · rfl
      · intro k prompt' hk hid'
        obtain ⟨hne,hold⟩ := handlers_of_update hk
        exact hne (h.one hd hstep hold hi hid' hid)
  | lost _ =>
    obtain ⟨hsole,hnone⟩ := h.sole hd hstep j hj hcon
    exact ⟨hsole,fun hk => hnone (handlers_of_update hk).2⟩

theorem one_step (h : s.Prompted) (hn : s.Named) (hs : Steps s u) {d : DialogState}
    (hd : u.Awaits d) (hstep : d.step = .preview) {i k : ℕ} {prompt prompt' : Prompt}
    (hi : u.handlers i = some prompt) (hk : u.handlers k = some prompt')
    (hid : prompt.dialogueId = d.id) (hid' : prompt'.dialogueId = d.id) : i = k := by
  cases hs with
  | quiet hq _ _ =>
    obtain ⟨d₀,hw,hkey,hstep₀,_⟩ := awaits_of_quiet hq hd.1 hd.2
    exact h.one hw (hstep₀.trans hstep) hi hk (hid.trans hkey.symm) (hid'.trans hkey.symm)
  | @opened _ _ _ e _ _ _ ho =>
    have hnone := @(h.confirmed ho.opened hn).2
    rcases handlers_of_prompt hi with ⟨rfl,rfl⟩ | ⟨_,hold⟩
    · rcases handlers_of_prompt hk with ⟨rfl,_⟩ | ⟨_,hold'⟩
      · rfl
      · exact absurd (hid'.trans (hid.symm.trans ho.dialogueId)) (hnone hold')
    · rcases handlers_of_prompt hk with ⟨rfl,rfl⟩ | ⟨_,hold'⟩
      · exact absurd (hid.trans (hid'.symm.trans ho.dialogueId)) (hnone hold)
      · by_cases hne : d.id = e.id
        · exact absurd (hid.trans hne) (hnone hold)
        · exact h.one (awaits_of_opens ho hne hd) hstep hold hold' hid hid'
  | enqueued _ _ =>
    exact h.one hd hstep (handlers_of_update hi).2 (handlers_of_update hk).2 hid hid'
  | lost _ => exact h.one hd hstep (handlers_of_update hi).2 (handlers_of_update hk).2 hid hid'

theorem shows_kept {F : OutboundJob → Prop} {j : OutboundJob} {messageId : ℤ}
    {t t' : InteractionToken} (h : s.Shows j messageId t)
    (hj : Table.Evolves OutboundJob.Moves F s.database.outboundJobs u.database.outboundJobs)
    (hw : ∀ event ∈ s.dispatcher.wire, event ∈ u.dispatcher.wire)
    (hsame : Call.SameAuthority t t') : u.Shows j messageId t' where
  stored := by
    obtain ⟨k,hk,hm⟩ := hj.kept h.stored
    obtain rfl := hm.of_final (by rw [h.sent]; rfl)
    exact hk
  sent := h.sent
  acknowledged := h.acknowledged
  concerns := by
    obtain ⟨dialogueId,hid,hcon⟩ := h.concerns
    exact ⟨dialogueId,hsame.dialogueId.trans hid,hcon⟩
  carries := by
    rw [hsame.token]
    exact h.carries
  answered := by
    obtain ⟨job,action,hid,hm⟩ := h.answered
    exact ⟨job,action,hid,hw _ hm⟩

theorem carries_of_stamps (h : s.Prompted) {db : Database} {messageId : ℤ} {j : OutboundJob}
    {d : DialogState} {t : InteractionToken} (ht : t ∈ s.database.interactionTokens)
    (hsurface : t.surface = .callback) (hs : s.dispatcher.Stamps db messageId j d t) :
    j.Concerns d.id ∧ j.Carries t.token := by
  obtain ⟨i,job,action,now,failures,hi,hid,hcorr⟩ := hs.answered
  obtain ⟨j',hj',hc⟩ := h.answered.correlated hi
  obtain rfl : j = j' := by
    rw [hid] at hj'
    exact Option.some.inj (hs.job.symm.trans hj')
  have hcon : j.Concerns d.id := hc.trans hcorr
  refine ⟨hcon,?_⟩
  refine h.jobs ⟨hs.dialogue,hs.awaiting⟩ ⟨ht,hsurface,hs.token,hs.version⟩ j
    (Table.mem_of_select hs.job) hcon ?_
  rw [hs.sending]
  rfl

theorem shows_of_stamps (h : s.Prompted) {d : Dispatcher} {messageId : ℤ} {j : OutboundJob}
    {e : DialogState} {t t' : InteractionToken} (ht : t ∈ s.database.interactionTokens)
    (hsurface : t.surface = .callback) (hs : s.dispatcher.Stamps d.database messageId j e t)
    (hw : ∀ event ∈ s.dispatcher.wire, event ∈ d.wire) (hsame : Call.SameAuthority t t') :
    Shows {s with dispatcher := d} ((acknowledge messageId).set j) messageId t' where
  stored := hs.sent
  sent := rfl
  acknowledged := rfl
  concerns := ⟨e.id,hsame.dialogueId.trans hs.token,(h.carries_of_stamps ht hsurface hs).1⟩
  carries := by
    rw [hsame.token]
    exact (h.carries_of_stamps ht hsurface hs).2
  answered := by
    obtain ⟨i,job,action,now,failures,hi,hid,_⟩ := hs.answered
    exact ⟨job,action,hid,hw _ (h.answered.answered hi)⟩

theorem shown_step (h : s.Prompted) (hs : Steps s u) {t' : InteractionToken}
    (ht' : t' ∈ u.database.interactionTokens) (hsurface : t'.surface = .callback) {messageId : ℤ}
    (hm : t'.expectedMessageId = some messageId) : ∃ j, u.Shows j messageId t' := by
  have hrefl {jobs : Table OutboundJob} : Table.Evolves OutboundJob.Moves (fun _ => True) jobs jobs :=
    .refl fun _ => .stays
  cases hs with
  | @quiet d hq _ hw =>
    obtain ⟨t,ht,hsame,hmessage⟩ := hq.tokens t' ht' hsurface
    have hts : t.surface = .callback := hsame.surface ▸ hsurface
    rcases hmessage with hkept | ⟨messageId',j,e,hstamps,hstamped⟩
    · obtain ⟨j,hj⟩ := h.shown t ht hts (hkept ▸ hm)
      exact ⟨j,shows_kept hj hq.jobs hw hsame⟩
    · obtain rfl : messageId' = messageId := Option.some.inj (hstamped.symm.trans hm)
      exact ⟨_,h.shows_of_stamps ht hts hstamps hw hsame⟩
  | opened _ ho =>
    rcases ho.tokens t' ht' hsurface with ⟨t,ht,hsame,hkept⟩ | ⟨_,_,hnone,_⟩
    · obtain ⟨j,hj⟩ := h.shown t ht (hsame.surface ▸ hsurface) (hkept ▸ hm)
      refine ⟨j,shows_kept (F := fun _ => True) hj ?_ (fun _ he => he) hsame⟩
      show Table.Evolves OutboundJob.Moves _ s.database.outboundJobs _
      rw [← ho.jobs]
      exact hrefl
    · simp [hnone] at hm
  | enqueued _ hinsert =>
    obtain ⟨j,hj⟩ := h.shown t' ht' hsurface hm
    exact ⟨j,shows_kept hj (hrefl.insert hinsert trivial) (fun _ he => he) (.refl t')⟩
  | lost _ =>
    obtain ⟨j,hj⟩ := h.shown t' ht' hsurface hm
    exact ⟨j,shows_kept hj hrefl (fun _ he => he) (.refl t')⟩

theorem answered_step (h : s.Prompted) (hs : Steps s u) : u.dispatcher.Answered := by
  have hrefl : Table.Evolves OutboundJob.Moves (fun _ => True) s.database.outboundJobs
      s.database.outboundJobs := .refl fun _ => .stays
  cases hs with
  | quiet _ ha _ => exact ha h.answered
  | opened _ ho =>
    refine h.answered.of_jobs (F := fun _ => True) ?_
    rw [ho.jobs]
    exact hrefl
  | enqueued _ hinsert => exact h.answered.of_jobs (hrefl.insert hinsert trivial)
  | lost _ => exact h.answered

theorem step (h : s.Prompted) (hn : s.Named) (hs : Steps s u) : u.Prompted where
  answered := h.answered_step hs
  jobs hd ht _ hj hcon hf := h.jobs_step hn hs hd ht hj hcon hf
  handlers hd ht _ _ hk hid := h.handlers_step hn hs hd ht hk hid
  sole hd hstep _ hj hcon := h.sole_step hn hs hd hstep hj hcon
  one hd hstep _ _ _ _ hi hk hid hid' := h.one_step hn hs hd hstep hi hk hid hid'
  shown _ ht' hsurface _ hm := h.shown_step hs ht' hsurface hm

theorem initial : Prompted initial where
  answered := Dispatcher.Answered.initial
  jobs _ _ j hj := absurd hj List.not_mem_nil
  handlers _ _ _ _ hi := by simp [Webhook.initial] at hi
  sole _ _ j hj := absurd hj List.not_mem_nil
  one _ _ _ _ _ _ hi := by simp [Webhook.initial] at hi
  shown t ht := absurd ht List.not_mem_nil

end Prompted

section Runs

variable {limits : SenderLimits} {s u w : Webhook} {tr ts : List WebhookAction} {a : WebhookAction}

theorem runs_prompted (h : Runs limits tr s) : s.Named ∧ s.Prompted := by
  refine h.invariant (P := fun v => v.Named ∧ v.Prompted) ⟨Named.initial,Prompted.initial⟩ ?_
  rintro v b x ⟨hn,hp⟩ hb
  have hs := steps_of_step hb
  exact ⟨hn.step hs,hp.step hn hs⟩

/-- The job is settled as soon as the dialogue waits at another version than that one. -/
def Outlived (jobId : Uuid) (correlationId : Option CorrelationId) (dialogueId : Uuid)
    (version : ℤ) (s : Webhook) : Prop :=
  ∃ k, s.database.outboundJobs.select jobId = some k ∧ k.correlationId = correlationId ∧
    ∀ d, s.Awaits d → d.id = dialogueId → d.version ≠ version → k.Concerns dialogueId →
    k.state.isFinal = true

theorem Outlived.step {jobId dialogueId : Uuid} {correlationId : Option CorrelationId} {version : ℤ}
    (h : s.Outlived jobId correlationId dialogueId version) (hn : s.Named) (hp : s.Prompted)
    (hs : Steps s u) : u.Outlived jobId correlationId dialogueId version := by
  obtain ⟨k,hk,hcorr,hsettled⟩ := h
  cases hs with
  | quiet hq _ _ =>
    obtain ⟨k',hk',hm⟩ := hq.jobs.kept hk
    refine ⟨k',hk',hm.sameWork.correlationId.trans hcorr,?_⟩
    intro d hd hid hne hcon
    obtain ⟨d₀,hw,hkey,_,hv⟩ := awaits_of_quiet hq hd.1 hd.2
    have hfinal := hsettled d₀ hw (hkey.trans hid) (fun he => hne (hv ▸ he))
      ((hm.concerns dialogueId).mp hcon)
    rw [hm.of_final hfinal]
    exact hfinal
  | @opened _ _ _ e _ _ _ ho =>
    have hstored := hk
    rw [← ho.jobs] at hstored
    refine ⟨k,hstored,hcorr,?_⟩
    intro d hd hid hne hcon
    by_cases hde : d.id = e.id
    · refine (hp.confirmed ho.opened hn).1 k (Table.mem_of_select hk) ?_
      rw [← hde,hid]
      exact hcon
    · exact hsettled d (awaits_of_opens ho hde hd) hid hne hcon
  | enqueued _ hinsert =>
    exact ⟨k,Table.select_insert_of_some hinsert hk,hcorr,hsettled⟩
  | lost _ => exact ⟨k,hk,hcorr,hsettled⟩

/-- A job in the queue while its dialogue stands at a version stamps at that version only. -/
theorem stamps_at_version (h : Runs limits tr s)
    (hr : Run (fun v b x => step limits v b = some x) s ts u) {db : Database} {messageId : ℤ}
    {j earlier : OutboundJob} {d e : DialogState} {t : InteractionToken}
    (hs : u.dispatcher.Stamps db messageId j d t) (hcon : j.Concerns d.id)
    (hearlier : s.database.outboundJobs.select j.id = some earlier)
    (he : s.database.dialogStates.select d.id = some e) : e.version = d.version := by
  by_contra hne
  have hkey : e.id = d.id := Table.key_of_select he
  have hstart : s.Outlived j.id earlier.correlationId d.id e.version := by
    refine ⟨earlier,hearlier,rfl,?_⟩
    intro e' he' hid hv _
    have hsel := he'.1
    rw [hid,he] at hsel
    obtain rfl := Option.some.inj hsel
    exact absurd rfl hv
  obtain ⟨hn,hp⟩ := runs_prompted h
  have hend : u.Named ∧ u.Prompted ∧ u.Outlived j.id earlier.correlationId d.id e.version := by
    refine hr.invariant (P := fun v => v.Named ∧ v.Prompted ∧
      v.Outlived j.id earlier.correlationId d.id e.version) ⟨hn,hp,hstart⟩ ?_
    rintro v b x ⟨hvn,hvp,hvo⟩ hb
    have hstep := steps_of_step hb
    exact ⟨hvn.step hstep,hvp.step hvn hstep,hvo.step hvn hvp hstep⟩
  obtain ⟨k,hk,_,hsettled⟩ := hend.2.2
  obtain rfl : j = k := Option.some.inj (hs.job.symm.trans hk)
  have hfinal := hsettled d ⟨hs.dialogue,hs.awaiting⟩ rfl (fun hv => hne hv.symm) hcon
  rw [hs.sending] at hfinal
  simp [OutboundJobState.isFinal] at hfinal

/-- In every reachable state the message of a callback token is one the provider returned for an
acknowledged job whose keyboard carries the token. A step writes it only while it records that
answer, at the version of the dialogue, and a job that was in the queue when the dialogue stood at
an earlier version stamps no more. -/
theorem callback_stamped_by_its_message (h : Runs limits tr s) :
    (∀ t ∈ s.database.interactionTokens, t.surface = .callback → ∀ messageId,
      t.expectedMessageId = some messageId → ∃ j, s.Shows j messageId t) ∧
    ∀ {ts : List WebhookAction} {u w : Webhook} {a : WebhookAction},
      Run (fun v b x => step limits v b = some x) s ts u → step limits u a = some w →
      ∀ t' ∈ w.database.interactionTokens, t'.surface = .callback → ∀ messageId,
      t'.expectedMessageId = some messageId →
      ∃ t ∈ u.database.interactionTokens, t.token = t'.token ∧
        (t.expectedMessageId = some messageId ∨ ∃ j d,
          u.dispatcher.Stamps w.database messageId j d t ∧ j.Carries t.token ∧
          ∀ e, s.database.dialogStates.select d.id = some e →
            s.database.outboundJobs.select j.id ≠ none → e.version = d.version) := by
  refine ⟨fun t ht hsurface messageId hm => (runs_prompted h).2.shown t ht hsurface hm,?_⟩
  intro ts u w a hr ha t' ht' hsurface messageId hm
  obtain ⟨hn,hp⟩ := runs_prompted (h.trans hr)
  cases steps_of_step ha with
  | quiet hq _ _ =>
    obtain ⟨t,ht,hsame,hmessage⟩ := hq.tokens t' ht' hsurface
    refine ⟨t,ht,hsame.token.symm,?_⟩
    rcases hmessage with hkept | ⟨messageId',j,d,hstamps,hstamped⟩
    · exact Or.inl (hkept ▸ hm)
    · obtain rfl : messageId' = messageId := Option.some.inj (hstamped.symm.trans hm)
      obtain ⟨hcon,hcarries⟩ := hp.carries_of_stamps ht (hsame.surface ▸ hsurface) hstamps
      refine Or.inr ⟨j,d,hstamps,hcarries,?_⟩
      intro e he hqueued
      obtain ⟨earlier,hearlier⟩ := Option.ne_none_iff_exists'.mp hqueued
      exact stamps_at_version h hr hstamps hcon hearlier he
  | opened _ ho =>
    rcases ho.tokens t' ht' hsurface with ⟨t,ht,hsame,hkept⟩ | ⟨_,_,hnone,_⟩
    · exact ⟨t,ht,hsame.token.symm,Or.inl (hkept ▸ hm)⟩
    · simp [hnone] at hm
  | enqueued _ _ => exact ⟨t',ht',rfl,Or.inl hm⟩
  | lost _ => exact ⟨t',ht',rfl,Or.inl hm⟩

end Runs

namespace Buttons

/-- The owner presses the button, and the provider answers the confirmation as message 6. -/
def confirming : List WebhookAction :=
  [WebhookAction.dispatch (.tick 1),.select 1 pressed confirmToken cancelToken 1,
    .enqueue 1 11 1] ++ delivering 6

def Records (messageId : ℤ) (token : Token) (s : Webhook) : Prop :=
  (step limits s (.dispatch (.record 0 51))).any (fun w =>
    ∃ t ∈ w.database.interactionTokens.select token,
      t.surface = .callback ∧ t.expectedMessageId = some messageId) = true

instance (messageId : ℤ) (token : Token) : DecidablePred (Records messageId token) := fun s => by
  delta Records
  infer_instance

theorem confirmation_stamped : ∃ s u, Runs limits shown s ∧
    (∃ t ∈ s.database.interactionTokens, t.token = starToken ∧ ∃ j, s.Shows j 5 t) ∧
    Run (fun v b x => step limits v b = some x) s confirming u ∧
    ∃ t ∈ u.database.interactionTokens, ∃ j : OutboundJob, ∃ d : DialogState,
      t.token = confirmToken ∧ j.Carries t.token ∧ t.expectedDialogueVersion = some d.version := by
  obtain ⟨s,hs,⟨t,ht,hsurface,hm⟩,hrest⟩ : ∃ s, Runs limits shown s ∧
      (∃ t ∈ s.database.interactionTokens.select starToken, t.surface = .callback ∧
        t.expectedMessageId = some 5) ∧
      (replay (step limits) s confirming).any (fun u => Records 6 confirmToken u ∧
        ∀ t ∈ u.database.interactionTokens.select confirmToken, t.expectedMessageId = none) =
        true :=
    exists_run_of_replay (by decide +kernel)
  obtain ⟨u,hu,hrecords,hfresh⟩ := exists_run_of_replay hrest
  obtain ⟨w,hw,hp⟩ := (Option.any_eq_true _ _).mp hrecords
  obtain ⟨t',ht',hsurface',hm'⟩ := of_decide_eq_true hp
  obtain ⟨hshown,hstamps⟩ := callback_stamped_by_its_message hs
  refine ⟨s,u,hs,⟨t,Table.mem_of_select ht,Table.key_of_select ht,
    hshown t (Table.mem_of_select ht) hsurface 5 hm⟩,hu,?_⟩
  obtain ⟨t₀,ht₀,htoken,hold | ⟨j,d,hstamp,hcarries,_⟩⟩ :=
    hstamps hu hw t' (Table.mem_of_select ht') hsurface' 6 hm'
  · have hsel : u.database.interactionTokens.select confirmToken = some t₀ := by
      have hkey : t'.token = confirmToken := Table.key_of_select ht'
      rw [← hkey,← htoken]
      exact Table.select_of_mem ht₀
    simp [hfresh t₀ hsel] at hold
  · refine ⟨t₀,ht₀,j,d,?_,hcarries,hstamp.version⟩
    exact htoken.trans (Table.key_of_select ht')

end Buttons

end Webhook

end RatatoskrTelegram
