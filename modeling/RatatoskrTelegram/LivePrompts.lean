import RatatoskrTelegram.WebhookSteps

/-!
# A live token and its prompt

A token that a transition mints is with the prompt that offers it until the
prompt is enqueued: in the handler, in the queue, or lost with the handler. The
three exclude one another as long as the dialogue is active.
-/

namespace RatatoskrTelegram

namespace Webhook

/-- An unconsumed, unexpired callback token of an active dialogue. -/
structure Live (s : Webhook) (now : ℤ) (t : InteractionToken) : Prop where
  stored : t ∈ s.database.interactionTokens
  surface : t.surface = .callback
  unconsumed : t.consumedAt = none
  unexpired : now < t.expiresAt
  dialogue : ∃ d, t.dialogueId = some d.id ∧ s.database.dialogStates.select d.id = some d ∧
    d.lifecycle = .active

def Queued (s : Webhook) (t : InteractionToken) : Prop :=
  ∃ j ∈ s.database.outboundJobs, ∃ dialogueId, t.dialogueId = some dialogueId ∧
    j.Concerns dialogueId ∧ j.Carries t.token

/-- The prompt stands between its transition and its enqueueing, or was stopped there. -/
def Holds (s : Webhook) (prompt : Prompt) : Prop :=
  (∃ i, s.handlers i = some prompt) ∨ prompt ∈ s.lost

def Pending (s : Webhook) (t : InteractionToken) : Prop :=
  ∃ prompt, s.Holds prompt ∧ t.dialogueId = some prompt.dialogueId ∧ prompt.Offers t.token

/-- Every live token is carried by the keyboard of a job. -/
def PromptsQueued (s : Webhook) : Prop :=
  ∀ now t, s.Live now t → s.Queued t

/-- Every callback token is in the queue or pending, and what is pending is not in the queue. -/
structure Placed (s : Webhook) : Prop where
  placed : ∀ t ∈ s.database.interactionTokens, t.surface = .callback → s.Queued t ∨ s.Pending t
  minted : ∀ {prompt : Prompt}, s.Holds prompt → ∀ {token : Token}, prompt.Offers token →
    token ∈ s.tokens
  handlers : ∀ {i k : ℕ} {prompt prompt' : Prompt} {token : Token}, s.handlers i = some prompt →
    s.handlers k = some prompt' → prompt.Offers token → prompt'.Offers token → i = k
  lost : ∀ {i : ℕ} {prompt prompt' : Prompt} {token : Token}, s.handlers i = some prompt →
    prompt' ∈ s.lost → prompt.Offers token → ¬ prompt'.Offers token
  carried : ∀ {d : DialogState}, s.database.dialogStates.select d.id = some d →
    d.lifecycle = .active → ∀ j ∈ s.database.outboundJobs, j.Concerns d.id →
    ∀ {token : Token}, j.Carries token → token ∈ s.tokens ∧
      ∀ {prompt : Prompt}, s.Holds prompt → prompt.dialogueId = d.id → ¬ prompt.Offers token

theorem Placed.initial : Placed initial where
  placed t ht := absurd ht List.not_mem_nil
  minted h := by
    rcases h with ⟨i,hi⟩ | hl
    · simp [Webhook.initial] at hi
    · exact absurd hl List.not_mem_nil
  handlers hi := by simp [Webhook.initial] at hi
  lost hi := by simp [Webhook.initial] at hi
  carried _ _ j hj := absurd hj List.not_mem_nil

section Steps

variable {s u : Webhook}

theorem Queued.kept {F : OutboundJob → Prop} {t t' : InteractionToken} (h : s.Queued t)
    (hj : Table.Evolves OutboundJob.Moves F s.database.outboundJobs u.database.outboundJobs)
    (hsame : Call.SameAuthority t t') : u.Queued t' := by
  obtain ⟨j,hmem,dialogueId,hid,hcon,hcarries⟩ := h
  obtain ⟨k,hk,hm⟩ := hj.kept (Table.select_of_mem hmem)
  refine ⟨k,Table.mem_of_select hk,dialogueId,hsame.dialogueId.trans hid,
    (hm.concerns dialogueId).mpr hcon,?_⟩
  rw [hm.carries,hsame.token]
  exact hcarries

theorem Pending.kept {t t' : InteractionToken} (h : s.Pending t)
    (hh : ∀ {prompt : Prompt}, s.Holds prompt → u.Holds prompt) (hsame : Call.SameAuthority t t') :
    u.Pending t' := by
  obtain ⟨prompt,hholds,hid,hoffers⟩ := h
  refine ⟨prompt,hh hholds,hsame.dialogueId.trans hid,?_⟩
  rw [hsame.token]
  exact hoffers

theorem holds_of_opened {i : ℕ} {db : Database} {prompt prompt' : Prompt} {dialogues : List Uuid}
    {minted : List Token} (hi : s.handlers i = none) :
    (s.transit i db (some prompt) dialogues minted).Holds prompt' ↔
      prompt' = prompt ∨ s.Holds prompt' := by
  constructor
  · rintro (⟨k,hk⟩ | hl)
    · rcases handlers_of_prompt hk with ⟨_,he⟩ | ⟨_,hold⟩
      · exact Or.inl he
      · exact Or.inr (Or.inl ⟨k,hold⟩)
    · exact Or.inr (Or.inr hl)
  · rintro (rfl | ⟨k,hk⟩ | hl)
    · exact Or.inl ⟨i,Function.update_self i _ _⟩
    · refine Or.inl ⟨k,?_⟩
      have hki : k ≠ i := by
        rintro rfl
        simp [hi] at hk
      exact (Function.update_of_ne hki _ _).trans hk
    · exact Or.inr hl

theorem holds_of_released {i : ℕ} {db : Database} {prompt' : Prompt} {dialogues : List Uuid}
    {minted : List Token} (h : (s.transit i db none dialogues minted).Holds prompt') :
    (∃ k, k ≠ i ∧ s.handlers k = some prompt') ∨ prompt' ∈ s.lost := by
  rcases h with ⟨k,hk⟩ | hl
  · exact Or.inl ⟨k,handlers_of_update hk⟩
  · exact Or.inr hl

theorem holds_of_lost {i : ℕ} {prompt prompt' : Prompt} (hi : s.handlers i = some prompt) :
    (s.lose i prompt).Holds prompt' ↔ s.Holds prompt' := by
  constructor
  · rintro (⟨k,hk⟩ | hl)
    · exact Or.inl ⟨k,(handlers_of_update hk).2⟩
    · rcases List.mem_cons.mp hl with rfl | hl
      · exact Or.inl ⟨i,hi⟩
      · exact Or.inr hl
  · rintro (⟨k,hk⟩ | hl)
    · by_cases hki : k = i
      · subst hki
        obtain rfl := Option.some.inj (hi.symm.trans hk)
        exact Or.inr List.mem_cons_self
      · exact Or.inl ⟨k,(Function.update_of_ne hki _ _).trans hk⟩
    · exact Or.inr (List.mem_cons_of_mem _ hl)

namespace Placed

theorem placed_step (h : s.Placed) (hs : Steps s u) {t' : InteractionToken}
    (ht' : t' ∈ u.database.interactionTokens) (hsurface : t'.surface = .callback) :
    u.Queued t' ∨ u.Pending t' := by
  have hrefl : Table.Evolves OutboundJob.Moves (fun _ => True) s.database.outboundJobs
      s.database.outboundJobs := .refl fun _ => .stays
  cases hs with
  | quiet hq _ _ =>
    obtain ⟨t,ht,hsame,_⟩ := hq.tokens t' ht' hsurface
    rcases h.placed t ht (hsame.surface ▸ hsurface) with hqueued | hpending
    · exact Or.inl (hqueued.kept hq.jobs hsame)
    · exact Or.inr (hpending.kept (fun hh => hh) hsame)
  | @opened i db prompt e _ _ hi ho =>
    rcases ho.tokens t' ht' hsurface with ⟨t,ht,hsame,_⟩ | ⟨hid,_,_,hoffers⟩
    · rcases h.placed t ht (hsame.surface ▸ hsurface) with hqueued | hpending
      · refine Or.inl (hqueued.kept (F := fun _ => True) ?_ hsame)
        show Table.Evolves OutboundJob.Moves _ s.database.outboundJobs db.outboundJobs
        rw [ho.jobs]
        exact hrefl
      · exact Or.inr (hpending.kept (fun hh => (holds_of_opened hi).mpr (Or.inr hh)) hsame)
    · refine Or.inr ⟨prompt,(holds_of_opened hi).mpr (Or.inl rfl),?_,hoffers⟩
      rw [ho.dialogueId]
      exact hid
  | @enqueued i prompt jobId now jobs hi hinsert =>
    rcases h.placed t' ht' hsurface with hqueued | ⟨prompt',hholds,hid,hoffers⟩
    · exact Or.inl (hqueued.kept (hrefl.insert hinsert trivial) (.refl t'))
    · have hnew : prompt' = prompt → (s.transit i {s.database with outboundJobs := jobs} none []
          []).Queued t' := by
        rintro rfl
        exact ⟨prompt'.job.row jobId now,(Table.mem_insert hinsert).mpr (Or.inr rfl),
          prompt'.dialogueId,hid,rfl,hoffers.carries _ _⟩
      rcases hholds with ⟨k,hk⟩ | hl
      · by_cases hki : k = i
        · subst hki
          exact Or.inl (hnew (Option.some.inj (hk.symm.trans hi)))
        · exact Or.inr ⟨prompt',Or.inl ⟨k,(Function.update_of_ne hki _ _).trans hk⟩,hid,hoffers⟩
      · exact Or.inr ⟨prompt',Or.inr hl,hid,hoffers⟩
  | lost hi =>
    rcases h.placed t' ht' hsurface with hqueued | hpending
    · exact Or.inl (hqueued.kept hrefl (.refl t'))
    · exact Or.inr (hpending.kept (fun hh => (holds_of_lost hi).mpr hh) (.refl t'))

theorem minted_step (h : s.Placed) (hs : Steps s u) {prompt' : Prompt} (hholds : u.Holds prompt')
    {token : Token} (hoffers : prompt'.Offers token) : token ∈ u.tokens := by
  cases hs with
  | quiet _ _ _ => exact h.minted hholds hoffers
  | opened hi ho =>
    rcases (holds_of_opened hi).mp hholds with rfl | hold
    · exact List.mem_append_left _ (ho.fresh token hoffers).2
    · exact List.mem_append_right _ (h.minted hold hoffers)
  | enqueued _ _ =>
    rcases holds_of_released hholds with ⟨k,_,hk⟩ | hl
    · exact h.minted (Or.inl ⟨k,hk⟩) hoffers
    · exact h.minted (Or.inr hl) hoffers
  | lost hi => exact h.minted ((holds_of_lost hi).mp hholds) hoffers

theorem handlers_step (h : s.Placed) (hs : Steps s u) {i k : ℕ} {prompt prompt' : Prompt}
    {token : Token} (hi : u.handlers i = some prompt) (hk : u.handlers k = some prompt')
    (ho : prompt.Offers token) (ho' : prompt'.Offers token) : i = k := by
  cases hs with
  | quiet _ _ _ => exact h.handlers hi hk ho ho'
  | opened _ hopens =>
    rcases handlers_of_prompt hi with ⟨rfl,rfl⟩ | ⟨_,hold⟩
    · rcases handlers_of_prompt hk with ⟨rfl,_⟩ | ⟨_,hold'⟩
      · rfl
      · exact absurd (h.minted (Or.inl ⟨k,hold'⟩) ho') (hopens.fresh token ho).1
    · rcases handlers_of_prompt hk with ⟨rfl,rfl⟩ | ⟨_,hold'⟩
      · exact absurd (h.minted (Or.inl ⟨i,hold⟩) ho) (hopens.fresh token ho').1
      · exact h.handlers hold hold' ho ho'
  | enqueued _ _ => exact h.handlers (handlers_of_update hi).2 (handlers_of_update hk).2 ho ho'
  | lost _ => exact h.handlers (handlers_of_update hi).2 (handlers_of_update hk).2 ho ho'

theorem lost_step (h : s.Placed) (hs : Steps s u) {k : ℕ} {prompt prompt' : Prompt} {token : Token}
    (hk : u.handlers k = some prompt) (hl : prompt' ∈ u.lost) (ho : prompt.Offers token)
    (ho' : prompt'.Offers token) : False := by
  cases hs with
  | quiet _ _ _ => exact h.lost hk hl ho ho'
  | opened _ hopens =>
    rcases handlers_of_prompt hk with ⟨_,rfl⟩ | ⟨_,hold⟩
    · exact (hopens.fresh token ho).1 (h.minted (Or.inr hl) ho')
    · exact h.lost hold hl ho ho'
  | enqueued _ _ => exact h.lost (handlers_of_update hk).2 hl ho ho'
  | lost hi =>
    obtain ⟨hne,hold⟩ := handlers_of_update hk
    rcases List.mem_cons.mp hl with rfl | hl
    · exact hne (h.handlers hold hi ho ho')
    · exact h.lost hold hl ho ho'

theorem carried_step (h : s.Placed) (hn : s.Named) (hs : Steps s u) {d : DialogState}
    (hd : u.database.dialogStates.select d.id = some d) (ha : d.lifecycle = .active)
    {j : OutboundJob} (hj : j ∈ u.database.outboundJobs) (hcon : j.Concerns d.id) {token : Token}
    (hcarries : j.Carries token) : token ∈ u.tokens ∧
      ∀ {prompt : Prompt}, u.Holds prompt → prompt.dialogueId = d.id → ¬ prompt.Offers token := by
  cases hs with
  | quiet hq _ _ =>
    rcases hq.dialogues d.id d hd with ⟨d₀,hd₀,hk⟩ | ⟨_,hf⟩
    · rcases hq.jobs.origin (Table.select_of_mem hj) with ⟨j₀,hj₀,hm⟩ | ⟨_,hf⟩
      · have hid : d₀.id = d.id := Table.key_of_select hd₀
        rw [← hid] at hd₀ hcon ⊢
        exact h.carried hd₀ (hk.active ha) j₀ (Table.mem_of_select hj₀)
          ((hm.concerns d₀.id).mp hcon) ((hm.carries token).mp hcarries)
      · exact absurd ha ((hf d.id hcon).2 d hd)
    · exact hf.elim
  | @opened i db prompt e _ _ hi ho =>
    have hj₀ : j ∈ s.database.outboundJobs := ho.jobs ▸ hj
    obtain ⟨d₀,hd₀,ha₀⟩ : ∃ d₀, s.database.dialogStates.select d.id = some d₀ ∧
        d₀.lifecycle = .active := by
      by_cases hne : d.id = e.id
      · rw [hne] at hcon ⊢
        cases ho.opened with
        | preview _ hnot _ => exact absurd (hn.jobs j hj₀ _ hcon) hnot
        | confirmation hd₀ ha₀ _ _ _ _ _ _ _ _ _ => exact ⟨_,hd₀,ha₀⟩
      · exact ⟨d,(ho.others d.id hne).symm.trans hd,ha⟩
    have hid : d₀.id = d.id := Table.key_of_select hd₀
    rw [← hid] at hd₀ hcon
    obtain ⟨hm,hheld⟩ := h.carried hd₀ ha₀ j hj₀ hcon hcarries
    refine ⟨List.mem_append_right _ hm,?_⟩
    intro prompt' hholds hpid hoffers
    rcases (holds_of_opened hi).mp hholds with rfl | hold
    · exact (ho.fresh token hoffers).1 hm
    · exact hheld hold (hpid.trans hid.symm) hoffers
  | @enqueued i prompt jobId now jobs hi hinsert =>
    rcases (Table.mem_insert hinsert).mp hj with hj₀ | rfl
    · obtain ⟨hm,hheld⟩ := h.carried hd ha j hj₀ hcon hcarries
      refine ⟨hm,?_⟩
      intro prompt' hholds
      rcases holds_of_released hholds with ⟨k,_,hk⟩ | hl
      · exact hheld (Or.inl ⟨k,hk⟩)
      · exact hheld (Or.inr hl)
    · have hoffered := (Prompt.job_carries_iff jobId now).mp hcarries
      refine ⟨h.minted (Or.inl ⟨i,hi⟩) hoffered,?_⟩
      intro prompt' hholds _ hoffers
      rcases holds_of_released hholds with ⟨k,hne,hk⟩ | hl
      · exact hne (h.handlers hk hi hoffers hoffered)
      · exact h.lost hi hl hoffered hoffers
  | lost hi =>
    obtain ⟨hm,hheld⟩ := h.carried hd ha j hj hcon hcarries
    exact ⟨hm,fun hholds => hheld ((holds_of_lost hi).mp hholds)⟩

theorem step (h : s.Placed) (hn : s.Named) (hs : Steps s u) : u.Placed where
  placed _ ht' hsurface := h.placed_step hs ht' hsurface
  minted hholds _ hoffers := h.minted_step hs hholds hoffers
  handlers hi hk ho ho' := h.handlers_step hs hi hk ho ho'
  lost hk hl ho ho' := h.lost_step hs hk hl ho ho'
  carried hd ha _ hj hcon _ hcarries := h.carried_step hn hs hd ha hj hcon hcarries

end Placed

end Steps

section Runs

variable {limits : SenderLimits} {s u : Webhook} {tr : List WebhookAction}

theorem runs_placed (h : Runs limits tr s) : s.Placed := by
  have hinv : s.Named ∧ s.Placed := by
    refine h.invariant (P := fun v => v.Named ∧ v.Placed) ⟨Named.initial,Placed.initial⟩ ?_
    rintro v b x ⟨hn,hp⟩ hb
    have hs := steps_of_step hb
    exact ⟨hn.step hs,hp.step hn hs⟩
  exact hinv.2

theorem Placed.not_queued (h : s.Placed) {now : ℤ} {t : InteractionToken} (hlive : s.Live now t)
    (hpending : s.Pending t) : ¬ s.Queued t := by
  rintro ⟨j,hj,dialogueId,hid,hcon,hcarries⟩
  obtain ⟨prompt,hholds,hpid,hoffers⟩ := hpending
  obtain ⟨d,hdid,hd,ha⟩ := hlive.dialogue
  obtain rfl : d.id = dialogueId := Option.some.inj (hdid.symm.trans hid)
  have hkey : prompt.dialogueId = d.id := Option.some.inj (hpid.symm.trans hdid)
  exact (h.carried hd ha j hj hcon hcarries).2 hholds hkey hoffers

theorem handlers_frame {a : WebhookAction} {i : ℕ} (h : step limits s a = some u)
    (ha : a.handler ≠ some i) : u.handlers i = s.handlers i := by
  have htransit (k : ℕ) (hk : some k ≠ some i) (prompt : Option Prompt) :
      Function.update s.handlers k prompt i = s.handlers i :=
    Function.update_of_ne (fun he => hk (congrArg some he.symm)) _ _
  cases a with
  | dispatch a =>
    simp only [step] at h
    split at h
    · obtain ⟨d,_,rfl⟩ := Option.map_eq_some_iff.mp h
      rfl
    · simp at h
  | preview k dialogueId scope preview selections now =>
    simp only [step] at h
    split at h
    · split at h
      · obtain rfl := Option.some.inj h
        exact htransit k ha _
      · obtain rfl := Option.some.inj h
        rfl
    · simp at h
  | select k p confirmToken cancelToken now =>
    simp only [step] at h
    split at h
    · split at h
      · obtain rfl := Option.some.inj h
        exact htransit k ha _
      · obtain rfl := Option.some.inj h
        exact htransit k ha _
    · simp at h
  | enqueue k jobId now =>
    simp only [step] at h
    split at h
    · split at h
      · obtain rfl := Option.some.inj h
        exact htransit k ha _
      · obtain rfl := Option.some.inj h
        exact htransit k ha _
    · simp at h
  | drop k =>
    obtain ⟨prompt,_,rfl⟩ := Option.map_eq_some_iff.mp h
    exact htransit k ha _

theorem handlers_idle {i : ℕ} (h : Runs limits tr s) (hi : ∀ a ∈ tr, a.handler ≠ some i) :
    s.handlers i = none := by
  refine h.invariant_of_labels (P := fun v => v.handlers i = none) rfl ?_
  intro v a w ha hv hs
  rw [handlers_frame hs (hi a ha)]
  exact hv

/-- Every live token is carried by a job of its dialogue exactly when no live token is offered by a
prompt whose handler stands between the transition and the enqueueing or was stopped there. -/
theorem live_tokens_queued_iff (h : Runs limits tr s) :
    s.PromptsQueued ↔ ∀ now t, s.Live now t → ¬ s.Pending t := by
  have hplaced := runs_placed h
  constructor
  · intro hqueued now t hlive hpending
    exact hplaced.not_queued hlive hpending (hqueued now t hlive)
  · intro hpending now t hlive
    rcases hplaced.placed t hlive.stored hlive.surface with hqueued | hheld
    · exact hqueued
    · exact absurd hheld (hpending now t hlive)

end Runs

namespace Buttons

def spareTokens : Token × Token :=
  (.filled 'a',.filled 'b')

/-- The handler of the pressed button dies before it enqueues the confirmation, and the update is
replayed. -/
def crashed : List WebhookAction :=
  shown ++ [WebhookAction.dispatch (.tick 1),.select 1 pressed confirmToken cancelToken 1,.drop 1,
    .select 1 pressed spareTokens.1 spareTokens.2 2,
    .dispatch (.produce (.consumeRepositoryDecision pressed 2))]

/-- The replay of the consumed token mints nothing, and the confirmation is in no job. -/
theorem prompt_lost : ¬ ∀ {tr : List WebhookAction} {s : Webhook}, Runs limits tr s →
    s.PromptsQueued := by
  intro h
  obtain ⟨s,hs,⟨t,ht,hsurface,hunconsumed,hlive,hid⟩,⟨d,hd,ha⟩,⟨prompt,hlost,hpid,hoffers⟩⟩ :
      ∃ s, Runs limits crashed s ∧
      (∃ t ∈ s.database.interactionTokens.select confirmToken, t.surface = .callback ∧
        t.consumedAt = none ∧ 2 < t.expiresAt ∧ t.dialogueId = some 1) ∧
      (∃ d ∈ s.database.dialogStates.select 1, d.lifecycle = .active) ∧
      ∃ prompt ∈ s.lost, prompt.dialogueId = 1 ∧ ("Confirm",confirmToken) ∈ prompt.buttons :=
    exists_run_of_replay (by decide +kernel)
  have hkey : d.id = 1 := Table.key_of_select hd
  have htoken : t.token = confirmToken := Table.key_of_select ht
  have hl : s.Live 2 t :=
    ⟨Table.mem_of_select ht,hsurface,hunconsumed,hlive,d,hkey ▸ hid,hkey ▸ hd,ha⟩
  have hpending : s.Pending t :=
    ⟨prompt,Or.inr hlost,hpid ▸ hid,"Confirm",htoken ▸ hoffers⟩
  exact (runs_placed hs).not_queued hl hpending (h hs 2 t hl)

/-- The preview is enqueued, so its token has its prompt. -/
theorem preview_queued : ∃ s, Runs limits shown s ∧ (∃ t, s.Live 1 t) ∧ s.PromptsQueued := by
  obtain ⟨s,hs,⟨t,ht,hsurface,hunconsumed,hlive,hid⟩,⟨d,hd,ha⟩,hlost,hfree⟩ :
      ∃ s, Runs limits shown s ∧
      (∃ t ∈ s.database.interactionTokens.select starToken, t.surface = .callback ∧
        t.consumedAt = none ∧ 1 < t.expiresAt ∧ t.dialogueId = some 1) ∧
      (∃ d ∈ s.database.dialogStates.select 1, d.lifecycle = .active) ∧ s.lost = [] ∧
      s.handlers 0 = none :=
    exists_run_of_replay (by decide +kernel)
  have hkey : d.id = 1 := Table.key_of_select hd
  refine ⟨s,hs,⟨t,Table.mem_of_select ht,hsurface,hunconsumed,hlive,d,hkey ▸ hid,hkey ▸ hd,ha⟩,?_⟩
  refine (live_tokens_queued_iff hs).mpr ?_
  rintro now t' _ ⟨prompt,⟨i,hi⟩ | hl,_⟩
  · by_cases h0 : i = 0
    · subst h0
      simp [hfree] at hi
    · have hidle : s.handlers i = none := by
        refine handlers_idle hs ?_
        have hall : ∀ a ∈ shown, a.handler = none ∨ a.handler = some 0 := by decide
        intro a ha' he
        rcases hall a ha' with hnone | hzero
        · simp [hnone] at he
        · exact h0 (Option.some.inj (he.symm.trans hzero))
      simp [hidle] at hi
  · simp [hlost] at hl

end Buttons

end Webhook

end RatatoskrTelegram
