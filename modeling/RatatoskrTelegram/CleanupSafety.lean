import RatatoskrTelegram.TokenEffects
import RatatoskrTelegram.BindingSteps

/-!
# What a cleanup pass spares

A pass removes spent tokens and retired dialogues. A live token stays, and so
does every deep link the follower of an unfinished operation needs.
-/

namespace RatatoskrTelegram

/-- Neither consumed nor expired, and its dialogue, if it names one, is still waiting for it. -/
structure LiveAuthority (now : ℤ) (db : Database) (t : InteractionToken) : Prop where
  unconsumed : t.consumedAt = none
  live : now < t.expiresAt
  dialogue : ∀ id ∈ t.dialogueId, ∃ d, db.dialogStates.select id = some d ∧ d.lifecycle = .active ∧
    now < d.expiresAt ∧ ∀ v ∈ t.expectedDialogueVersion, d.version = v

def AfterExpiry (now : ℤ) (d d' : DialogState) : Prop :=
  d' = d ∨ Overdue now d ∧ d' = (expireDialogue now).set d

/-- What a pass may remove, and what it leaves alone. -/
structure RemovesOnlyDead (now terminalBefore : ℤ) (db db' : Database) : Prop where
  tokens : ∀ t ∈ db.interactionTokens, LiveAuthority now db t →
    db'.interactionTokens.select t.token = some t
  dialogues : ∀ d ∈ db.dialogStates, db'.dialogStates.select d.id = none →
    ∃ d', AfterExpiry now d d' ∧ (terminalBefore ≤ now → d' = d) ∧ d'.lifecycle ≠ .active ∧
      (∃ terminalAt ∈ d'.terminalAt, terminalAt < terminalBefore) ∧
      ∀ t ∈ db'.interactionTokens, t.dialogueId ≠ some d.id
  bindings : db'.messageBindings = db.messageBindings
  jobs : db'.outboundJobs = db.outboundJobs
  updates : db'.updates = db.updates

section Pass

variable {lockedDialogues : Finset Uuid} {lockedTokens : Finset Token} {now terminalBefore : ℤ}
  {batchSize : ℕ} {db : Database}

def expiredDialogues (lockedDialogues : Finset Uuid) (now : ℤ) (batchSize : ℕ) (db : Database) :
    Table DialogState :=
  db.dialogStates.update (·.id ∈ expiryBatch lockedDialogues now batchSize db.dialogStates)
    (expireDialogue now)

theorem expiredDialogues_select (lockedDialogues : Finset Uuid) (now : ℤ) (batchSize : ℕ)
    {id : Uuid} {d : DialogState} (hd : db.dialogStates.select id = some d) :
    ∃ d', (expiredDialogues lockedDialogues now batchSize db).select id = some d' ∧
      AfterExpiry now d d' := by
  refine ⟨_,by rw [expiredDialogues,Table.select_update,hd]; rfl,?_⟩
  by_cases hm : d.id ∈ expiryBatch lockedDialogues now batchSize db.dialogStates
  · exact Or.inr ⟨((mem_expiryBatch (Table.mem_of_select hd)).mp hm).1,if_pos hm⟩
  · exact Or.inl (if_neg hm)

theorem AfterExpiry.of_live {d d' : DialogState} (h : AfterExpiry now d d')
    (hlive : now < d.expiresAt) : d' = d := by
  rcases h with he | ⟨ho,_⟩
  · exact he
  · exact absurd ho.2 (not_le.mpr hlive)

theorem LiveAuthority.not_removable {t : InteractionToken} (h : LiveAuthority now db t)
    (lockedDialogues : Finset Uuid) (batchSize : ℕ) :
    ¬ Removable (expiredDialogues lockedDialogues now batchSize db) db.messageBindings now t := by
  rintro ⟨hc | he | ⟨id,hid,hgone⟩,_⟩
  · exact hc h.unconsumed
  · exact absurd he (not_le.mpr h.live)
  · obtain ⟨d,hd,hactive,hlive,hversion⟩ := h.dialogue id hid
    obtain ⟨d',hd',hafter⟩ := expiredDialogues_select lockedDialogues now batchSize hd
    obtain rfl := hafter.of_live hlive
    rcases hgone d' hd' with ha | ⟨v,hv,hne⟩
    · exact ha hactive
    · exact hne (hversion v hv)

theorem cleanup_keeps_live {t : InteractionToken} (ht : t ∈ db.interactionTokens)
    (h : LiveAuthority now db t) :
    (cleanupInteractions lockedDialogues lockedTokens now terminalBefore batchSize
      db).2.interactionTokens.select t.token = some t := by
  show (Table.delete _ _).select t.token = some t
  have hs : db.interactionTokens.select t.token = some t := Table.select_of_mem ht
  rw [Table.select_delete,hs,Option.filter_eq_some_iff]
  refine ⟨rfl,?_⟩
  have hkept := h.not_removable lockedDialogues batchSize
  simp only [decide_not,Bool.not_eq_true',decide_eq_false_iff_not]
  intro hm
  exact hkept ((mem_tokenBatch ht).mp hm).1

theorem cleanup_deletes_retired {d : DialogState} (hd : d ∈ db.dialogStates)
    (hn : (cleanupInteractions lockedDialogues lockedTokens now terminalBefore batchSize
      db).2.dialogStates.select d.id = none) :
    ∃ d', AfterExpiry now d d' ∧ Retired (cleanupInteractions lockedDialogues lockedTokens now
      terminalBefore batchSize db).2.interactionTokens terminalBefore d' := by
  obtain ⟨d',hd',hafter⟩ :=
    expiredDialogues_select lockedDialogues now batchSize (Table.select_of_mem hd)
  have hgone : ((expiredDialogues lockedDialogues now batchSize db).select d.id).filter
      (fun e => ¬ e.id ∈ retirementBatch lockedDialogues terminalBefore batchSize
        (cleanupInteractions lockedDialogues lockedTokens now terminalBefore batchSize
          db).2.interactionTokens (expiredDialogues lockedDialogues now batchSize db)) = none := by
    rw [← Table.select_delete]
    exact hn
  rw [key_dialogState] at hd'
  rw [hd'] at hgone
  have hm : d'.id ∈ retirementBatch lockedDialogues terminalBefore batchSize
      (cleanupInteractions lockedDialogues lockedTokens now terminalBefore batchSize
        db).2.interactionTokens (expiredDialogues lockedDialogues now batchSize db) := by
    by_contra hnot
    simp [hnot] at hgone
  obtain ⟨e,he,hid⟩ := List.mem_map.mp hm
  obtain ⟨hme,hp⟩ := Table.mem_orderedBy.mp (List.mem_of_mem_take he)
  obtain rfl : e = d' := Table.eq_of_key hme (Table.mem_of_select hd') hid
  exact ⟨e,hafter,hp.1⟩

theorem cleanup_removesOnlyDead : RemovesOnlyDead now terminalBefore db
    (cleanupInteractions lockedDialogues lockedTokens now terminalBefore batchSize db).2 where
  tokens t ht h := cleanup_keeps_live ht h
  dialogues d hd hn := by
    obtain ⟨d',hafter,hended,⟨terminalAt,hat,hlt⟩,hnone⟩ := cleanup_deletes_retired hd hn
    have hid : d'.id = d.id := by
      rcases hafter with rfl | ⟨_,rfl⟩ <;> rfl
    refine ⟨d',hafter,?_,hended,⟨terminalAt,hat,hlt⟩,?_⟩
    · intro hbefore
      rcases hafter with he | ⟨_,rfl⟩
      · exact he
      · obtain rfl : now = terminalAt := by simpa using hat
        omega
    · intro t ht hnames
      have hno := Table.any_eq_false.mp hnone t ht
      exact hno (hid ▸ hnames)
  bindings := rfl
  jobs := rfl
  updates := rfl

end Pass

/-- Every binding that is not terminal has a deep link of its operation. -/
def Database.Owned (db : Database) : Prop :=
  ∀ b ∈ db.messageBindings, b.terminal = false →
    ∃ t ∈ db.interactionTokens, NamesOperation b.operationId t

theorem NamesOperation.of_same {operationId : Uuid} {t t' : InteractionToken}
    (h : NamesOperation operationId t) (hs : Call.SameAuthority t t') :
    NamesOperation operationId t' :=
  ⟨hs.surface.trans h.1,hs.action.trans h.2.1,hs.operationId.trans h.2.2⟩

/-- A deep link of an operation with an unfinished binding survives every call. -/
theorem names_kept (c : Call) {db : Database} {b : MessageBinding} (hb : b ∈ db.messageBindings)
    (hopen : b.terminal = false) {t : InteractionToken} (ht : t ∈ db.interactionTokens)
    (hn : NamesOperation b.operationId t) :
    ∃ t' ∈ (c.apply db).interactionTokens, NamesOperation b.operationId t' := by
  rcases (Call.tokens_change c db).kept (Table.select_of_mem ht) with ⟨t',ht',hr⟩ | ⟨_,hdel⟩
  · exact ⟨t',Table.mem_of_select ht',hn.of_same hr.same⟩
  · cases hdel with
    | cleaned hrem =>
      refine absurd ⟨hn.1,?_⟩ hrem.2
      exact Table.any_iff.mpr ⟨b,hb,hn.2.2.symm,hopen⟩

theorem LiveIntent.names {intent : NewOperationIntent} {now : ℤ} {t : InteractionToken}
    (h : LiveIntent intent now t) : NamesOperation intent.operationId t :=
  ⟨h.1,h.2.1,h.2.2.2.2.2.1⟩

namespace Dispatcher

section Runs

variable {limits : SenderLimits} {s t : Dispatcher} {a : Action}

theorem Steps.owned (hs : Steps limits s a t) (h : s.database.Owned) (hc : s.Claims)
    (hb : s.database.Bound) : t.database.Owned := by
  intro b hbm hopen
  have hsel := Table.select_of_mem hbm
  cases hold : s.database.messageBindings.select (Keyed.key b) with
  | some b0 =>
    have hm := Table.mem_of_select hold
    rcases hs.callStep with he | ⟨c,_,he⟩
    · rw [he,hold] at hsel
      obtain rfl := Option.some.inj hsel
      rw [he]
      exact h b0 hm hopen
    · obtain ⟨b',hb',hadv⟩ := c.bindings_advance s.database hold
      rw [he,hsel] at hb'
      obtain rfl := Option.some.inj hb'
      have hopen0 : b0.terminal = false := by
        by_contra ht
        rw [hadv.terminal (by simpa using ht)] at hopen
        simp at hopen
      obtain ⟨token,ht,hn⟩ := h b0 hm hopen0
      have hkept := names_kept c hm hopen0 ht hn
      rwa [he,← hadv.operationId] at hkept
  | none =>
    obtain ⟨bindingId,token,jobId,intent,job,now,_,he,rfl⟩ := hs.captured hc hb hold hsel
    obtain ⟨r,db',hcall,hstep⟩ :=
      recordAcceptedCaptureProjection_step bindingId token jobId intent job now s.database
    rw [he,Call.apply,hcall] at hsel ⊢
    have hlive : r = .ok () → ∃ t ∈ db'.interactionTokens, NamesOperation intent.operationId t := by
      rintro rfl
      obtain ⟨t,ht,hl⟩ := hstep.live
      exact ⟨t,ht,hl.names⟩
    cases hstep with
    | failed _ => exact absurd (hold.symm.trans hsel) (by simp)
    | reconciled _ _ _ _ _ => exact hlive rfl
    | enqueued _ _ _ _ _ _ _ => exact hlive rfl

theorem runs_owned {tr : List Action} (h : Runs limits tr s) : s.database.Owned := by
  have hinv : s.database.Owned ∧ s.Claims ∧ s.database.Bound := by
    refine h.invariant (P := fun s => s.database.Owned ∧ s.Claims ∧ s.database.Bound) ?_ ?_
    · refine ⟨?_,Claims.initial,?_⟩
      · intro b hb
        simp [initial,Database.fresh] at hb
      · intro j hj
        simp [initial,Database.fresh] at hj
    · rintro v b w ⟨ho,hc,hb⟩ hstep
      have hs := steps_of_step hstep
      exact ⟨hs.owned ho hc hb,hc.step hs,hs.bound hb⟩
  exact hinv.1

/-- In every reachable state each unfinished operation has an owner, and a pass removes dead rows
only. -/
theorem cleanup_spares_live_authority {tr : List Action} (h : Runs limits tr s) :
    (∀ b ∈ s.database.messageBindings, b.terminal = false →
      (findOperationIntentOwner b.operationId s.database).isSome = true) ∧
    ∀ lockedDialogues lockedTokens now terminalBefore batchSize,
      RemovesOnlyDead now terminalBefore s.database (cleanupInteractions lockedDialogues
        lockedTokens now terminalBefore batchSize s.database).2 := by
  constructor
  · intro b hb hopen
    obtain ⟨token,ht,hn⟩ := runs_owned h b hb hopen
    exact findOperationIntentOwner_isSome ht hn
  · intro lockedDialogues lockedTokens now terminalBefore batchSize
    exact cleanup_removesOnlyDead

end Runs

namespace OneCapture

/-- The intent of a capture is consumed and expires; two passes leave its owner. -/
def followed : List Action :=
  [capture,.produce (.resolveOperationIntent
      ⟨List.replicate 64 'c',.deepLink,⟨7,42,42,none⟩,10⟩),
    .produce (.cleanupInteractions ∅ ∅ 2000 1000 10),.produce (.cleanupInteractions ∅ ∅ 3000 2000 10)]

theorem owner_spared : ∃ s, Runs limits followed s ∧
    (findOperationIntentOwner 3 s.database = some 42 ∧
      ∀ b ∈ s.database.messageBindings, b.terminal = false →
        (findOperationIntentOwner b.operationId s.database).isSome = true) := by
  obtain ⟨s,hs,ho⟩ : ∃ s, Runs limits followed s ∧
      findOperationIntentOwner 3 s.database = some 42 := exists_run_of_replay (by decide +kernel)
  exact ⟨s,hs,ho,(cleanup_spares_live_authority hs).1⟩

end OneCapture

end Dispatcher

end RatatoskrTelegram
