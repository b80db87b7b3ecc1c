import RatatoskrTelegram.CallEffects

/-!
# At most one action is released per dialogue

What a row has become under the moves of `DialogueLifecycle` it stays along
every run, as long as no call creates a dialogue under the same identifier again.
-/

namespace RatatoskrTelegram

def Confirms (p : CallbackPresentation) (now : ℤ) (action : ConfirmedAction) (db : Database) :
    Prop :=
  (consumeRepositoryDecision p now db).1 = .ok (.ok (.confirmed action))

instance (p : CallbackPresentation) (now : ℤ) (action : ConfirmedAction) (db : Database) :
    Decidable (Confirms p now action db) := by
  delta Confirms
  infer_instance

/-- Every step of the run leaves that identifier to the dialogue that has it. -/
def KeepsDialogue (dialogueId : Uuid) (tr : List Call) : Prop :=
  ∀ c ∈ tr, ¬ c.Creates dialogueId

namespace DialogState

/-- The dialogue carries an action its recorded update has released. -/
structure Carries (update : ReleasingUpdate) (action : ConfirmedAction) (d : DialogState) :
    Prop where
  releasedBy : d.ReleasedBy update
  submitted : d.step = .submitting ∨ d.step = .completed
  action : confirmedAction d = .ok action

theorem Carries.unique {u v : ReleasingUpdate} {a b : ConfirmedAction} {d : DialogState}
    (h : d.Carries u a) (k : d.Carries v b) : b = a ∧ v = u := by
  have ha : Except.ok (ε := PersistenceError) b = .ok a := k.action.symm.trans h.action
  have hb := k.releasedBy.1.symm.trans h.releasedBy.1
  have hu := k.releasedBy.2.symm.trans h.releasedBy.2
  cases u
  cases v
  simp_all

theorem Carries.moves {update : ReleasingUpdate} {action : ConfirmedAction} {d e : DialogState}
    (h : d.Carries update action) (hm : d.Moves e) : e.Carries update action := by
  cases hm with
  | stays => exact h
  | stamped _ _ hs => rcases hs with hs | hs <;> simpa [hs] using h.submitted
  | selected _ _ hs _ => simpa [hs] using h.submitted
  | cancelled _ _ hs _ => simpa [hs] using h.submitted
  | released _ _ hs _ => simpa [hs] using h.submitted
  | completed _ _ _ _ => exact ⟨h.releasedBy,Or.inr rfl,h.action⟩
  | expired _ _ _ => exact ⟨h.releasedBy,h.submitted,h.action⟩

end DialogState

theorem confirmedAction_dialogueId {d : DialogState} {action : ConfirmedAction}
    (h : confirmedAction d = .ok action) : action.dialogueId = d.id := by
  unfold confirmedAction at h
  split at h
  · simp at h
  · obtain rfl := Except.ok.inj h
    rfl

theorem confirmedAction_accountRef {d : DialogState} {action : ConfirmedAction}
    (h : confirmedAction d = .ok action) (hne : action.accountRef ≠ none) :
    action.mode = .star := by
  unfold confirmedAction at h
  split at h
  · simp at h
  · obtain rfl := Except.ok.inj h
    by_contra hmode
    simp [hmode] at hne

theorem confirms_carries {p : CallbackPresentation} {now : ℤ} {action : ConfirmedAction}
    {db : Database} (h : Confirms p now action db) :
    ∃ d, (consumeRepositoryDecision p now db).2.dialogStates.select action.dialogueId = some d ∧
      d.lifecycle = .active ∧ d.Carries p.update action := by
  obtain ⟨r,t,he,hs⟩ := consumeRepositoryDecision_step p now db
  unfold Confirms at h
  rw [he] at h ⊢
  cases hs with
  | failed e => simp at h
  | refused refusal => simp at h
  | expired _ _ => simp at h
  | alreadyCompleted => simp at h
  | cancelled _ _ _ => simp at h
  | @recovered row a hl hr ha =>
    obtain rfl : a = action := by simpa using h
    have hd := (lockRepositoryCallback_eq_some hl).2.2.2.2
    rw [confirmedAction_dialogueId ha]
    exact ⟨row.dialogue,hd,hr.active,hr.releasedBy,Or.inl hr.step,ha⟩
  | @released row a hl hadm _ ha =>
    obtain rfl : a = action := by simpa using h
    have hd := (lockRepositoryCallback_eq_some hl).2.2.2.2
    rw [confirmedAction_dialogueId ha]
    refine ⟨(releaseDialogue p.update).set row.dialogue,?_,hadm.active,⟨rfl,rfl⟩,Or.inl rfl,ha⟩
    simp [decidedDatabase,hd]

theorem dialogue_stable {P : DialogState → Prop} {dialogueId : Uuid} {db db' : Database}
    {tr : List Call} (hP : ∀ d e, P d → d.Moves e → P e) (h : Run CallStep db tr db')
    (hk : KeepsDialogue dialogueId tr)
    (h0 : ∀ d, db.dialogStates.select dialogueId = some d → P d) :
    ∀ d, db'.dialogStates.select dialogueId = some d → P d := by
  refine h.invariant_of_labels
    (P := fun s => ∀ d, s.dialogStates.select dialogueId = some d → P d) h0 ?_
  rintro s c t hc hs ⟨_,rfl⟩ d hd
  rcases c.dialogues_move s dialogueId d hd with ⟨e,he,hm⟩ | ⟨_,hnew,_⟩
  · exact hP e d (hs e he) hm
  · obtain rfl : d.id = dialogueId := Table.key_of_select hd
    exact absurd hnew (hk c hc)

theorem decision_run {db db' : Database} {tr : List Call} (h : Run CallStep db tr db')
    (p : CallbackPresentation) (now : ℤ) :
    Run CallStep db (tr ++ [Call.consumeRepositoryDecision p now])
      (consumeRepositoryDecision p now db').2 :=
  h.snoc ⟨trivial,rfl⟩

theorem keepsDialogue_decision {dialogueId : Uuid} {tr : List Call}
    (h : KeepsDialogue dialogueId tr) (p : CallbackPresentation) (now : ℤ) :
    KeepsDialogue dialogueId (tr ++ [Call.consumeRepositoryDecision p now]) := by
  intro c hc
  rcases List.mem_append.mp hc with hc | hc
  · exact h c hc
  · obtain rfl := List.mem_singleton.mp hc
    exact fun h => h

/-- Two confirmed answers for one dialogue are the same action, given to the same update. -/
theorem confirmed_twice {p p' : CallbackPresentation} {now now' : ℤ}
    {action action' : ConfirmedAction} {db db' : Database} {tr : List Call}
    (h : Confirms p now action db)
    (hr : Run CallStep (consumeRepositoryDecision p now db).2 tr db')
    (hk : KeepsDialogue action.dialogueId tr) (h' : Confirms p' now' action' db')
    (hid : action'.dialogueId = action.dialogueId) : action' = action ∧ p'.update = p.update := by
  obtain ⟨d,hd,_,hc⟩ := confirms_carries h
  obtain ⟨e,he,_,hc'⟩ := confirms_carries h'
  rw [hid] at he
  have hstable := dialogue_stable (P := DialogState.Carries p.update action)
    (fun _ _ h hm => h.moves hm) (decision_run hr p' now') (keepsDialogue_decision hk p' now') (by
      intro e he
      obtain rfl : d = e := by simpa [hd] using he
      exact hc)
  exact (hstable e he).unique hc'

/-- An ended dialogue stays as it is, until cleanup removes it. -/
theorem ended_absorbing {db db' : Database} {d : DialogState} {tr : List Call}
    (hd : db.dialogStates.select d.id = some d) (hend : d.lifecycle ≠ .active)
    (hr : Run CallStep db tr db') (hk : KeepsDialogue d.id tr) :
    ∀ e, db'.dialogStates.select d.id = some e → e = d := by
  refine dialogue_stable (P := fun e => e = d) ?_ hr hk ?_
  · rintro _ e rfl hm
    exact hm.of_ended hend
  · intro e he
    obtain rfl : d = e := by simpa [hd] using he
    rfl

theorem not_confirmed_after_end {db db' : Database} {d : DialogState} {tr : List Call}
    (hd : db.dialogStates.select d.id = some d) (hend : d.lifecycle ≠ .active)
    (hr : Run CallStep db tr db') (hk : KeepsDialogue d.id tr) (p : CallbackPresentation) (now : ℤ)
    (action : ConfirmedAction) (hc : Confirms p now action db') : action.dialogueId ≠ d.id := by
  intro hid
  obtain ⟨e,he,ha,_⟩ := confirms_carries hc
  rw [hid] at he
  obtain rfl := ended_absorbing hd hend (decision_run hr p now) (keepsDialogue_decision hk p now) e
    he
  exact hend ha

theorem version_lt_of_step {db db' : Database} {c : Call} {d e : DialogState}
    (hs : CallStep db c db') (hd : db.dialogStates.select d.id = some d)
    (he : db'.dialogStates.select d.id = some e)
    (hne : e.lifecycle ≠ d.lifecycle ∨ e.step ≠ d.step) : d.version < e.version := by
  obtain ⟨_,rfl⟩ := hs
  rcases c.dialogues_move db d.id e he with ⟨d',hd',hm⟩ | ⟨hn,_⟩
  · obtain rfl : d = d' := by simpa [hd] using hd'
    exact hm.version_lt hne
  · simp [hd] at hn

/-- Release, recovery, cancellation, expiry and completion together: along every run that does not
reuse the identifier, one dialogue has at most one confirmed action, given to one update; an ended
dialogue neither changes nor confirms; each transition raises the version; and only the star mode
carries an account. -/
theorem repository_action_released_once :
    (∀ (p p' : CallbackPresentation) (now now' : ℤ) (action action' : ConfirmedAction)
      (db db' : Database) (tr : List Call), Confirms p now action db →
      Run CallStep (consumeRepositoryDecision p now db).2 tr db' →
      KeepsDialogue action.dialogueId tr → Confirms p' now' action' db' →
      action'.dialogueId = action.dialogueId → action' = action ∧ p'.update = p.update) ∧
    (∀ (db db' : Database) (d : DialogState) (tr : List Call),
      db.dialogStates.select d.id = some d → d.lifecycle ≠ .active → Run CallStep db tr db' →
      KeepsDialogue d.id tr →
      (∀ e, db'.dialogStates.select d.id = some e → e = d) ∧
      ∀ (p : CallbackPresentation) (now : ℤ) (action : ConfirmedAction),
        Confirms p now action db' → action.dialogueId ≠ d.id) ∧
    (∀ (db db' : Database) (c : Call) (d e : DialogState), CallStep db c db' →
      db.dialogStates.select d.id = some d → db'.dialogStates.select d.id = some e →
      e.lifecycle ≠ d.lifecycle ∨ e.step ≠ d.step → d.version < e.version) ∧
    ∀ (p : CallbackPresentation) (now : ℤ) (action : ConfirmedAction) (db : Database),
      Confirms p now action db → action.accountRef ≠ none → action.mode = .star := by
  refine ⟨?_,?_,?_,?_⟩
  · intro p p' now now' action action' db db' tr h hr hk h' hid
    exact confirmed_twice h hr hk h' hid
  · intro db db' d tr hd hend hr hk
    exact ⟨ended_absorbing hd hend hr hk,fun p now action hc =>
      not_confirmed_after_end hd hend hr hk p now action hc⟩
  · intro db db' c d e hs hd he hne
    exact version_lt_of_step hs hd he hne
  · intro p now action db h hne
    obtain ⟨d,_,_,hc⟩ := confirms_carries h
    exact confirmedAction_accountRef hc.action hne

namespace StarConfirmation

def token : Token := .filled 'c'

def update : ReleasingUpdate := ⟨7,100⟩

def presentation : CallbackPresentation := ⟨token.text,update,42,42,9⟩

def dialogue : DialogState where
  id := 1
  botId := 7
  telegramUserId := 42
  chatId := 42
  expectedMessageId := some 9
  step := .confirming
  version := 1
  lifecycle := .active
  payload := ⟨"target",some "account",some .star,none⟩
  actionIdempotencyKey := ⟨1⟩
  releasingBotId := none
  releasingUpdateId := none
  createdAt := 0
  expiresAt := 600
  terminalAt := none

def cancelled : DialogState :=
  {dialogue with id := 2, lifecycle := .cancelled, version := 2, terminalAt := some 5}

def confirmation : InteractionToken :=
  {callbackAuthority token .confirm 1 ⟨7,42,42⟩ 1 0 600 with expectedMessageId := some 9}

def admitted : Update := (AdmittedUpdate.mk 7 100 "callback_query" "{}").row 0

def database : Database where
  updates := .single admitted
  messageBindings := .empty
  outboundJobs := .empty
  inbox := ∅
  notificationDecisions := .empty
  dialogStates := ⟨[dialogue,cancelled],by decide⟩
  interactionTokens := .single confirmation
  transportFailures := []

def action : ConfirmedAction := ⟨1,.star,"target",some "account",⟨1⟩⟩

theorem confirms : Confirms presentation 10 action database := by decide

/-- The update that released the star action presents its button again. -/
theorem released_once :
    (Confirms presentation 20 action (consumeRepositoryDecision presentation 10 database).2 ∧
      action = action ∧ presentation.update = presentation.update) ∧
    action.dialogueId ≠ cancelled.id ∧ dialogue.version < 2 ∧ action.mode = .star := by
  have hrec : Confirms presentation 20 action
      (consumeRepositoryDecision presentation 10 database).2 := by decide
  have hnil (id : Uuid) : KeepsDialogue id [] := by simp [KeepsDialogue]
  obtain ⟨htwice,hend,hversion,hstar⟩ := repository_action_released_once
  refine ⟨⟨hrec,htwice _ _ 10 20 _ _ database _ [] confirms .refl (hnil _) hrec rfl⟩,
    (hend database database cancelled [] (by decide) (by decide) .refl (hnil _)).2 _ 10 _ confirms,
    ?_,hstar _ 10 _ database confirms (by decide)⟩
  exact hversion database _ (.consumeRepositoryDecision presentation 10) dialogue
    ((releaseDialogue update).set dialogue) ⟨trivial,rfl⟩ (by decide) (by decide) (by decide)

end StarConfirmation

end RatatoskrTelegram
