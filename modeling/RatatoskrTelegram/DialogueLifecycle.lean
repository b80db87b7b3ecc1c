import RatatoskrTelegram.OutboundAcknowledgements
import RatatoskrTelegram.InteractionCleanup

/-!
# The lifecycle of a dialogue row

Every transaction moves a dialogue by one of seven moves, and all but the
trivial one leave from an active dialogue. A deletion is the cleanup's alone.
-/

namespace RatatoskrTelegram

namespace DialogState

/-- Every move of a dialogue row, with what the statement has checked about the row. -/
inductive Moves (d : DialogState) : DialogState → Prop
  | stays : Moves d d
  | stamped (messageId : ℤ) : d.lifecycle = .active → (d.step = .preview ∨ d.step = .confirming) →
      Moves d ((stampDialogue messageId).set d)
  | selected (mode : RepositoryActionCapability) : d.lifecycle = .active → d.step = .preview →
      d.version = 0 →
      Moves d ((confirmDialogue {d.payload with selectedMode := some mode}).set d)
  | cancelled (now : ℤ) : d.lifecycle = .active → d.step = .confirming → d.version = 1 →
      Moves d ((cancelDialogue now).set d)
  | released (update : ReleasingUpdate) : d.lifecycle = .active → d.step = .confirming →
      d.version = 1 → Moves d ((releaseDialogue update).set d)
  | completed (result : Option Json) (now : ℤ) : d.lifecycle = .active → d.step = .submitting →
      Moves d ((completeDialogue result now).set d)
  | expired (now : ℤ) : d.lifecycle = .active → d.expiresAt ≤ now →
      Moves d ((expireDialogue now).set d)

/-- An ended dialogue is never written again. -/
theorem Moves.of_ended {d e : DialogState} (h : d.Moves e) (hd : d.lifecycle ≠ .active) :
    e = d := by
  cases h with
  | stays => rfl
  | stamped _ ha _ => exact absurd ha hd
  | selected _ ha _ _ => exact absurd ha hd
  | cancelled _ ha _ _ => exact absurd ha hd
  | released _ ha _ _ => exact absurd ha hd
  | completed _ _ ha _ => exact absurd ha hd
  | expired _ ha _ => exact absurd ha hd

/-- A move that changes the lifecycle or the step raises the version. -/
theorem Moves.version_lt {d e : DialogState} (h : d.Moves e)
    (hne : e.lifecycle ≠ d.lifecycle ∨ e.step ≠ d.step) : d.version < e.version := by
  cases h with
  | stays => simp at hne
  | stamped _ _ _ => simp at hne
  | selected _ _ _ hv => simp [hv]
  | cancelled _ _ _ hv => simp [hv]
  | released _ _ _ hv => simp [hv]
  | completed _ _ _ _ =>
    show d.version < d.version + 1
    omega
  | expired _ _ _ =>
    show d.version < d.version + 1
    omega

end DialogState

/-- Each dialogue row left stems from a stored one by a move; a new one satisfies `F`. -/
abbrev DialoguesMove (F : DialogState → Prop) (t u : Table DialogState) : Prop :=
  Table.Descends DialogState.Moves F t u

namespace DialoguesMove

variable {F : DialogState → Prop} {t : Table DialogState}

theorem refl : DialoguesMove F t t :=
  (Table.Evolves.refl fun _ => .stays).descends

theorem update {p : DialogState → Prop} [DecidablePred p] {a : Assignment DialogState}
    (h : ∀ d ∈ t, p d → d.Moves (a.set d)) : DialoguesMove F t (t.update p a) :=
  (Table.Evolves.update (fun _ => .stays) h).descends

theorem update_locked {d : DialogState} {a : Assignment DialogState} (hd : t.select d.id = some d)
    (h : d.Moves (a.set d)) : DialoguesMove F t (t.update (·.id = d.id) a) := by
  refine update ?_
  intro e he hid
  obtain rfl : e = d := Table.eq_of_key he (Table.mem_of_select hd) hid
  exact h

end DialoguesMove

section Functions

variable {F : DialogState → Prop}

theorem stampCallback_dialogues (dialogueId : Uuid) (botId chatId messageId : ℤ) (db : Database) :
    DialoguesMove F db.dialogStates
      (stampCallback dialogueId botId chatId messageId db).dialogStates := by
  unfold stampCallback
  split
  · exact DialoguesMove.refl
  · exact DialoguesMove.update fun d _ hd => .stamped messageId hd.2.2.2.1 hd.2.2.2.2

theorem stampCallbackMessage_dialogues (dialogueId : Uuid) (botId chatId messageId : ℤ)
    (db : Database) :
    DialoguesMove F db.dialogStates
      (stampCallbackMessage dialogueId botId chatId messageId db).2.dialogStates := by
  refine transaction_rel
    (R := fun s t : Database => DialoguesMove F s.dialogStates t.dialogStates)
    DialoguesMove.refl ?_
  intro v t h
  split at h
  · obtain ⟨-,rfl⟩ := Ending.commit.inj h
    exact stampCallback_dialogues dialogueId botId chatId messageId db
  · simp at h

theorem recordOutboundAcknowledgement_dialogues (bindingId : Uuid) (job : QueuedOutboundJob)
    (method : AcknowledgedMethod) (messageId now : ℤ) (db : Database) :
    DialoguesMove F db.dialogStates
      (recordOutboundAcknowledgement bindingId job method messageId now db).2.dialogStates := by
  rcases recordOutboundAcknowledgement_writes bindingId job method messageId now db with
    h | ⟨_,_,_,h⟩
  · rw [h]
    exact DialoguesMove.refl
  · rw [h]
    dsimp only [acknowledged,applyAcknowledgement,applyCallbackStamp]
    split
    · exact stampCallback_dialogues _ _ _ _ db
    · exact DialoguesMove.refl

theorem expiredDatabase_dialogues {row : LockedCallbackRow} {now : ℤ} {db : Database}
    (hd : db.dialogStates.select row.dialogue.id = some row.dialogue)
    (hexp : row.dialogue.expiresAt ≤ now) :
    DialoguesMove F db.dialogStates (expiredDatabase row now db).dialogStates := by
  refine DialoguesMove.update ?_
  rintro d hm ⟨hid,ha⟩
  obtain rfl : d = row.dialogue := Table.eq_of_key hm (Table.mem_of_select hd) hid
  exact .expired now ha hexp

theorem consumeRepositorySelection_dialogues (p : CallbackPresentation)
    (confirmToken cancelToken : Token) (now : ℤ) (db : Database) :
    DialoguesMove F db.dialogStates
      (consumeRepositorySelection p confirmToken cancelToken now db).2.dialogStates := by
  obtain ⟨r,t,he,h⟩ := consumeRepositorySelection_step p confirmToken cancelToken now db
  rw [he]
  cases h with
  | failed e => exact DialoguesMove.refl
  | refused refusal => exact DialoguesMove.refl
  | expired hl hexp =>
    exact expiredDatabase_dialogues (lockRepositoryCallback_eq_some hl).2.2.2.2 hexp
  | @selected row mode _ _ hl hadm _ _ _ =>
    exact DialoguesMove.update_locked (lockRepositoryCallback_eq_some hl).2.2.2.2
      (.selected mode hadm.active hadm.step hadm.version)

theorem consumeRepositoryDecision_dialogues (p : CallbackPresentation) (now : ℤ) (db : Database) :
    DialoguesMove F db.dialogStates (consumeRepositoryDecision p now db).2.dialogStates := by
  obtain ⟨r,t,he,h⟩ := consumeRepositoryDecision_step p now db
  rw [he]
  cases h with
  | failed e => exact DialoguesMove.refl
  | refused refusal => exact DialoguesMove.refl
  | expired hl hexp =>
    exact expiredDatabase_dialogues (lockRepositoryCallback_eq_some hl).2.2.2.2 hexp
  | recovered _ _ _ => exact DialoguesMove.refl
  | alreadyCompleted => exact DialoguesMove.refl
  | cancelled hl hadm _ =>
    exact DialoguesMove.update_locked (lockRepositoryCallback_eq_some hl).2.2.2.2
      (.cancelled now hadm.active hadm.step hadm.version)
  | released hl hadm _ _ =>
    exact DialoguesMove.update_locked (lockRepositoryCallback_eq_some hl).2.2.2.2
      (.released p.update hadm.active hadm.step hadm.version)

theorem completeRepositoryDialogueProjection_dialogues (dialogueId : Uuid)
    (update : ReleasingUpdate) (result : Option Json) (jobId : Uuid) (job : NewOutboundJob)
    (now : ℤ) (db : Database) :
    DialoguesMove F db.dialogStates (completeRepositoryDialogueProjection dialogueId update result
      jobId job now db).2.dialogStates := by
  obtain ⟨r,t,he,h⟩ :=
    completeRepositoryDialogueProjection_step dialogueId update result jobId job now db
  rw [he]
  cases h with
  | failed e => exact DialoguesMove.refl
  | alreadyCompleted => exact DialoguesMove.refl
  | @completed dialogue _ hs _ hstep ha _ _ =>
    obtain rfl : dialogue.id = dialogueId := Table.key_of_select hs
    exact DialoguesMove.update_locked hs (.completed result now ha hstep)

theorem cleanupInteractions_dialogues (lockedDialogues : Finset Uuid) (lockedTokens : Finset Token)
    (now terminalBefore : ℤ) (batchSize : ℕ) (db : Database) :
    DialoguesMove F db.dialogStates (cleanupInteractions lockedDialogues lockedTokens now
      terminalBefore batchSize db).2.dialogStates := by
  refine Table.Descends.delete (DialoguesMove.update ?_) _
  intro d hd hid
  obtain ⟨⟨ha,hexp⟩,_⟩ := (mem_expiryBatch hd).mp hid
  exact .expired now ha hexp

structure DialogState.Previewed (d : DialogState) : Prop where
  step : d.step = .preview
  version : d.version = 0
  active : d.lifecycle = .active

theorem createRepositoryPreviewDialogue_dialogues (dialogueId : Uuid) (scope : DialogueScope)
    (target : Json) (accountRef : Option Json)
    (selections : List (RepositoryActionCapability × Token)) (now expiresAt : ℤ) (db : Database) :
    DialoguesMove (fun d => d.id = dialogueId ∧ d.Previewed) db.dialogStates
      (createRepositoryPreviewDialogue dialogueId scope target accountRef selections now expiresAt
        db).2.dialogStates := by
  refine transaction_rel (R := fun s t : Database =>
    DialoguesMove (fun d => d.id = dialogueId ∧ d.Previewed) s.dialogStates t.dialogStates)
    DialoguesMove.refl ?_
  intro v t h
  split at h
  · split at h
    · simp at h
    · rename_i dialogues hi
      split at h
      · simp at h
      · obtain ⟨-,rfl⟩ := Ending.commit.inj h
        exact ((Table.Evolves.refl fun _ => .stays).insert hi ⟨rfl,rfl,rfl,rfl⟩).descends
  · simp at h

end Functions

end RatatoskrTelegram
