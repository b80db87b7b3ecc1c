import RatatoskrTelegram.CallEffects

/-!
# Presentations outside the recorded scope

A callback presentation is validated in the order consumption, expiry, scope.
What a presentation by the wrong bot, actor, chat or message leaves behind is
decided by that order.
-/

namespace RatatoskrTelegram

/-- The two calls that present a callback token. -/
inductive Call.Presents (p : CallbackPresentation) (now : ℤ) : Call → Prop
  | selection (confirmToken cancelToken : Token) :
      Presents p now (.consumeRepositorySelection p confirmToken cancelToken now)
  | decision : Presents p now (.consumeRepositoryDecision p now)

/-- The token is unconsumed while its dialogue is active past its expiry. -/
def LockedCallbackRow.Lapsed (row : LockedCallbackRow) (now : ℤ) : Prop :=
  row.token.consumedAt = none ∧ Overdue now row.dialogue

instance (row : LockedCallbackRow) (now : ℤ) : Decidable (row.Lapsed now) := by
  delta LockedCallbackRow.Lapsed
  infer_instance

section Mismatch

variable {p : CallbackPresentation} {now : ℤ} {db : Database} {row : LockedCallbackRow}

theorem validateCallback_of_mismatch (hm : callbackScopeValid row p = false)
    (expectedStep : DialogueStep) (expectedVersion : ℤ) :
    validateCallback row p expectedStep expectedVersion now =
      if row.token.consumedAt ≠ none then some .consumed
      else if row.token.expiresAt ≤ now ∨ row.dialogue.expiresAt ≤ now then some .expired
      else some .invalid := by
  unfold validateCallback
  rw [if_pos (Or.inl hm)]

theorem refuse_of_mismatch (α : Type) (now : ℤ) (db : Database)
    (hm : callbackScopeValid row p = false) (expectedStep : DialogueStep) (expectedVersion : ℤ) :
    ∃ refusal, validateCallback row p expectedStep expectedVersion now = some refusal ∧
      transaction (refuse (α := α) row refusal now) db = (.ok (.error refusal),
        if row.token.consumedAt = none ∧ row.dialogue.expiresAt ≤ now then
          expiredDatabase row now db else db) := by
  rw [validateCallback_of_mismatch hm]
  by_cases hc : row.token.consumedAt = none
  · by_cases hd : row.dialogue.expiresAt ≤ now
    · exact ⟨.expired,by simp [hc,hd],by simp [transaction,refuse,expiredDatabase,hc,hd]⟩
    · by_cases ht : row.token.expiresAt ≤ now
      · exact ⟨.expired,by simp [hc,ht],by simp [transaction,refuse,hd]⟩
      · exact ⟨.invalid,by simp [hc,hd,ht],by simp [transaction,refuse,hd]⟩
  · exact ⟨.consumed,by simp [hc],by simp [transaction,refuse,hc]⟩

theorem recoverConsumedConfirmation_keeps (row : LockedCallbackRow) (p : CallbackPresentation)
    (db : Database) : (transaction (fun _ => recoverConsumedConfirmation row p) db).2 = db := by
  refine transaction_rel (R := fun s t => t = s) rfl ?_
  intro v t h
  unfold recoverConsumedConfirmation at h
  repeat' split at h
  all_goals simp at h

theorem consumeRepositorySelection_refused {refusal : CallbackRefusal}
    (hl : lockRepositoryCallback p.token db = some row)
    (hv : validateCallback row p .preview 0 now = some refusal) (confirmToken cancelToken : Token) :
    consumeRepositorySelection p confirmToken cancelToken now db =
      transaction (refuse row refusal now) db := by
  simp only [consumeRepositorySelection,transaction,hl,hv]

theorem consumeRepositoryDecision_refused {refusal : CallbackRefusal}
    (hl : lockRepositoryCallback p.token db = some row) (hc : row.token.consumedAt = none)
    (hv : validateCallback row p .confirming 1 now = some refusal) :
    consumeRepositoryDecision p now db = transaction (refuse row refusal now) db := by
  simp only [consumeRepositoryDecision,transaction,hl,hv,hc,ne_eq,not_true_eq_false,if_false]

theorem consumeRepositoryDecision_consumed (hl : lockRepositoryCallback p.token db = some row)
    (hc : row.token.consumedAt ≠ none) : consumeRepositoryDecision p now db =
      transaction (fun _ => recoverConsumedConfirmation row p) db := by
  simp only [consumeRepositoryDecision,transaction,hl,if_pos hc]

/-- The whole effect of a presentation outside the recorded scope. -/
theorem presentation_of_mismatch {c : Call} (hc : c.Presents p now)
    (hl : lockRepositoryCallback p.token db = some row)
    (hm : callbackScopeValid row p = false) :
    c.apply db = if row.token.consumedAt = none ∧ row.dialogue.expiresAt ≤ now then
      expiredDatabase row now db else db := by
  cases hc with
  | selection confirmToken cancelToken =>
    obtain ⟨refusal,hv,hr⟩ := refuse_of_mismatch ConfirmationTransition now db hm .preview 0
    rw [Call.apply,consumeRepositorySelection_refused hl hv,hr]
  | decision =>
    by_cases hconsumed : row.token.consumedAt = none
    · obtain ⟨refusal,hv,hr⟩ := refuse_of_mismatch DecisionTransition now db hm .confirming 1
      rw [Call.apply,consumeRepositoryDecision_refused hl hconsumed hv,hr]
    · rw [Call.apply,consumeRepositoryDecision_consumed hl hconsumed,
        recoverConsumedConfirmation_keeps,if_neg (fun h => hconsumed h.1)]

/-- Expiring a dialogue on the spot rewrites it exactly when it is still active. -/
theorem expiredDatabase_keeps_iff (hd : db.dialogStates.select row.dialogue.id = some row.dialogue) :
    (expiredDatabase row now db).dialogStates = db.dialogStates ↔
      row.dialogue.lifecycle ≠ .active := by
  constructor
  · intro h ha
    have hs := congrArg (fun t : Table DialogState => t.select row.dialogue.id) h
    simp only [expiredDatabase,Table.select_update,hd,Option.map_some,ha,and_self,if_true,
      Option.some.injEq] at hs
    have hv : row.dialogue.version + 1 = row.dialogue.version := congrArg DialogState.version hs
    omega
  · intro ha
    refine Table.update_of_forall_not ?_
    rintro d hm ⟨hid,hactive⟩
    obtain rfl : d = row.dialogue := Table.eq_of_key hm (Table.mem_of_select hd) hid
    exact ha hactive

/-- A presentation outside the recorded scope changes no dialogue and no token exactly when it does
not find the token unconsumed with its dialogue active past the expiry. -/
theorem scope_mismatch_changes_nothing_iff {c : Call} (hc : c.Presents p now)
    (hl : lockRepositoryCallback p.token db = some row)
    (hm : callbackScopeValid row p = false) :
    ((c.apply db).dialogStates = db.dialogStates ∧
      (c.apply db).interactionTokens = db.interactionTokens) ↔ ¬ row.Lapsed now := by
  obtain ⟨_,_,_,_,hd⟩ := lockRepositoryCallback_eq_some hl
  rw [presentation_of_mismatch hc hl hm]
  by_cases hw : row.token.consumedAt = none ∧ row.dialogue.expiresAt ≤ now
  · rw [if_pos hw]
    show (expiredDatabase row now db).dialogStates = db.dialogStates ∧
      db.interactionTokens = db.interactionTokens ↔ _
    rw [expiredDatabase_keeps_iff hd]
    constructor
    · rintro ⟨ha,_⟩ hlapsed
      exact ha hlapsed.2.1
    · intro hn
      exact ⟨fun ha => hn ⟨hw.1,ha,hw.2⟩,rfl⟩
  · rw [if_neg hw]
    constructor
    · intro _ hlapsed
      exact hw ⟨hlapsed.1,hlapsed.2.2⟩
    · intro _
      exact ⟨rfl,rfl⟩

end Mismatch

namespace ForwardedButton

def token : Token := .filled 't'

/-- The owner 42 gets a preview that expires at 600; its message 5 is stamped. -/
def calls : List Call :=
  [.createRepositoryPreviewDialogue 1 ⟨7,42,42⟩ "target" none [(.star,token)] 0 600,
    .stampCallbackMessage 1 7 42 5]

def database : Database := calls.foldl (fun s c => c.apply s) .fresh

def presentation : CallbackPresentation := ⟨token.text,⟨7,100⟩,99,42,5⟩

def presents : Call :=
  .consumeRepositorySelection presentation (.filled 'y')
    (.filled 'n') 700

/-- While the dialogue is live the stranger changes nothing. -/
theorem live_dialogue_kept : ∃ row, lockRepositoryCallback presentation.token database = some row ∧
    (((Call.consumeRepositoryDecision presentation 599).apply database).dialogStates =
        database.dialogStates ∧
      ((Call.consumeRepositoryDecision presentation 599).apply database).interactionTokens =
        database.interactionTokens ↔ ¬ row.Lapsed 599) := by
  obtain ⟨row,hl⟩ : ∃ row, lockRepositoryCallback presentation.token database = some row :=
    Option.isSome_iff_exists.mp (by decide +kernel)
  have hm : ∀ r ∈ lockRepositoryCallback presentation.token database,
      callbackScopeValid r presentation = false := by decide +kernel
  exact ⟨row,hl,scope_mismatch_changes_nothing_iff .decision hl (hm row hl)⟩

/-- Past the expiry the stranger's presentation ends the owner's dialogue. -/
theorem overdue_dialogue_expired :
    ¬ ∀ (tr : List Call) (db : Database) (c : Call) (p : CallbackPresentation) (now : ℤ)
      (row : LockedCallbackRow), Run CallStep .fresh tr db → c.Presents p now →
        lockRepositoryCallback p.token db = some row → callbackScopeValid row p = false →
          (c.apply db).dialogStates = db.dialogStates ∧
            (c.apply db).interactionTokens = db.interactionTokens := by
  intro h
  have hrun : Run CallStep .fresh calls database :=
    run_of_calls (by simp [calls,Call.Promised]) .fresh
  obtain ⟨row,hl⟩ : ∃ row, lockRepositoryCallback presentation.token database = some row :=
    Option.isSome_iff_exists.mp (by decide +kernel)
  have hm : ∀ r ∈ lockRepositoryCallback presentation.token database,
      callbackScopeValid r presentation = false ∧ r.Lapsed 700 := by decide +kernel
  have hkept := h calls database presents presentation 700 row hrun (.selection _ _) hl
    (hm row hl).1
  have hd : (presents.apply database).dialogStates ≠ database.dialogStates := by decide +kernel
  exact hd hkept.1

end ForwardedButton

end RatatoskrTelegram
