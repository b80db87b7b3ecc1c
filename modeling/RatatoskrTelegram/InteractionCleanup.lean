import RatatoskrTelegram.Dialogues
import Mathlib.Data.Char
import Mathlib.Data.List.Lex

/-!
# Bounded expiry and retention cleanup

One pass expires dialogues, removes spent tokens, and removes ended dialogues
that no token names any more; each statement takes one ordered batch.
-/

namespace RatatoskrTelegram

structure InteractionCleanupCounts where
  dialoguesExpired : ℕ
  tokensDeleted : ℕ
  dialoguesDeleted : ℕ
  deriving DecidableEq, Repr

/-- `lifecycle = 'active' and expires_at <= now`. -/
def Overdue (now : ℤ) (d : DialogState) : Prop :=
  d.lifecycle = .active ∧ d.expiresAt ≤ now

instance (now : ℤ) : DecidablePred (Overdue now) := fun d => by
  delta Overdue
  infer_instance

/-- The identifiers of one batch of overdue dialogues, in the order `expires_at, id`. -/
def expiryBatch (lockedDialogues : Finset Uuid) (now : ℤ) (batchSize : ℕ)
    (dialogues : Table DialogState) : List Uuid :=
  ((dialogues.orderedBy (fun d => Overdue now d ∧ d.id ∉ lockedDialogues)
    (Table.Before DialogState.expiresAt DialogState.id)).take batchSize).map (·.id)

/-- The batch takes an overdue dialogue that is free when fewer than `batchSize` such dialogues
come before it. -/
theorem mem_expiryBatch {lockedDialogues : Finset Uuid} {now : ℤ} {batchSize : ℕ}
    {dialogues : Table DialogState} {d : DialogState} (hd : d ∈ dialogues) :
    d.id ∈ expiryBatch lockedDialogues now batchSize dialogues ↔
      Overdue now d ∧ d.id ∉ lockedDialogues ∧
        dialogues.rank (fun e => Overdue now e ∧ e.id ∉ lockedDialogues)
          (Table.Before DialogState.expiresAt DialogState.id) d < batchSize := by
  unfold expiryBatch
  rw [List.mem_map]
  constructor
  · rintro ⟨e,he,hid⟩
    obtain ⟨hm,hp,hlt⟩ := (Table.mem_take_orderedBy fun _ _ h => h).mp he
    obtain rfl : e = d := Table.eq_of_key hm hd hid
    exact ⟨hp.1,hp.2,hlt⟩
  · rintro ⟨ho,hfree,hlt⟩
    exact ⟨d,(Table.mem_take_orderedBy fun _ _ h => h).mpr ⟨hd,⟨ho,hfree⟩,hlt⟩,rfl⟩

/-- The dialogue a token names is gone, has ended, or has moved past the token's version. -/
def Stranded (dialogues : Table DialogState) (t : InteractionToken) : Prop :=
  ∃ id ∈ t.dialogueId, ∀ d ∈ dialogues.select id,
    d.lifecycle ≠ .active ∨ ∃ v ∈ t.expectedDialogueVersion, d.version ≠ v

instance (dialogues : Table DialogState) : DecidablePred (Stranded dialogues) := fun t => by
  delta Stranded
  infer_instance

/-- A deep link stays while its operation has a binding that is not terminal. -/
def Followed (bindings : Table MessageBinding) (t : InteractionToken) : Prop :=
  t.surface = .deepLink ∧
    bindings.any (fun b => some b.operationId = t.operationId ∧ b.terminal = false) = true

instance (bindings : Table MessageBinding) : DecidablePred (Followed bindings) := fun t => by
  delta Followed
  infer_instance

def Removable (dialogues : Table DialogState) (bindings : Table MessageBinding) (now : ℤ)
    (t : InteractionToken) : Prop :=
  (t.consumedAt ≠ none ∨ t.expiresAt ≤ now ∨ Stranded dialogues t) ∧ ¬ Followed bindings t

instance (dialogues : Table DialogState) (bindings : Table MessageBinding) (now : ℤ) :
    DecidablePred (Removable dialogues bindings now) := fun t => by
  delta Removable
  infer_instance

/-- One batch of removable tokens, in the order `expires_at, token`. -/
def tokenBatch (lockedTokens : Finset Token) (now : ℤ) (batchSize : ℕ)
    (dialogues : Table DialogState) (bindings : Table MessageBinding)
    (tokens : Table InteractionToken) : List Token :=
  ((tokens.orderedBy (fun t => Removable dialogues bindings now t ∧ t.token ∉ lockedTokens)
    (Table.Before InteractionToken.expiresAt fun t => t.token.text)).take batchSize).map (·.token)

theorem mem_tokenBatch {lockedTokens : Finset Token} {now : ℤ} {batchSize : ℕ}
    {dialogues : Table DialogState} {bindings : Table MessageBinding}
    {tokens : Table InteractionToken} {t : InteractionToken} (ht : t ∈ tokens) :
    t.token ∈ tokenBatch lockedTokens now batchSize dialogues bindings tokens ↔
      Removable dialogues bindings now t ∧ t.token ∉ lockedTokens ∧
        tokens.rank (fun u => Removable dialogues bindings now u ∧ u.token ∉ lockedTokens)
          (Table.Before InteractionToken.expiresAt fun u => u.token.text) t < batchSize := by
  have htext (t u : InteractionToken) (h : t.token.text = u.token.text) :
      Keyed.key t = Keyed.key u := Token.ext h
  unfold tokenBatch
  rw [List.mem_map]
  constructor
  · rintro ⟨u,hu,htoken⟩
    obtain ⟨hm,hp,hlt⟩ := (Table.mem_take_orderedBy htext).mp hu
    obtain rfl : u = t := Table.eq_of_key hm ht htoken
    exact ⟨hp.1,hp.2,hlt⟩
  · rintro ⟨hrem,hfree,hlt⟩
    exact ⟨t,(Table.mem_take_orderedBy htext).mpr ⟨ht,⟨hrem,hfree⟩,hlt⟩,rfl⟩

/-- An ended dialogue past its retention that no token names. -/
def Retired (tokens : Table InteractionToken) (terminalBefore : ℤ) (d : DialogState) : Prop :=
  d.lifecycle ≠ .active ∧ (∃ t ∈ d.terminalAt, t < terminalBefore) ∧
    tokens.any (·.dialogueId = some d.id) = false

instance (tokens : Table InteractionToken) (terminalBefore : ℤ) :
    DecidablePred (Retired tokens terminalBefore) := fun d => by
  delta Retired
  infer_instance

/-- One batch of retired dialogues, in the order `terminal_at, id`. -/
def retirementBatch (lockedDialogues : Finset Uuid) (terminalBefore : ℤ) (batchSize : ℕ)
    (tokens : Table InteractionToken) (dialogues : Table DialogState) : List Uuid :=
  ((dialogues.orderedBy (fun d => Retired tokens terminalBefore d ∧ d.id ∉ lockedDialogues)
    (Table.Before (fun d => d.terminalAt.getD 0) DialogState.id)).take batchSize).map (·.id)

/-- One pass. Rows that other transactions hold are skipped. -/
def cleanupInteractions (lockedDialogues : Finset Uuid) (lockedTokens : Finset Token)
    (now terminalBefore : ℤ) (batchSize : ℕ) (db : Database) :
    InteractionCleanupCounts × Database :=
  let expired := expiryBatch lockedDialogues now batchSize db.dialogStates
  let dialogues := db.dialogStates.update (·.id ∈ expired) (expireDialogue now)
  let removed := tokenBatch lockedTokens now batchSize dialogues db.messageBindings
    db.interactionTokens
  let tokens := db.interactionTokens.delete (·.token ∈ removed)
  let retired := retirementBatch lockedDialogues terminalBefore batchSize tokens dialogues
  (⟨expired.length,removed.length,retired.length⟩,
    {db with dialogStates := dialogues.delete (·.id ∈ retired), interactionTokens := tokens})

end RatatoskrTelegram
