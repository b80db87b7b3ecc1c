import RatatoskrTelegram.OutboundJobs

/-!
# Message bindings

A binding anchors an operation to one message of one chat. The message id is
written after a provider acknowledgement only, and renders only move forward.
-/

namespace RatatoskrTelegram

def MessageBinding.Of (operationId : Uuid) (chatId : ℤ) (b : MessageBinding) : Prop :=
  b.operationId = operationId ∧ b.chatId = chatId

instance (operationId : Uuid) (chatId : ℤ) :
    DecidablePred (MessageBinding.Of operationId chatId) := fun b => by
  delta MessageBinding.Of
  infer_instance

/-- The row an insert writes; absent columns take the schema's defaults. -/
def newBinding (id : Uuid) (botId : ℤ) (operationId : Uuid) (chatId : ℤ)
    (messageId : Option ℤ) : MessageBinding where
  id := id
  botId := botId
  operationId := operationId
  chatId := chatId
  messageId := messageId
  lastRenderedRevision := 0
  lastRenderedAt := none
  lastEventAt := none
  terminal := false

/-- `insert … on conflict (operation_id, chat_id) do nothing`. -/
def insertBindingIfAbsent (id : Uuid) (botId : ℤ) (operationId : Uuid) (chatId : ℤ)
    (bindings : Table MessageBinding) : Table MessageBinding :=
  (bindings.insert (newBinding id botId operationId chatId none)).getD bindings

def bindMessage (messageId : Option ℤ) : Assignment MessageBinding where
  set b := {b with messageId := messageId}
  keepsKey _ := rfl

@[simp] theorem bindMessage_set (messageId : Option ℤ) (b : MessageBinding) :
    (bindMessage messageId).set b = {b with messageId := messageId} := rfl

/-- `insert … on conflict (operation_id, chat_id) do update set message_id = …`. -/
def upsertMessageId (id : Uuid) (botId : ℤ) (operationId : Uuid) (chatId messageId : ℤ)
    (bindings : Table MessageBinding) : Table MessageBinding :=
  (bindings.insert (newBinding id botId operationId chatId (some messageId))).getD
    (bindings.update (MessageBinding.Of operationId chatId) (bindMessage (some messageId)))

/-- The guard of a render: the row names the binding and has rendered less. -/
def Renders (operationId : Uuid) (chatId revision : ℤ) (b : MessageBinding) : Prop :=
  b.Of operationId chatId ∧ b.lastRenderedRevision < revision

instance (operationId : Uuid) (chatId revision : ℤ) :
    DecidablePred (Renders operationId chatId revision) := fun b => by
  delta Renders
  infer_instance

def renderBinding (revision renderedAt : ℤ) : Assignment MessageBinding where
  set b := {b with lastRenderedRevision := revision, lastRenderedAt := some renderedAt}
  keepsKey _ := rfl

@[simp] theorem renderBinding_set (revision renderedAt : ℤ) (b : MessageBinding) :
    (renderBinding revision renderedAt).set b =
      {b with lastRenderedRevision := revision, lastRenderedAt := some renderedAt} := rfl

def advanceRender (operationId : Uuid) (chatId revision renderedAt : ℤ) :
    Database → Except PersistenceError Bool × Database :=
  transaction fun db =>
    if db.messageBindings.any (Renders operationId chatId revision) then
      .commit true {db with
        messageBindings := db.messageBindings.update (Renders operationId chatId revision)
          (renderBinding revision renderedAt)}
    else .rollback false

def unbindMessage (operationId : Uuid) (chatId : ℤ) :
    Database → Except PersistenceError Unit × Database :=
  transaction fun db =>
    if db.messageBindings.any (MessageBinding.Of operationId chatId) then
      .commit () {db with
        messageBindings := db.messageBindings.update (MessageBinding.Of operationId chatId)
          (bindMessage none)}
    else .abort .unknownBinding

def findBinding (operationId : Uuid) (chatId : ℤ) (db : Database) : Option MessageBinding :=
  db.messageBindings.select (operationId,chatId)

/-- The columns no statement writes stay, and renders, watermark and flag only move forward. -/
structure MessageBinding.Advances (b c : MessageBinding) : Prop where
  botId : c.botId = b.botId
  operationId : c.operationId = b.operationId
  chatId : c.chatId = b.chatId
  render : b.lastRenderedRevision ≤ c.lastRenderedRevision
  watermark : ∀ w ∈ b.lastEventAt, ∃ w' ∈ c.lastEventAt, w ≤ w'
  terminal : b.terminal = true → c.terminal = true

namespace MessageBinding.Advances

theorem refl (b : MessageBinding) : b.Advances b :=
  ⟨rfl,rfl,rfl,le_rfl,fun w hw => ⟨w,hw,le_rfl⟩,fun h => h⟩

theorem trans (a b c : MessageBinding) (h : a.Advances b) (k : b.Advances c) : a.Advances c where
  botId := k.botId.trans h.botId
  operationId := k.operationId.trans h.operationId
  chatId := k.chatId.trans h.chatId
  render := h.render.trans k.render
  watermark w hw := by
    obtain ⟨w1,hw1,h1⟩ := h.watermark w hw
    obtain ⟨w2,hw2,h2⟩ := k.watermark w1 hw1
    exact ⟨w2,hw2,h1.trans h2⟩
  terminal ht := k.terminal (h.terminal ht)

end MessageBinding.Advances

theorem MessageBinding.of_iff {operationId : Uuid} {chatId : ℤ} {b : MessageBinding} :
    b.Of operationId chatId ↔ Keyed.key b = (operationId,chatId) := by
  simp [MessageBinding.Of]

theorem insertBindingIfAbsent_select (id : Uuid) (botId : ℤ) (operationId : Uuid) (chatId : ℤ)
    (bindings : Table MessageBinding) (key : Uuid × ℤ) :
    (insertBindingIfAbsent id botId operationId chatId bindings).select key =
      (bindings.select key).or
        (if key = (operationId,chatId) then some (newBinding id botId operationId chatId none)
          else none) := by
  unfold insertBindingIfAbsent
  cases h : bindings.insert (newBinding id botId operationId chatId none) with
  | none =>
    have hs := Table.insert_eq_none.mp h
    by_cases hk : key = (operationId,chatId)
    · subst hk
      cases hb : bindings.select (operationId,chatId) with
      | none => exact absurd hb hs
      | some b => simp [hb]
    · simp [hk]
  | some after =>
    have hs := (Table.insert_eq_some.mp h).1
    simp only [Option.getD_some,Table.select_insert h]
    by_cases hk : key = (operationId,chatId)
    · subst hk
      have hn : bindings.select (operationId,chatId) = none := hs
      simp [newBinding,hn]
    · simp [newBinding,hk]

theorem upsertMessageId_select (id : Uuid) (botId : ℤ) (operationId : Uuid) (chatId messageId : ℤ)
    (bindings : Table MessageBinding) (key : Uuid × ℤ) :
    (upsertMessageId id botId operationId chatId messageId bindings).select key =
      if key = (operationId,chatId) then
        some (match bindings.select key with
          | none => newBinding id botId operationId chatId (some messageId)
          | some b => (bindMessage (some messageId)).set b)
      else bindings.select key := by
  have hof : MessageBinding.Of operationId chatId = fun b => Keyed.key b = (operationId,chatId) := by
    funext b
    exact propext MessageBinding.of_iff
  have hupsert := Table.select_upsert bindings
    (newBinding id botId operationId chatId (some messageId)) (bindMessage (some messageId)) key
  simp only [upsertMessageId,hof]
  refine hupsert.trans ?_
  cases hb : bindings.select key with
  | none => rfl
  | some b => rfl

end RatatoskrTelegram
