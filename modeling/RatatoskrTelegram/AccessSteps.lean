import Mathlib.Logic.Function.Basic
import RatatoskrTelegram.Access
import RatatoskrTelegram.Histories

/-!
# Passes of the access gate

Any number of workers take updates through the gate, statement by statement, over one store that
the bootstrap, the exchange hook and the operator write as well. A statement may be lost with or
without its effect, and a worker may stop for good between any two.
-/

namespace RatatoskrTelegram

/-- The statement a pass comes to next, with what it has read. -/
inductive GateStage
  | idle
  | finding (senderId : ℤ) (chat : Option Chat)
  | inserting (senderId chatId : ℤ)
  | reading (senderId chatId : ℤ)
  | binding (senderId chatId : ℤ)
  | admitted (senderId chatId : ℤ)
  | unexamined
  | refused (denial : DenialClass)
  | failed (cause : PersistenceError)
  deriving DecidableEq, Repr

namespace GateStage

def begin (body : UpdateBody) : GateStage :=
  match body.principals with
  | none => unexamined
  | some (sender,chat) =>
    match sender.bind User.senderId with
    | none => refused .unknownSender
    | some senderId => finding senderId chat

def identified (senderId : ℤ) (chat : Option Chat) (found : Option IdentityRecord) : GateStage :=
  match found.map IdentityRecord.accessState with
  | none => refused .unknownSender
  | some .disabled => refused .disabledIdentity
  | some .enabled =>
    match chat with
    | none => refused .nonPrivateChat
    | some chat =>
      if chat.kind ≠ .privateChat then refused .nonPrivateChat else inserting senderId chat.id

def evaluated (senderId chatId : ℤ) (found : Option ChatRecord) : GateStage :=
  match found with
  | none => failed (.query .rowNotFound)
  | some chat => if chat.accessState ≠ .enabled then refused .disabledChat else binding senderId chatId

/-- The next statement of a pass, against the store it meets. -/
def next (store : AccessStore) : GateStage → Option (GateStage × AccessStore)
  | finding senderId chat => some (identified senderId chat (store.findIdentity senderId),store)
  | inserting senderId chatId => some (reading senderId chatId,store.insertChat chatId)
  | reading senderId chatId => some (evaluated senderId chatId (store.findChat chatId),store)
  | binding senderId chatId =>
    match store.bindPrivateChat senderId chatId with
    | (.ok (),store) => some (admitted senderId chatId,store)
    | (.error e,store) => some (failed e,store)
  | _ => none

def verdict : GateStage → Option (Except PersistenceError (Option DenialClass))
  | admitted _ _ | unexamined => some (.ok none)
  | refused denial => some (.ok (some denial))
  | failed cause => some (.error cause)
  | _ => none

/-- The statements of a pass with nothing between them. -/
def finish (store : AccessStore) : ℕ → GateStage → GateStage × AccessStore
  | 0, stage => (stage,store)
  | fuel + 1, stage =>
    match stage.next store with
    | none => (stage,store)
    | some (stage,store) => finish store fuel stage

/-- A pass nobody interrupts is `authorize`. -/
theorem finish_begin (body : UpdateBody) (store : AccessStore) :
    (finish store 4 (begin body)).1.verdict = some (store.authorize body).1 ∧
      (finish store 4 (begin body)).2 = (store.authorize body).2 := by
  unfold begin AccessStore.authorize
  cases body.principals with
  | none => exact ⟨rfl,rfl⟩
  | some principals =>
    obtain ⟨sender,chat⟩ := principals
    dsimp only
    cases sender.bind User.senderId with
    | none => exact ⟨rfl,rfl⟩
    | some senderId =>
      simp only [finish,next,identified]
      cases (store.findIdentity senderId).map IdentityRecord.accessState with
      | none => exact ⟨rfl,rfl⟩
      | some state =>
        cases state with
        | disabled => exact ⟨rfl,rfl⟩
        | enabled =>
          cases chat with
          | none => exact ⟨rfl,rfl⟩
          | some chat =>
            dsimp only
            by_cases hkind : chat.kind ≠ .privateChat
            · simp only [if_pos hkind]
              exact ⟨rfl,trivial⟩
            · simp only [if_neg hkind,AccessStore.admitChat,AccessStore.ensureChat,evaluated]
              cases (store.insertChat chat.id).findChat chat.id with
              | none => exact ⟨rfl,rfl⟩
              | some row =>
                dsimp only
                by_cases hstate : row.accessState ≠ .enabled
                · simp only [if_pos hstate]
                  exact ⟨rfl,trivial⟩
                · simp only [if_neg hstate]
                  cases (store.insertChat chat.id).bindPrivateChat senderId chat.id with
                  | mk outcome after => cases outcome <;> exact ⟨rfl,rfl⟩

end GateStage

def setIdentityState (state : AccessState) : Assignment IdentityRecord where
  set r := {r with accessState := state}
  keepsKey _ := rfl

def setChatState (state : AccessState) : Assignment ChatRecord where
  set r := {r with accessState := state}
  keepsKey _ := rfl

/-- What is written outside the gate: by the bootstrap, by a session exchange, by the operator. -/
inductive AccessWrite
  | bootstrap (telegramUserId : ℤ) (profile : IdentityProfile)
  | exchange (telegramUserId : ℤ) (internalUserId : Uuid)
  | enroll (identity : IdentityRecord)
  | setIdentity (telegramUserId : ℤ) (state : AccessState)
  | setChat (chatId : ℤ) (state : AccessState)
  deriving DecidableEq

namespace AccessWrite

def apply (store : AccessStore) : AccessWrite → AccessStore
  | bootstrap telegramUserId profile => store.insertIdentity telegramUserId profile
  | exchange telegramUserId internalUserId =>
    (store.bindInternalUser telegramUserId internalUserId).2
  | enroll identity =>
    {store with identities := (store.identities.insert identity).getD store.identities}
  | setIdentity telegramUserId state =>
    {store with
      identities := store.identities.update (·.telegramUserId = telegramUserId)
        (setIdentityState state)}
  | setChat chatId state =>
    {store with chats := store.chats.update (·.chatId = chatId) (setChatState state)}

def Governs (telegramUserId : ℤ) : AccessWrite → Prop
  | bootstrap id _ | setIdentity id _ => id = telegramUserId
  | enroll identity => identity.telegramUserId = telegramUserId
  | exchange _ _ | setChat _ _ => False

end AccessWrite

structure AccessSystem where
  store : AccessStore
  passes : ℕ → GateStage

/-- `ends` is a worker that is gone, or that goes on to its next update. -/
inductive AccessAction
  | begins (pass : ℕ) (body : UpdateBody)
  | proceeds (pass : ℕ)
  | loses (pass : ℕ) (applied : Bool) (cause : PersistenceError)
  | ends (pass : ℕ)
  | writes (w : AccessWrite)
  deriving DecidableEq

namespace AccessSystem

def start (store : AccessStore) : AccessSystem := ⟨store,fun _ => .idle⟩

def goes (s : AccessSystem) (pass : ℕ) (stage : GateStage) (store : AccessStore) : AccessSystem :=
  ⟨store,Function.update s.passes pass stage⟩

def step (s : AccessSystem) : AccessAction → Option AccessSystem
  | .begins pass body =>
    if s.passes pass = .idle then some (s.goes pass (.begin body) s.store) else none
  | .proceeds pass => ((s.passes pass).next s.store).map fun after => s.goes pass after.1 after.2
  | .loses pass applied cause => ((s.passes pass).next s.store).map fun after =>
      s.goes pass (.failed cause) (if applied then after.2 else s.store)
  | .ends pass => some (s.goes pass .idle s.store)
  | .writes w => some {s with store := w.apply s.store}

abbrev Steps (s : AccessSystem) (a : AccessAction) (t : AccessSystem) : Prop := step s a = some t

abbrev Runs (store : AccessStore) (tr : List AccessAction) (s : AccessSystem) : Prop :=
  Run Steps (start store) tr s

/-- What a step does to the store and to each pass. -/
inductive Moves (s : AccessSystem) : AccessAction → AccessSystem → Prop
  | began {pass : ℕ} {body : UpdateBody} : s.passes pass = .idle →
      Moves s (.begins pass body) (s.goes pass (.begin body) s.store)
  | proceeded {pass : ℕ} {stage : GateStage} {store : AccessStore} :
      (s.passes pass).next s.store = some (stage,store) →
      Moves s (.proceeds pass) (s.goes pass stage store)
  | lost {pass : ℕ} {applied : Bool} {cause : PersistenceError} {stage : GateStage}
      {store : AccessStore} : (s.passes pass).next s.store = some (stage,store) →
      Moves s (.loses pass applied cause)
        (s.goes pass (.failed cause) (if applied then store else s.store))
  | ended {pass : ℕ} : Moves s (.ends pass) (s.goes pass .idle s.store)
  | wrote {w : AccessWrite} : Moves s (.writes w) {s with store := w.apply s.store}

theorem moves_of_step {s t : AccessSystem} {a : AccessAction} (h : Steps s a t) : Moves s a t := by
  cases a with
  | begins pass body =>
    simp only [Steps,step] at h
    split at h
    · rename_i hidle
      obtain rfl := Option.some.inj h
      exact .began hidle
    · simp at h
  | proceeds pass =>
    obtain ⟨⟨stage,store⟩,hn,rfl⟩ := Option.map_eq_some_iff.mp h
    exact .proceeded hn
  | loses pass applied cause =>
    obtain ⟨⟨stage,store⟩,hn,rfl⟩ := Option.map_eq_some_iff.mp h
    exact .lost hn
  | ends pass =>
    obtain rfl := Option.some.inj h
    exact .ended
  | writes w =>
    obtain rfl := Option.some.inj h
    exact .wrote

end AccessSystem

/-- A statement of the gate leaves the store, adds the row of a chat, or binds a chat. -/
inductive GateStage.Writes (store : AccessStore) : GateStage → AccessStore → Prop
  | reads {stage : GateStage} : Writes store stage store
  | inserted (senderId chatId : ℤ) :
      Writes store (.inserting senderId chatId) (store.insertChat chatId)
  | bound (senderId chatId : ℤ) : store.Free senderId chatId →
      (store.Owns senderId chatId ∨ (∃ r, store.identities.select senderId = some r) ∧
        ∃ r, store.chats.select chatId = some r) →
      Writes store (.binding senderId chatId) (store.bound senderId chatId)

namespace AccessStore

variable {store : AccessStore} {senderId chatId : ℤ}

theorem bindPrivateChat_cases (senderId chatId : ℤ) (store : AccessStore) :
    (∃ e, store.bindPrivateChat senderId chatId = (.error e,store)) ∨
    (store.bindPrivateChat senderId chatId = (.ok (),store.bound senderId chatId) ∧
      store.Free senderId chatId ∧
      (store.Owns senderId chatId ∨ (∃ r, store.identities.select senderId = some r) ∧
        ∃ r, store.chats.select chatId = some r)) := by
  cases hs : store.privateChatBindings.select chatId with
  | some b =>
    have hkey : b.chatId = chatId := Table.key_of_select hs
    by_cases hb : b.telegramUserId = senderId
    · right
      have howns : store.Owns senderId chatId := by
        rw [Owns,hs,← hb,← hkey]
      have hfree : store.Free senderId chatId := by
        intro c hc
        obtain rfl := Option.some.inj (hs.symm.trans hc)
        exact hb
      refine ⟨?_,hfree,Or.inl howns⟩
      have hi : store.privateChatBindings.insert ⟨senderId,chatId⟩ = none := by
        rw [Table.insert_eq_none,key_privateChatBinding,hs]
        simp
      simp only [bindPrivateChat,RatatoskrTelegram.bindPrivateChat,transaction,preferences,hi,hs,hb,
        if_true,bound,Option.getD_none]
    · exact Or.inl ⟨_,bindPrivateChat_foreign hs hb⟩
  | none =>
    have hfree : store.Free senderId chatId := by
      intro b hb
      rw [hs] at hb
      simp at hb
    by_cases hkeys : senderId ∈ store.preferences.identities ∧ chatId ∈ store.preferences.chats
    · have hidentity := mem_identities.mp hkeys.1
      have hchat := mem_chats.mp hkeys.2
      exact Or.inr ⟨bindPrivateChat_free hfree hidentity hchat,hfree,Or.inr ⟨hidentity,hchat⟩⟩
    · left
      cases hi : store.privateChatBindings.insert ⟨senderId,chatId⟩ with
      | none =>
        rw [Table.insert_eq_none,key_privateChatBinding] at hi
        exact absurd hs hi
      | some bindings =>
        refine ⟨.query .foreignKeyViolation,?_⟩
        unfold bindPrivateChat RatatoskrTelegram.bindPrivateChat transaction
        simp only [show store.preferences.privateChatBindings = store.privateChatBindings from rfl,
          hi,if_neg hkeys]
        rfl

end AccessStore

theorem GateStage.next_writes {store after : AccessStore} {stage stage' : GateStage}
    (h : stage.next store = some (stage',after)) : stage.Writes store after := by
  unfold next at h
  cases stage with
  | finding senderId chat =>
    obtain ⟨-,rfl⟩ := Prod.mk.inj (Option.some.inj h)
    exact .reads
  | inserting senderId chatId =>
    obtain ⟨-,rfl⟩ := Prod.mk.inj (Option.some.inj h)
    exact .inserted senderId chatId
  | reading senderId chatId =>
    obtain ⟨-,rfl⟩ := Prod.mk.inj (Option.some.inj h)
    exact .reads
  | binding senderId chatId =>
    rcases store.bindPrivateChat_cases senderId chatId with ⟨e,hb⟩ | ⟨hb,hfree,hkeys⟩
    · simp only [hb] at h
      obtain ⟨-,rfl⟩ := Prod.mk.inj (Option.some.inj h)
      exact .reads
    · simp only [hb] at h
      obtain ⟨-,rfl⟩ := Prod.mk.inj (Option.some.inj h)
      exact .bound senderId chatId hfree hkeys
  | _ => simp at h

end RatatoskrTelegram
