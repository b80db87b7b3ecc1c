import RatatoskrTelegram.Admission
import RatatoskrTelegram.NotificationPreferences

/-!
# The access gate

`authorize` decides from stored facts whether an update may reach domain processing. Identities
come from the startup bootstrap and from the operator; the gate adds the row of a private chat and
the binding of that chat to its actor, and nothing else.
-/

namespace RatatoskrTelegram

inductive AccessState
  | enabled | disabled
  deriving DecidableEq, Repr

structure IdentityProfile where
  username : Option String
  firstName : Option String
  lastName : Option String
  deriving DecidableEq, Repr

structure IdentityRecord where
  telegramUserId : ℤ
  internalUserId : Option Uuid
  profile : IdentityProfile
  accessState : AccessState
  deriving DecidableEq, Repr

instance : Keyed IdentityRecord ℤ := ⟨IdentityRecord.telegramUserId⟩

@[simp] theorem key_identityRecord (r : IdentityRecord) : Keyed.key r = r.telegramUserId := rfl

/-- The only type of a chat the schema represents is `private`. -/
structure ChatRecord where
  chatId : ℤ
  accessState : AccessState
  deriving DecidableEq, Repr

instance : Keyed ChatRecord ℤ := ⟨ChatRecord.chatId⟩

@[simp] theorem key_chatRecord (r : ChatRecord) : Keyed.key r = r.chatId := rfl

/-- The tables the gate consults, and the preferences a binding brings with it. -/
structure AccessStore where
  identities : Table IdentityRecord
  chats : Table ChatRecord
  privateChatBindings : Table PrivateChatBinding
  notificationPreferences : Table PreferenceRow
  notificationClassPreferences : Table ClassPreference
  deriving DecidableEq

namespace AccessStore

def empty : AccessStore := ⟨.empty,.empty,.empty,.empty,.empty⟩

def preferences (store : AccessStore) : PreferenceStore where
  identities := (store.identities.rows.map (·.telegramUserId)).toFinset
  chats := (store.chats.rows.map (·.chatId)).toFinset
  privateChatBindings := store.privateChatBindings
  notificationPreferences := store.notificationPreferences
  notificationClassPreferences := store.notificationClassPreferences

theorem mem_identities {store : AccessStore} {id : ℤ} :
    id ∈ store.preferences.identities ↔ ∃ r, store.identities.select id = some r := by
  simp only [preferences,List.mem_toFinset,List.mem_map,Table.select_eq_some]
  rfl

theorem mem_chats {store : AccessStore} {id : ℤ} :
    id ∈ store.preferences.chats ↔ ∃ r, store.chats.select id = some r := by
  simp only [preferences,List.mem_toFinset,List.mem_map,Table.select_eq_some]
  rfl

/-- `insert into telegram.identities … on conflict (telegram_user_id) do nothing`. -/
def insertIdentity (telegramUserId : ℤ) (profile : IdentityProfile) (store : AccessStore) :
    AccessStore :=
  {store with
    identities :=
      (store.identities.insert ⟨telegramUserId,none,profile,.enabled⟩).getD store.identities}

def findIdentity (telegramUserId : ℤ) (store : AccessStore) : Option IdentityRecord :=
  store.identities.select telegramUserId

def setInternalUser (internalUserId : Uuid) : Assignment IdentityRecord where
  set r := {r with internalUserId := some internalUserId}
  keepsKey _ := rfl

@[simp] theorem setInternalUser_set (internalUserId : Uuid) (r : IdentityRecord) :
    (setInternalUser internalUserId).set r = {r with internalUserId := some internalUserId} := rfl

/-- `where telegram_user_id = $1 and internal_user_id is distinct from $2`. -/
def Unbound (telegramUserId : ℤ) (internalUserId : Uuid) (r : IdentityRecord) : Prop :=
  r.telegramUserId = telegramUserId ∧ r.internalUserId ≠ some internalUserId

instance (telegramUserId : ℤ) (internalUserId : Uuid) :
    DecidablePred (Unbound telegramUserId internalUserId) := fun r => by
  delta Unbound
  infer_instance

def bindInternalUser (telegramUserId : ℤ) (internalUserId : Uuid) (store : AccessStore) :
    Bool × AccessStore :=
  (store.identities.any (Unbound telegramUserId internalUserId),{store with
    identities := store.identities.update (Unbound telegramUserId internalUserId)
      (setInternalUser internalUserId)})

/-- `insert into telegram.chats … on conflict (chat_id) do nothing`. -/
def insertChat (chatId : ℤ) (store : AccessStore) : AccessStore :=
  {store with chats := (store.chats.insert ⟨chatId,.enabled⟩).getD store.chats}

def findChat (chatId : ℤ) (store : AccessStore) : Option ChatRecord :=
  store.chats.select chatId

def ensureChat (chatId : ℤ) (store : AccessStore) :
    Except PersistenceError ChatRecord × AccessStore :=
  let store := store.insertChat chatId
  match store.findChat chatId with
  | some chat => (.ok chat,store)
  | none => (.error (.query .rowNotFound),store)

/-- `bind_private_chat`, which writes the bindings and the preferences alone. -/
def bindPrivateChat (telegramUserId chatId : ℤ) (store : AccessStore) :
    Except PersistenceError Unit × AccessStore :=
  let bound := RatatoskrTelegram.bindPrivateChat telegramUserId chatId store.preferences
  (bound.1,{store with
    privateChatBindings := bound.2.privateChatBindings
    notificationPreferences := bound.2.notificationPreferences})

end AccessStore

inductive ChatKind
  | privateChat | publicChat
  deriving DecidableEq, Repr

structure Chat where
  id : ℤ
  kind : ChatKind
  deriving DecidableEq, Repr

/-- The id of a user is a `u64`. -/
structure User where
  id : UInt64
  deriving DecidableEq, Repr

structure Message where
  sender : Option User
  chat : Chat
  deriving DecidableEq, Repr

inductive MaybeInaccessibleMessage
  | regular (m : Message)
  | inaccessible (chat : Chat)
  deriving DecidableEq, Repr

def supported : UpdateKind → Bool
  | .message | .editedMessage | .callbackQuery => true
  | _ => false

/-- The parts of an update the gate reads; every kind it does not look at is an `other`. -/
inductive UpdateBody
  | message (m : Message)
  | editedMessage (m : Message)
  | callbackQuery (sender : User) (m : Option MaybeInaccessibleMessage)
  | other (kind : UpdateKind) (unsupported : supported kind = false)
  deriving DecidableEq

def UpdateBody.kind : UpdateBody → UpdateKind
  | message _ => .message
  | editedMessage _ => .editedMessage
  | callbackQuery _ _ => .callbackQuery
  | other kind _ => kind

def resolvableChat : MaybeInaccessibleMessage → Chat
  | .regular m => m.chat
  | .inaccessible chat => chat

/-- The sender and the chat the gate looks at; `none` is a kind it lets through unexamined. -/
def UpdateBody.principals : UpdateBody → Option (Option User × Option Chat)
  | message m | editedMessage m => some (m.sender,some m.chat)
  | callbackQuery sender m => some (some sender,m.map resolvableChat)
  | other _ _ => none

theorem UpdateBody.principals_eq_none (body : UpdateBody) :
    body.principals = none ↔ supported body.kind = false := by
  cases body with
  | message _ | editedMessage _ | callbackQuery _ _ => simp [principals,supported,kind]
  | other k h => simp [principals,kind,h]

def User.senderId (user : User) : Option ℤ :=
  if user.id.toNat < 2 ^ 63 then some user.id.toNat else none

inductive DenialClass
  | unknownSender | disabledIdentity | disabledChat | nonPrivateChat
  deriving DecidableEq, Repr

namespace AccessStore

/-- The part of the gate behind the two tests that write nothing. -/
def admitChat (senderId chatId : ℤ) (store : AccessStore) :
    Except PersistenceError (Option DenialClass) × AccessStore :=
  match store.ensureChat chatId with
  | (.error e,store) => (.error e,store)
  | (.ok chat,store) =>
    if chat.accessState ≠ .enabled then (.ok (some .disabledChat),store)
    else
      match store.bindPrivateChat senderId chatId with
      | (.error e,store) => (.error e,store)
      | (.ok (),store) => (.ok none,store)

/-- `none` admits. -/
def authorize (body : UpdateBody) (store : AccessStore) :
    Except PersistenceError (Option DenialClass) × AccessStore :=
  match body.principals with
  | none => (.ok none,store)
  | some (sender,chat) =>
    match sender.bind User.senderId with
    | none => (.ok (some .unknownSender),store)
    | some senderId =>
      match (store.findIdentity senderId).map IdentityRecord.accessState with
      | none => (.ok (some .unknownSender),store)
      | some .disabled => (.ok (some .disabledIdentity),store)
      | some .enabled =>
        match chat with
        | none => (.ok (some .nonPrivateChat),store)
        | some chat =>
          if chat.kind ≠ .privateChat then (.ok (some .nonPrivateChat),store)
          else store.admitChat senderId chat.id

/-- What the foreign keys of the schema say, and that every binding has its preferences. -/
structure Closed (store : AccessStore) : Prop where
  owner : ∀ b ∈ store.privateChatBindings, ∃ r, store.identities.select b.telegramUserId = some r
  chat : ∀ b ∈ store.privateChatBindings, ∃ r, store.chats.select b.chatId = some r
  bound : ∀ p ∈ store.notificationPreferences,
    store.privateChatBindings.select p.chatId = some ⟨p.telegramUserId,p.chatId⟩
  preferred : ∀ b ∈ store.privateChatBindings,
    ∃ p, store.notificationPreferences.select (b.telegramUserId,b.chatId) = some p

theorem Closed.empty : Closed empty where
  owner b hb := absurd hb (Table.not_mem_empty b)
  chat b hb := absurd hb (Table.not_mem_empty b)
  bound p hp := absurd hp (Table.not_mem_empty p)
  preferred b hb := absurd hb (Table.not_mem_empty b)

def Owns (senderId chatId : ℤ) (store : AccessStore) : Prop :=
  store.privateChatBindings.select chatId = some ⟨senderId,chatId⟩

def Free (senderId chatId : ℤ) (store : AccessStore) : Prop :=
  ∀ b, store.privateChatBindings.select chatId = some b → b.telegramUserId = senderId

/-- The row of a binding, and its default preferences unless it has some. -/
def bound (senderId chatId : ℤ) (store : AccessStore) : AccessStore :=
  {store with
    privateChatBindings := (store.privateChatBindings.insert ⟨senderId,chatId⟩).getD
      store.privateChatBindings
    notificationPreferences := insertDefaults senderId chatId store.notificationPreferences}

variable {store : AccessStore} {senderId chatId : ℤ}

theorem select_insertChat (store : AccessStore) (chatId id : ℤ) :
    (store.insertChat chatId).chats.select id =
      if id = chatId then some ((store.chats.select chatId).getD ⟨chatId,.enabled⟩)
      else store.chats.select id := by
  rw [insertChat,Table.select_insert_getD]
  by_cases h : id = chatId <;> simp [h]

theorem insertChat_of_some {r : ChatRecord} (h : store.chats.select chatId = some r) :
    store.insertChat chatId = store := by
  have hi : store.chats.insert ⟨chatId,.enabled⟩ = none := by
    rw [Table.insert_eq_none]
    intro hn
    rw [show Keyed.key (⟨chatId,.enabled⟩ : ChatRecord) = chatId from rfl,h] at hn
    simp at hn
  rw [insertChat,hi]
  rfl

theorem ensureChat_eq (store : AccessStore) (chatId : ℤ) : store.ensureChat chatId =
    (.ok ((store.chats.select chatId).getD ⟨chatId,.enabled⟩),store.insertChat chatId) := by
  unfold ensureChat findChat
  simp only [select_insertChat,if_true]

theorem bindPrivateChat_foreign {b : PrivateChatBinding}
    (hb : store.privateChatBindings.select chatId = some b) (hne : b.telegramUserId ≠ senderId) :
    store.bindPrivateChat senderId chatId = (.error .chatBoundToAnotherActor,store) := by
  have hi : store.privateChatBindings.insert ⟨senderId,chatId⟩ = none := by
    rw [Table.insert_eq_none]
    intro hn
    rw [key_privateChatBinding,hb] at hn
    simp at hn
  simp only [bindPrivateChat,RatatoskrTelegram.bindPrivateChat,transaction,preferences,hi,hb,hne,
    if_false]

theorem bindPrivateChat_free (hfree : store.Free senderId chatId)
    (hidentity : ∃ r, store.identities.select senderId = some r)
    (hchat : ∃ r, store.chats.select chatId = some r) :
    store.bindPrivateChat senderId chatId = (.ok (),store.bound senderId chatId) := by
  have hkeys : senderId ∈ store.preferences.identities ∧ chatId ∈ store.preferences.chats :=
    ⟨mem_identities.mpr hidentity,mem_chats.mpr hchat⟩
  unfold bindPrivateChat RatatoskrTelegram.bindPrivateChat transaction bound
  cases hi : store.privateChatBindings.insert ⟨senderId,chatId⟩ with
  | some bindings =>
    simp only [show store.preferences.privateChatBindings = store.privateChatBindings from rfl,hi,
      if_pos hkeys,Option.getD_some]
    rfl
  | none =>
    obtain ⟨b,hb⟩ := Option.ne_none_iff_exists'.mp (Table.insert_eq_none.mp hi)
    have hb' : store.privateChatBindings.select chatId = some b := hb
    simp only [show store.preferences.privateChatBindings = store.privateChatBindings from rfl,hi,
      hb',if_pos (hfree b hb'),Option.getD_none]
    rfl

theorem owns_bound (hfree : store.Free senderId chatId) :
    (store.bound senderId chatId).Owns senderId chatId := by
  unfold bound Owns
  cases hi : store.privateChatBindings.insert ⟨senderId,chatId⟩ with
  | some bindings =>
    rw [Option.getD_some,Table.select_insert hi]
    exact if_pos rfl
  | none =>
    obtain ⟨b,hb⟩ := Option.ne_none_iff_exists'.mp (Table.insert_eq_none.mp hi)
    have hb' : store.privateChatBindings.select chatId = some b := hb
    have hkey : b.chatId = chatId := Table.key_of_select hb'
    rw [Option.getD_none,hb',← hfree b hb',← hkey]

def granted (senderId chatId : ℤ) (store : AccessStore) : AccessStore :=
  (store.insertChat chatId).bound senderId chatId

def Open (chatId : ℤ) (store : AccessStore) : Prop :=
  ∀ c, store.chats.select chatId = some c → c.accessState = .enabled

theorem getD_enabled_iff (store : AccessStore) (chatId : ℤ) :
    ((store.chats.select chatId).getD ⟨chatId,.enabled⟩).accessState = .enabled ↔
      store.Open chatId := by
  unfold Open
  cases store.chats.select chatId <;> simp

theorem chat_of_insertChat (store : AccessStore) (chatId : ℤ) :
    ∃ r, (store.insertChat chatId).chats.select chatId = some r :=
  ⟨_,by rw [select_insertChat,if_pos rfl]⟩

theorem admitChat_open (hopen : store.Open chatId) (hfree : store.Free senderId chatId)
    (hidentity : ∃ r, store.identities.select senderId = some r) :
    store.admitChat senderId chatId = (.ok none,store.granted senderId chatId) := by
  have hbind : (store.insertChat chatId).bindPrivateChat senderId chatId =
      (.ok (),store.granted senderId chatId) :=
    bindPrivateChat_free hfree hidentity (store.chat_of_insertChat chatId)
  simp only [admitChat,ensureChat_eq,ne_eq,(store.getD_enabled_iff chatId).mpr hopen,
    not_true_eq_false,if_false,hbind]

theorem admitChat_closed (hclosed : store.Closed)
    (h : ¬ (store.Open chatId ∧ store.Free senderId chatId)) :
    (store.admitChat senderId chatId).1 ≠ .ok none ∧
      (store.admitChat senderId chatId).2 = store := by
  simp only [admitChat,ensureChat_eq]
  by_cases hopen : store.Open chatId
  · have hforeign : ¬ store.Free senderId chatId := fun hfree => h ⟨hopen,hfree⟩
    simp only [Free,not_forall] at hforeign
    obtain ⟨b,hb,hne⟩ := hforeign
    have hkey : b.chatId = chatId := Table.key_of_select hb
    obtain ⟨r,hr⟩ := hclosed.chat b (Table.mem_of_select hb)
    rw [hkey] at hr
    rw [insertChat_of_some hr,bindPrivateChat_foreign hb hne]
    split <;> simp
  · have hdisabled := mt (store.getD_enabled_iff chatId).mp hopen
    cases hr : store.chats.select chatId with
    | none => exact absurd (fun c hc => by simp [hr] at hc) hopen
    | some r =>
      have hstate : ¬ r.accessState = .enabled := by simpa [hr] using hdisabled
      simp [insertChat_of_some hr,hstate]

theorem insertDefaults_of_some {rows : Table PreferenceRow} {p : PreferenceRow}
    (h : rows.select (senderId,chatId) = some p) : insertDefaults senderId chatId rows = rows := by
  have hi : rows.insert (defaultPreferences senderId chatId) = none := by
    rw [Table.insert_eq_none]
    intro hn
    rw [key_preferenceRow] at hn
    exact absurd (hn.symm.trans h) (by simp)
  rw [insertDefaults,hi]
  rfl

theorem exists_insertDefaults (senderId chatId : ℤ) (rows : Table PreferenceRow) :
    ∃ p, (insertDefaults senderId chatId rows).select (senderId,chatId) = some p := by
  unfold insertDefaults
  cases hi : rows.insert (defaultPreferences senderId chatId) with
  | none => exact Option.ne_none_iff_exists'.mp (Table.insert_eq_none.mp hi)
  | some after => exact ⟨_,by rw [Option.getD_some,Table.select_insert hi]; exact if_pos rfl⟩

theorem bound_of_owns (h : store.Owns senderId chatId)
    (hp : ∃ p, store.notificationPreferences.select (senderId,chatId) = some p) :
    store.bound senderId chatId = store := by
  obtain ⟨p,hp⟩ := hp
  have hi : store.privateChatBindings.insert ⟨senderId,chatId⟩ = none := by
    rw [Table.insert_eq_none]
    intro hn
    rw [key_privateChatBinding,h] at hn
    simp at hn
  rw [bound,hi,insertDefaults_of_some hp]
  rfl

theorem granted_granted (hfree : store.Free senderId chatId) :
    (store.granted senderId chatId).granted senderId chatId = store.granted senderId chatId := by
  obtain ⟨r,hr⟩ := store.chat_of_insertChat chatId
  have hchat : (store.granted senderId chatId).chats.select chatId = some r := hr
  have hagain : (store.granted senderId chatId).insertChat chatId =
      store.granted senderId chatId := insertChat_of_some hchat
  have hbound : (store.granted senderId chatId).bound senderId chatId =
      store.granted senderId chatId :=
    bound_of_owns (owns_bound hfree) (exists_insertDefaults senderId chatId _)
  rw [granted,hagain,hbound]

theorem closed_bound (h : store.Closed) (hfree : store.Free senderId chatId)
    (hidentity : ∃ r, store.identities.select senderId = some r)
    (hchat : ∃ r, store.chats.select chatId = some r) : (store.bound senderId chatId).Closed := by
  have howns := owns_bound hfree
  have hmem {b : PrivateChatBinding} (hb : b ∈ (store.bound senderId chatId).privateChatBindings) :
      b ∈ store.privateChatBindings ∨ b = ⟨senderId,chatId⟩ := by
    revert hb
    unfold AccessStore.bound
    cases hi : store.privateChatBindings.insert ⟨senderId,chatId⟩ with
    | none => exact Or.inl
    | some bindings => exact (Table.mem_insert hi).mp
  have hkept {key : ℤ × ℤ} {p : PreferenceRow}
      (hp : store.notificationPreferences.select key = some p) :
      (store.bound senderId chatId).notificationPreferences.select key = some p :=
    insertDefaults_select senderId chatId hp
  refine ⟨?_,?_,?_,?_⟩
  · intro b hb
    rcases hmem hb with hb | rfl
    · exact h.owner b hb
    · exact hidentity
  · intro b hb
    rcases hmem hb with hb | rfl
    · exact h.chat b hb
    · exact hchat
  · intro p hp
    have hold : p ∈ store.notificationPreferences ∨ p = defaultPreferences senderId chatId := by
      revert hp
      show p ∈ insertDefaults senderId chatId store.notificationPreferences → _
      unfold insertDefaults
      cases hi : store.notificationPreferences.insert (defaultPreferences senderId chatId) with
      | none => exact Or.inl
      | some after => exact (Table.mem_insert hi).mp
    rcases hold with hp | rfl
    · have hrow := h.bound p hp
      unfold AccessStore.bound
      cases hi : store.privateChatBindings.insert ⟨senderId,chatId⟩ with
      | none => exact hrow
      | some bindings => exact Table.select_insert_of_some hi hrow
    · exact howns
  · intro b hb
    rcases hmem hb with hb | rfl
    · obtain ⟨p,hp⟩ := h.preferred b hb
      exact ⟨p,hkept hp⟩
    · exact exists_insertDefaults senderId chatId _

theorem closed_insertChat (h : store.Closed) (chatId : ℤ) : (store.insertChat chatId).Closed := by
  refine ⟨h.owner,?_,h.bound,h.preferred⟩
  intro b hb
  obtain ⟨r,hr⟩ := h.chat b hb
  rw [select_insertChat]
  split
  · exact ⟨_,rfl⟩
  · exact ⟨r,hr⟩

/-- What the gate asks of the sender and of the chat of an update. -/
structure Admissible (body : UpdateBody) (senderId chatId : ℤ) (store : AccessStore) : Prop where
  sender : ∃ user, body.principals = some (some user,some ⟨chatId,.privateChat⟩) ∧
    user.senderId = some senderId
  identity : ∃ r, store.identities.select senderId = some r ∧ r.accessState = .enabled
  chat : store.Open chatId
  unowned : store.Free senderId chatId

theorem authorize_admissible {body : UpdateBody} (h : store.Admissible body senderId chatId) :
    store.authorize body = (.ok none,store.granted senderId chatId) := by
  obtain ⟨user,hprincipals,hsender⟩ := h.sender
  obtain ⟨r,hr,hstate⟩ := h.identity
  have hfind : (store.findIdentity senderId).map IdentityRecord.accessState = some .enabled := by
    rw [findIdentity,hr,Option.map_some,hstate]
  simp only [authorize,hprincipals,Option.bind_some,hsender,hfind,ne_eq,not_true_eq_false,if_false]
  exact admitChat_open h.chat h.unowned ⟨r,hr⟩

/-- An update the gate looks at and does not admit leaves the store as it was. -/
theorem authorize_refused {body : UpdateBody} (hclosed : store.Closed)
    (hsupported : supported body.kind = true)
    (h : ∀ senderId chatId, ¬ store.Admissible body senderId chatId) :
    (store.authorize body).1 ≠ .ok none ∧ (store.authorize body).2 = store := by
  unfold authorize
  cases hp : body.principals with
  | none =>
    rw [body.principals_eq_none,hsupported] at hp
    simp at hp
  | some principals =>
    obtain ⟨sender,chat⟩ := principals
    dsimp only
    cases hs : sender.bind User.senderId with
    | none => simp
    | some senderId =>
      dsimp only
      obtain ⟨user,rfl,hid⟩ := Option.bind_eq_some_iff.mp hs
      cases hr : store.findIdentity senderId with
      | none => simp
      | some r =>
        cases hstate : r.accessState with
        | disabled => simp [hstate]
        | enabled =>
          simp only [Option.map_some,hstate]
          cases chat with
          | none => simp
          | some chat =>
            dsimp only
            split
            · simp
            · rename_i hkind
              refine admitChat_closed hclosed ?_
              rintro ⟨hopen,hfree⟩
              refine h senderId chat.id ⟨⟨user,?_,hid⟩,⟨r,hr,hstate⟩,hopen,hfree⟩
              obtain ⟨id,k⟩ := chat
              obtain rfl : k = .privateChat := by simpa using hkind
              exact hp

/-- The gate admits exactly the updates of an enabled sender in a private chat that is not disabled
and that no other actor has. Every other update leaves the store as it was; an admission adds the
rows of the chat and of its binding where they are missing, keeps the foreign keys, and is admitted
again without a further write. -/
theorem authorize_exact {body : UpdateBody} (hclosed : store.Closed)
    (hsupported : supported body.kind = true) :
    ((store.authorize body).1 = .ok none ↔
      ∃ senderId chatId, store.Admissible body senderId chatId) ∧
    ((store.authorize body).1 ≠ .ok none → (store.authorize body).2 = store) ∧
    ∀ senderId chatId, store.Admissible body senderId chatId →
      (store.authorize body).2 = store.granted senderId chatId ∧
      (store.granted senderId chatId).Owns senderId chatId ∧
      (store.granted senderId chatId).Closed ∧
      (store.granted senderId chatId).authorize body =
        (.ok none,store.granted senderId chatId) := by
  have hiff : (store.authorize body).1 = .ok none ↔
      ∃ senderId chatId, store.Admissible body senderId chatId := by
    constructor
    · intro hok
      by_contra hnone
      exact (authorize_refused hclosed hsupported fun s c h => hnone ⟨s,c,h⟩).1 hok
    · rintro ⟨senderId,chatId,h⟩
      rw [authorize_admissible h]
  refine ⟨hiff,?_,?_⟩
  · intro hne
    exact (authorize_refused hclosed hsupported fun s c h => hne (hiff.mpr ⟨s,c,h⟩)).2
  · intro senderId chatId h
    obtain ⟨r,hr,-⟩ := h.identity
    have howns : (store.granted senderId chatId).Owns senderId chatId := owns_bound h.unowned
    have hagain : (store.granted senderId chatId).Admissible body senderId chatId := by
      refine ⟨h.sender,h.identity,?_,?_⟩
      · intro c hc
        have hc' : (store.insertChat chatId).chats.select chatId = some c := hc
        rw [select_insertChat,if_pos rfl] at hc'
        rw [← Option.some.inj hc']
        exact (store.getD_enabled_iff chatId).mpr h.chat
      · intro b hb
        obtain rfl := Option.some.inj (hb.symm.trans howns)
        rfl
    refine ⟨by rw [authorize_admissible h],howns,
      closed_bound (closed_insertChat hclosed chatId) h.unowned ⟨r,hr⟩
        (store.chat_of_insertChat chatId),?_⟩
    rw [authorize_admissible hagain,granted_granted h.unowned]

end AccessStore

namespace FirstContact

def owner : User := ⟨42⟩

def store : AccessStore := AccessStore.empty.insertIdentity 42 ⟨none,none,none⟩

def body : UpdateBody := .message ⟨some owner,⟨42,.privateChat⟩⟩

theorem closed : store.Closed where
  owner b hb := absurd hb (Table.not_mem_empty b)
  chat b hb := absurd hb (Table.not_mem_empty b)
  bound p hp := absurd hp (Table.not_mem_empty p)
  preferred b hb := absurd hb (Table.not_mem_empty b)

theorem admissible : store.Admissible body 42 42 where
  sender := ⟨owner,rfl,rfl⟩
  identity := ⟨⟨42,none,⟨none,none,none⟩,.enabled⟩,rfl,rfl⟩
  chat c hc := by simp [store,AccessStore.insertIdentity,AccessStore.empty] at hc
  unowned b hb := by simp [store,AccessStore.insertIdentity,AccessStore.empty] at hb

theorem admitted : (store.authorize body).1 = .ok none ∧
    (store.authorize body).2 = store.granted 42 42 ∧ (store.granted 42 42).Owns 42 42 := by
  have hsupported : supported body.kind = true := rfl
  obtain ⟨hiff,-,hgrants⟩ := AccessStore.authorize_exact closed hsupported
  have h := hgrants 42 42 admissible
  exact ⟨hiff.mpr ⟨42,42,admissible⟩,h.1,h.2.1⟩

end FirstContact

end RatatoskrTelegram
