import RatatoskrTelegram.NotificationDelivery

/-!
# Notification preferences

One row an actor and private chat, under a version, and one row for each class
the actor has switched. A write names the version it was computed from.
-/

namespace RatatoskrTelegram

/-- The `QuietPolicy` a user selects, beside the minutes after UTC midnight that `QuietPolicy`, its
column, leaves to two others. -/
inductive QuietSelection
  | disabled
  | inherit
  | custom (startMinute endMinute : ℕ)
  deriving DecidableEq, Repr

structure QuietColumns where
  policy : QuietPolicy
  startMinute : Option ℤ
  endMinute : Option ℤ
  inDay : ∀ m, startMinute = some m ∨ endMinute = some m → 0 ≤ m ∧ m ≤ 1439
  window : (policy = .custom ∧ startMinute ≠ none ∧ endMinute ≠ none ∧ startMinute ≠ endMinute) ∨
    (policy ≠ .custom ∧ startMinute = none ∧ endMinute = none)
  deriving DecidableEq

namespace QuietSelection

def columns : QuietSelection → Except PersistenceError QuietColumns
  | disabled => .ok ⟨.disabled,none,none,by simp,by simp⟩
  | inherit => .ok ⟨.inherit,none,none,by simp,by simp⟩
  | custom startMinute endMinute =>
    if h : startMinute < 1440 ∧ endMinute < 1440 ∧ startMinute ≠ endMinute then
      .ok ⟨.custom,some startMinute,some endMinute,
        by
          rintro m (hm | hm)
          · obtain rfl : (startMinute : ℤ) = m := Option.some.inj hm
            omega
          · obtain rfl : (endMinute : ℤ) = m := Option.some.inj hm
            omega,
        Or.inl ⟨rfl,by simp,by simp,fun he => h.2.2 (Int.ofNat_inj.mp (Option.some.inj he))⟩⟩
    else .error .invalidPreference

def minute (column : ℤ) : Except PersistenceError ℕ :=
  if 0 ≤ column then .ok column.toNat else .error .invalidPreference

def fromColumns (c : QuietColumns) : Except PersistenceError QuietSelection :=
  match c.policy, c.startMinute, c.endMinute with
  | .disabled, none, none => .ok disabled
  | .inherit, none, none => .ok inherit
  | .custom, some startColumn, some endColumn => do
    let startMinute ← minute startColumn
    let endMinute ← minute endColumn
    .ok (custom startMinute endMinute)
  | _, _, _ => .error .invalidPreference

/-- What a policy is stored as reads back as that policy. -/
theorem fromColumns_columns {p : QuietSelection} {c : QuietColumns} (h : p.columns = .ok c) :
    fromColumns c = .ok p := by
  cases p with
  | disabled => cases h; rfl
  | inherit => cases h; rfl
  | custom startMinute endMinute =>
    by_cases hv : startMinute < 1440 ∧ endMinute < 1440 ∧ startMinute ≠ endMinute
    · obtain rfl := Except.ok.inj ((dif_pos hv).symm.trans h)
      simp [fromColumns,minute,bind,Except.bind]
    · exact absurd ((dif_neg hv).symm.trans h) (by simp)

theorem fromColumns_total (c : QuietColumns) : ∃ p, fromColumns c = .ok p := by
  obtain ⟨policy,startMinute,endMinute,hday,hwindow⟩ := c
  rcases hwindow with ⟨rfl,hs,he,_⟩ | ⟨hp,rfl,rfl⟩
  · obtain ⟨s,rfl⟩ := Option.ne_none_iff_exists'.mp hs
    obtain ⟨e,rfl⟩ := Option.ne_none_iff_exists'.mp he
    have h0 := (hday s (Or.inl rfl)).1
    have h1 := (hday e (Or.inr rfl)).1
    exact ⟨custom s.toNat e.toNat,by simp [fromColumns,minute,bind,Except.bind,h0,h1]⟩
  · cases policy with
    | disabled => exact ⟨disabled,rfl⟩
    | inherit => exact ⟨inherit,rfl⟩
    | custom => exact absurd rfl hp

end QuietSelection

structure PrivateChatBinding where
  telegramUserId : ℤ
  chatId : ℤ
  deriving DecidableEq, Repr

/-- `unique (chat_id)`. -/
instance : Keyed PrivateChatBinding ℤ := ⟨PrivateChatBinding.chatId⟩

@[simp] theorem key_privateChatBinding (b : PrivateChatBinding) : Keyed.key b = b.chatId := rfl

structure PreferenceRow where
  telegramUserId : ℤ
  chatId : ℤ
  enabled : Bool
  quiet : QuietColumns
  highPriorityBypass : Bool
  version : ℤ
  deriving DecidableEq

instance : Keyed PreferenceRow (ℤ × ℤ) := ⟨fun r => (r.telegramUserId,r.chatId)⟩

@[simp] theorem key_preferenceRow (r : PreferenceRow) :
    Keyed.key r = (r.telegramUserId,r.chatId) := rfl

/-- `valid_class`, on the characters of the class; it is the row check as well. -/
def validClass (text : String) : Bool :=
  match text.toList with
  | [] => false
  | first :: rest => first.isLower && decide (rest.length < 32) &&
      rest.all fun c => c.isLower || c.isDigit || c = '_' || c = '-'

structure ClassPreference where
  telegramUserId : ℤ
  chatId : ℤ
  notificationClass : String
  enabled : Bool
  checked : validClass notificationClass = true
  deriving DecidableEq

instance : Keyed ClassPreference (ℤ × ℤ × String) :=
  ⟨fun r => (r.telegramUserId,r.chatId,r.notificationClass)⟩

@[simp] theorem key_classPreference (r : ClassPreference) :
    Keyed.key r = (r.telegramUserId,r.chatId,r.notificationClass) := rfl

/-- The tables of the preferences, with the ids their foreign keys may name. -/
structure PreferenceStore where
  identities : Finset ℤ
  chats : Finset ℤ
  privateChatBindings : Table PrivateChatBinding
  notificationPreferences : Table PreferenceRow
  notificationClassPreferences : Table ClassPreference
  deriving DecidableEq

/-- One preference snapshot; `classOverrides` is the map of the explicit class toggles. -/
structure NotificationPreferences where
  telegramUserId : ℤ
  chatId : ℤ
  enabled : Bool
  quietPolicy : QuietSelection
  highPriorityBypass : Bool
  version : ℤ
  classOverrides : String → Option Bool

namespace PreferenceStore

/-- The first statement of `notification_preferences`. -/
def readRow (key : ℤ × ℤ) (store : PreferenceStore) : Option PreferenceRow :=
  store.notificationPreferences.select key

/-- Its second statement, which sees its own snapshot of the tables. -/
def readOverrides (key : ℤ × ℤ) (store : PreferenceStore) (notificationClass : String) :
    Option Bool :=
  (store.notificationClassPreferences.select (key.1,key.2,notificationClass)).map (·.enabled)

end PreferenceStore

/-- What `notification_preferences` builds of the rows of its two statements. -/
def PreferenceRow.snapshot (row : PreferenceRow) (overrides : String → Option Bool) :
    Except PersistenceError NotificationPreferences :=
  match QuietSelection.fromColumns row.quiet with
  | .error e => .error e
  | .ok quietPolicy => .ok {
      telegramUserId := row.telegramUserId
      chatId := row.chatId
      enabled := row.enabled
      quietPolicy := quietPolicy
      highPriorityBypass := row.highPriorityBypass
      version := row.version
      classOverrides := overrides}

theorem PreferenceRow.snapshot_total (row : PreferenceRow) (overrides : String → Option Bool) :
    ∃ p, row.snapshot overrides = .ok p := by
  obtain ⟨quietPolicy,h⟩ := QuietSelection.fromColumns_total row.quiet
  exact ⟨_,by rw [snapshot,h]⟩

/-- The two statements with nothing between them. -/
def notificationPreferences (key : ℤ × ℤ) (store : PreferenceStore) :
    Except PersistenceError (Option NotificationPreferences) :=
  match store.readRow key with
  | none => .ok none
  | some row => (row.snapshot (store.readOverrides key)).map some

theorem notificationPreferences_eq {key : ℤ × ℤ} {store : PreferenceStore}
    {p : NotificationPreferences} : notificationPreferences key store = .ok (some p) ↔
      ∃ row, store.notificationPreferences.select key = some row ∧
        row.snapshot (store.readOverrides key) = .ok p := by
  unfold notificationPreferences PreferenceStore.readRow
  cases store.notificationPreferences.select key with
  | none => simp
  | some row => cases h : row.snapshot (store.readOverrides key) <;> simp [Except.map,h]

theorem notificationPreferences_of_row {key : ℤ × ℤ} {store : PreferenceStore}
    {row : PreferenceRow} (h : store.notificationPreferences.select key = some row) :
    ∃ p, notificationPreferences key store = .ok (some p) := by
  obtain ⟨p,hp⟩ := row.snapshot_total (store.readOverrides key)
  exact ⟨p,notificationPreferences_eq.mpr ⟨row,h,hp⟩⟩

/-- `classOverride` upserts (`some`) or removes (`none`) one override. -/
structure NotificationPreferenceUpdate where
  enabled : Bool
  quietPolicy : QuietSelection
  highPriorityBypass : Bool
  classOverride : Option (String × Option Bool)
  deriving DecidableEq, Repr

abbrev ClassOverride := {o : String × Option Bool // validClass o.1 = true}

def NotificationPreferenceUpdate.checkedOverride (update : NotificationPreferenceUpdate) :
    Except PersistenceError (Option ClassOverride) :=
  match update.classOverride with
  | none => .ok none
  | some o => if h : validClass o.1 = true then .ok (some ⟨o,h⟩) else .error .invalidPreference

def rewritePreferences (update : NotificationPreferenceUpdate) (columns : QuietColumns) :
    Assignment PreferenceRow where
  set r := {r with
    enabled := update.enabled
    quiet := columns
    highPriorityBypass := update.highPriorityBypass
    version := r.version + 1}
  keepsKey _ := rfl

@[simp] theorem rewritePreferences_set (update : NotificationPreferenceUpdate)
    (columns : QuietColumns) (r : PreferenceRow) : (rewritePreferences update columns).set r =
      {r with
        enabled := update.enabled
        quiet := columns
        highPriorityBypass := update.highPriorityBypass
        version := r.version + 1} := rfl

/-- `where telegram_user_id = … and chat_id = … and version = …`. -/
def PreferenceRow.AtVersion (key : ℤ × ℤ) (version : ℤ) (r : PreferenceRow) : Prop :=
  Keyed.key r = key ∧ r.version = version

instance (key : ℤ × ℤ) (version : ℤ) : DecidablePred (PreferenceRow.AtVersion key version) :=
  fun r => by
    delta PreferenceRow.AtVersion
    infer_instance

def setClassEnabled (enabled : Bool) : Assignment ClassPreference where
  set r := {r with enabled := enabled}
  keepsKey _ := rfl

def overrideRow (key : ℤ × ℤ) (o : ClassOverride) (enabled : Bool) : ClassPreference :=
  ⟨key.1,key.2,o.1.1,enabled,o.2⟩

def writeOverride (key : ℤ × ℤ) (override : Option ClassOverride)
    (classes : Table ClassPreference) : Table ClassPreference :=
  match override with
  | none => classes
  | some o =>
    match o.1.2 with
    | some enabled => (classes.insert (overrideRow key o enabled)).getD
        (classes.update (Keyed.key · = Keyed.key (overrideRow key o enabled))
          (setClassEnabled enabled))
    | none => classes.delete (Keyed.key · = (key.1,key.2,o.1.1))

/-- `update_notification_preferences` up to its commit; what it reports is read afterwards. -/
def writeNotificationPreferences (key : ℤ × ℤ) (expectedVersion : ℤ)
    (update : NotificationPreferenceUpdate) :
    PreferenceStore → Except PersistenceError Unit × PreferenceStore :=
  transaction fun store =>
    match update.quietPolicy.columns, update.checkedOverride with
    | .error e, _ => .abort e
    | .ok _, .error e => .abort e
    | .ok columns, .ok override =>
      if store.notificationPreferences.any (PreferenceRow.AtVersion key expectedVersion) then
        .commit () {store with
          notificationPreferences := store.notificationPreferences.update
            (PreferenceRow.AtVersion key expectedVersion) (rewritePreferences update columns)
          notificationClassPreferences :=
            writeOverride key override store.notificationClassPreferences}
      else .abort .stalePreference

def defaultPreferences (telegramUserId chatId : ℤ) : PreferenceRow where
  telegramUserId := telegramUserId
  chatId := chatId
  enabled := true
  quiet := ⟨.inherit,none,none,by simp,by simp⟩
  highPriorityBypass := false
  version := 0

def insertDefaults (telegramUserId chatId : ℤ) (rows : Table PreferenceRow) :
    Table PreferenceRow :=
  (rows.insert (defaultPreferences telegramUserId chatId)).getD rows

def bindPrivateChat (telegramUserId chatId : ℤ) :
    PreferenceStore → Except PersistenceError Unit × PreferenceStore :=
  transaction fun store =>
    match store.privateChatBindings.insert ⟨telegramUserId,chatId⟩ with
    | some bindings =>
      if telegramUserId ∈ store.identities ∧ chatId ∈ store.chats then
        .commit () {store with
          privateChatBindings := bindings
          notificationPreferences :=
            insertDefaults telegramUserId chatId store.notificationPreferences}
      else .abort (.query .foreignKeyViolation)
    | none =>
      match store.privateChatBindings.select chatId with
      | none => .abort (.query .rowNotFound)
      | some owner =>
        if owner.telegramUserId = telegramUserId then
          .commit () {store with
            notificationPreferences :=
              insertDefaults telegramUserId chatId store.notificationPreferences}
        else .abort .chatBoundToAnotherActor

/-- A write that commits found the version it names and rewrote that row alone, with at most one
override beside it. -/
theorem writeNotificationPreferences_cases (key : ℤ × ℤ) (expectedVersion : ℤ)
    (update : NotificationPreferenceUpdate) (store : PreferenceStore) :
    (∃ e, writeNotificationPreferences key expectedVersion update store = (.error e,store)) ∨
    ∃ row columns override, store.notificationPreferences.select key = some row ∧
      row.version = expectedVersion ∧ update.quietPolicy.columns = .ok columns ∧
      update.checkedOverride = .ok override ∧
      writeNotificationPreferences key expectedVersion update store = (.ok (),{store with
        notificationPreferences := store.notificationPreferences.update
          (PreferenceRow.AtVersion key expectedVersion) (rewritePreferences update columns)
        notificationClassPreferences :=
          writeOverride key override store.notificationClassPreferences}) := by
  unfold writeNotificationPreferences transaction
  cases hc : update.quietPolicy.columns with
  | error e => exact Or.inl ⟨e,rfl⟩
  | ok columns =>
    cases ho : update.checkedOverride with
    | error e => exact Or.inl ⟨e,rfl⟩
    | ok override =>
      by_cases ha : store.notificationPreferences.any (PreferenceRow.AtVersion key expectedVersion)
      · obtain ⟨row,hrow,hkey,hversion⟩ := Table.any_iff.mp ha
        refine Or.inr ⟨row,columns,override,?_,hversion,rfl,rfl,?_⟩
        · rw [← hkey]
          exact Table.select_of_mem hrow
        · simp only [ha,if_true]
      · simp only [ha]
        exact Or.inl ⟨.stalePreference,rfl⟩

theorem select_rewritten {key : ℤ × ℤ} {row : PreferenceRow} {rows : Table PreferenceRow}
    (h : rows.select key = some row) (a : Assignment PreferenceRow) (k : ℤ × ℤ) :
    (rows.update (PreferenceRow.AtVersion key row.version) a).select k =
      if k = key then some (a.set row) else rows.select k := by
  rw [Table.select_update]
  by_cases hk : k = key
  · subst hk
    rw [h,Option.map_some,if_pos ⟨Table.key_of_select h,rfl⟩,if_pos rfl]
  · rw [if_neg hk]
    cases hs : rows.select k with
    | none => rfl
    | some r =>
      have hne : ¬ r.AtVersion key row.version := fun hr => hk (Table.key_of_select hs ▸ hr.1)
      rw [Option.map_some,if_neg hne]

theorem writeOverride_select (key : ℤ × ℤ) (o : ClassOverride) (classes : Table ClassPreference)
    (k : ℤ × ℤ × String) : ((writeOverride key (some o) classes).select k).map (·.enabled) =
      if k = (key.1,key.2,o.1.1) then o.1.2 else (classes.select k).map (·.enabled) := by
  unfold writeOverride
  cases hv : o.1.2 with
  | none =>
    simp only [hv,Table.select_delete_key]
    split <;> rfl
  | some enabled =>
    simp only [hv,Table.select_upsert]
    change Option.map _ (if k = (key.1,key.2,o.1.1) then _ else _) = _
    split
    · cases classes.select k <;> rfl
    · rfl

/-- The snapshot a write turns `p` into. -/
def NotificationPreferenceUpdate.applied (update : NotificationPreferenceUpdate)
    (p : NotificationPreferences) : NotificationPreferences where
  telegramUserId := p.telegramUserId
  chatId := p.chatId
  enabled := update.enabled
  quietPolicy := update.quietPolicy
  highPriorityBypass := update.highPriorityBypass
  version := p.version + 1
  classOverrides notificationClass :=
    match update.classOverride with
    | none => p.classOverrides notificationClass
    | some o => if notificationClass = o.1 then o.2 else p.classOverrides notificationClass

theorem readOverrides_written (key : ℤ × ℤ) {update : NotificationPreferenceUpdate}
    {override : Option ClassOverride} (ho : update.checkedOverride = .ok override)
    (store : PreferenceStore) (rows : Table PreferenceRow) (k : ℤ × ℤ) :
    PreferenceStore.readOverrides k {store with
        notificationPreferences := rows
        notificationClassPreferences :=
          writeOverride key override store.notificationClassPreferences} =
      fun notificationClass => match update.classOverride with
        | none => store.readOverrides k notificationClass
        | some o => if k = key ∧ notificationClass = o.1 then o.2
            else store.readOverrides k notificationClass := by
  funext notificationClass
  unfold NotificationPreferenceUpdate.checkedOverride at ho
  cases hc : update.classOverride with
  | none =>
    simp only [hc,Except.ok.injEq] at ho
    subst ho
    rfl
  | some o =>
    simp only [hc] at ho
    split at ho
    · obtain rfl := Except.ok.inj ho
      simp only [PreferenceStore.readOverrides,writeOverride_select,Prod.ext_iff,and_assoc]
    · simp at ho

/-- A committed write found the version it names, rewrote what is read under its key, and left
what is read under every other key. -/
theorem writeNotificationPreferences_reads {key : ℤ × ℤ} {version : ℤ}
    {update : NotificationPreferenceUpdate} {store after : PreferenceStore}
    (h : writeNotificationPreferences key version update store = (.ok (),after)) :
    (∃ p, notificationPreferences key store = .ok (some p) ∧ p.version = version ∧
      notificationPreferences key after = .ok (some (update.applied p))) ∧
    ∀ k, k ≠ key → notificationPreferences k after = notificationPreferences k store := by
  rcases writeNotificationPreferences_cases key version update store with
    ⟨e,he⟩ | ⟨row,columns,override,hrow,rfl,hcolumns,ho,hw⟩
  · simp [he] at h
  · have hafter := congrArg Prod.snd (hw.symm.trans h)
    subst hafter
    have hoverrides := readOverrides_written key ho store
      (store.notificationPreferences.update (PreferenceRow.AtVersion key row.version)
        (rewritePreferences update columns))
    constructor
    · obtain ⟨p,hp⟩ := notificationPreferences_of_row hrow
      obtain ⟨row',hrow',hsnap⟩ := notificationPreferences_eq.mp hp
      obtain rfl : row = row' := Option.some.inj (hrow.symm.trans hrow')
      have hquiet := QuietSelection.fromColumns_columns hcolumns
      have hp' : p.telegramUserId = row.telegramUserId ∧ p.chatId = row.chatId ∧
          p.version = row.version ∧ p.classOverrides = store.readOverrides key := by
        unfold PreferenceRow.snapshot at hsnap
        split at hsnap
        · simp at hsnap
        · obtain rfl := Except.ok.inj hsnap
          exact ⟨rfl,rfl,rfl,rfl⟩
      refine ⟨p,hp,hp'.2.2.1,notificationPreferences_eq.mpr ⟨(rewritePreferences update
        columns).set row,by rw [select_rewritten hrow,if_pos rfl],?_⟩⟩
      dsimp only
      rw [hoverrides,PreferenceRow.snapshot]
      simp only [rewritePreferences_set,hquiet,NotificationPreferenceUpdate.applied,hp'.1,hp'.2.1,
        hp'.2.2.1,hp'.2.2.2,true_and]
    · intro k hk
      unfold notificationPreferences PreferenceStore.readRow
      dsimp only
      rw [hoverrides]
      simp only [select_rewritten hrow,hk,false_and,if_false]
      cases update.classOverride <;> rfl

theorem insertDefaults_select (telegramUserId chatId : ℤ) {rows : Table PreferenceRow}
    {key : ℤ × ℤ} {row : PreferenceRow} (h : rows.select key = some row) :
    (insertDefaults telegramUserId chatId rows).select key = some row := by
  unfold insertDefaults
  cases hi : rows.insert (defaultPreferences telegramUserId chatId) with
  | none => exact h
  | some after => exact Table.select_insert_of_some hi h

theorem bindPrivateChat_reads (telegramUserId chatId : ℤ) {store : PreferenceStore} {key : ℤ × ℤ}
    {p : NotificationPreferences} (h : notificationPreferences key store = .ok (some p)) :
    notificationPreferences key (bindPrivateChat telegramUserId chatId store).2 =
      .ok (some p) := by
  refine transaction_rel (R := fun _ t => notificationPreferences key t = .ok (some p)) h ?_
  obtain ⟨row,hrow,hsnap⟩ := notificationPreferences_eq.mp h
  have hrow' := insertDefaults_select telegramUserId chatId hrow
  intro v t ht
  split at ht
  · split at ht
    · obtain ⟨-,rfl⟩ := Ending.commit.inj ht
      exact notificationPreferences_eq.mpr ⟨row,hrow',hsnap⟩
    · simp at ht
  · split at ht
    · simp at ht
    · split at ht
      · obtain ⟨-,rfl⟩ := Ending.commit.inj ht
        exact notificationPreferences_eq.mpr ⟨row,hrow',hsnap⟩
      · simp at ht

end RatatoskrTelegram
