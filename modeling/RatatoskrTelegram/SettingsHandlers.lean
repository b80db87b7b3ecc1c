import RatatoskrTelegram.NotificationPreferences
import RatatoskrTelegram.Text
import RatatoskrTelegram.Transition
import Mathlib.Logic.Function.Basic

/-!
# Settings handlers

`handle` reads the preferences, changes one field of the snapshot and writes
the snapshot back under the version it read. Any number of handlers share one
store, and any of them may stop for good between two statements.
-/

namespace RatatoskrTelegram

inductive SettingsCommand
  | notSettings
  | inspect
  | setGlobal (enabled : Bool)
  | setClass (notificationClass : String) (enabled : Option Bool)
  | setQuiet (policy : QuietSelection)
  | setBypass (enabled : Bool)
  | invalid
  deriving DecidableEq, Repr

def boolValue : String → Option Bool
  | "on" => some true
  | "off" => some false
  | _ => none

def parseMinute (value : List Char) : Option ℕ := do
  let (hourText,minuteText) ← splitOnce ':' value
  if hourText.length ≠ 2 ∨ minuteText.length ≠ 2 then none
  else
    let hour ← parseUnsigned 65536 hourText
    let minute ← parseUnsigned 65536 minuteText
    if hour < 24 ∧ minute < 60 then some (hour * 60 + minute) else none

def parseWindow (value : List Char) : Option QuietSelection := do
  let (startText,endText) ← splitOnce '-' value
  let startMinute ← parseMinute startText
  let endMinute ← parseMinute endText
  if startMinute ≠ endMinute then some (.custom startMinute endMinute) else none

/-- `parse`, on the words of the text; `known` are the classes of the notification contract. -/
def SettingsCommand.parse (known words : List String) : SettingsCommand :=
  match words with
  | ["/settings"] => inspect
  | ["/settings","notifications",value] => ((boolValue value).map setGlobal).getD invalid
  | ["/settings","notification",notificationClass,value] =>
    if notificationClass ∈ known then
      match value with
      | "on" => setClass notificationClass (some true)
      | "off" => setClass notificationClass (some false)
      | "inherit" => setClass notificationClass none
      | _ => invalid
    else invalid
  | ["/settings","quiet-hours","inherit"] => setQuiet .inherit
  | ["/settings","quiet-hours","disabled"] => setQuiet .disabled
  | ["/settings","quiet-hours",window] => ((parseWindow window.toList).map setQuiet).getD invalid
  | ["/settings","high-priority-bypass",value] => ((boolValue value).map setBypass).getD invalid
  | "/settings" :: _ => invalid
  | _ => notSettings

def toggleText (enabled : Bool) : String :=
  if enabled then "on" else "off"

def twoDigits (n : ℕ) : String :=
  if n < 10 then "0" ++ toString n else toString n

def quietText : QuietSelection → String
  | .disabled => "disabled"
  | .inherit => "inherit"
  | .custom startMinute endMinute =>
    twoDigits (startMinute / 60) ++ ":" ++ twoDigits (startMinute % 60) ++ "-" ++
      twoDigits (endMinute / 60) ++ ":" ++ twoDigits (endMinute % 60) ++ " UTC"

def NotificationPreferences.render (known : List String) (p : NotificationPreferences) : String :=
  let classes := known.map fun notificationClass =>
    notificationClass ++ ": " ++ ((p.classOverrides notificationClass).map toggleText).getD "inherit"
  "<b>Notification settings</b>\nnotifications: " ++ toggleText p.enabled ++ "\nquiet-hours: " ++
    quietText p.quietPolicy ++ "\nhigh-priority-bypass: " ++ toggleText p.highPriorityBypass ++
    "\n" ++ "\n".intercalate classes

def settingsUsage : String :=
  "<b>Notification settings</b>\nUse /settings, /settings notifications on|off, /settings " ++
    "notification &lt;class&gt; on|off|inherit, /settings quiet-hours " ++
    "inherit|disabled|HH:MM-HH:MM, or /settings high-priority-bypass on|off."

inductive SettingsResult
  | notSettings | processed | failed
  deriving DecidableEq, Repr

inductive ReadPurpose
  | beforeUpdate (command : SettingsCommand)
  | afterUpdate
  | rendering

/-- The statement a handler comes to next, with what it holds. -/
inductive HandlerStage
  | idle
  | readsRow (key : ℤ × ℤ) (purpose : ReadPurpose)
  | readsOverrides (key : ℤ × ℤ) (purpose : ReadPurpose) (row : PreferenceRow)
  | updates (key : ℤ × ℤ) (command : SettingsCommand) (current : NotificationPreferences)
  | replies (text : String)
  | finished (result : SettingsResult)

/-- What a step of a handler shows: `reports` is what `update_notification_preferences` returned. -/
inductive HandlerEvent
  | begins (key : ℤ × ℤ) (words : List String)
  | proceeds
  | commits (key : ℤ × ℤ) (command : SettingsCommand)
  | reports (outcome : Except PersistenceError NotificationPreferences)
  | replies (queued : Bool)

/-- Every field as it was read, and the one of the command. -/
def SettingsCommand.update (current : NotificationPreferences) :
    SettingsCommand → Option NotificationPreferenceUpdate
  | setGlobal enabled => some ⟨enabled,current.quietPolicy,current.highPriorityBypass,none⟩
  | setClass notificationClass enabled => some ⟨current.enabled,current.quietPolicy,
      current.highPriorityBypass,some (notificationClass,enabled)⟩
  | setQuiet policy => some ⟨current.enabled,policy,current.highPriorityBypass,none⟩
  | setBypass enabled => some ⟨current.enabled,current.quietPolicy,enabled,none⟩
  | notSettings | inspect | invalid => none

def ReadPurpose.resume (known : List String) (key : ℤ × ℤ)
    (outcome : Except PersistenceError (Option NotificationPreferences)) :
    ReadPurpose → HandlerEvent × HandlerStage
  | beforeUpdate command =>
    match outcome with
    | .ok (some current) => (.proceeds,.updates key command current)
    | _ => (.proceeds,.finished .failed)
  | afterUpdate =>
    match outcome with
    | .ok (some changed) => (.reports (.ok changed),.readsRow key .rendering)
    | .ok none => (.reports (.error .stalePreference),.finished .failed)
    | .error e => (.reports (.error e),.finished .failed)
  | rendering =>
    match outcome with
    | .ok (some current) => (.proceeds,.replies (current.render known))
    | _ => (.proceeds,.finished .failed)

/-- `handle` on a message of the actor and chat of `key`, up to its first statement. -/
def HandlerStage.handle (known : List String) (key : ℤ × ℤ) (words : List String) : HandlerStage :=
  match SettingsCommand.parse known words with
  | .notSettings => finished .notSettings
  | .invalid => replies settingsUsage
  | .inspect => readsRow key .rendering
  | command => readsRow key (.beforeUpdate command)

/-- The next statement of a handler, against the store it meets. -/
def HandlerStage.next (known : List String) (store : PreferenceStore) :
    HandlerStage → Option (HandlerEvent × HandlerStage × PreferenceStore)
  | readsRow key purpose =>
    match store.readRow key with
    | none =>
      let (event,stage) := purpose.resume known key (.ok none)
      some (event,stage,store)
    | some row => some (.proceeds,readsOverrides key purpose row,store)
  | readsOverrides key purpose row =>
    let (event,stage) := purpose.resume known key
      ((row.snapshot (store.readOverrides key)).map some)
    some (event,stage,store)
  | updates key command current =>
    match command.update current with
    | none => some (.proceeds,finished .failed,store)
    | some update =>
      match writeNotificationPreferences key current.version update store with
      | (.ok (),after) => some (.commits key command,readsRow key .afterUpdate,after)
      | (.error e,after) => some (.reports (.error e),finished .failed,after)
  | idle | replies _ | finished _ => none

structure Settings where
  store : PreferenceStore
  handlers : ℕ → HandlerStage

namespace Settings

def start (store : PreferenceStore) : Settings :=
  ⟨store,fun _ => .idle⟩

inductive Label
  | handler (h : ℕ) (event : HandlerEvent)
  | binds (telegramUserId chatId : ℤ)

/-- The answer of the queue to the reply is not this store's, so a reply goes either way. -/
inductive Step (known : List String) (s : Settings) : Label → Settings → Prop
  | begins {h : ℕ} {key : ℤ × ℤ} {words : List String} : s.handlers h = .idle →
      Step known s (.handler h (.begins key words))
        {s with handlers := Function.update s.handlers h (.handle known key words)}
  | moves {h : ℕ} {event : HandlerEvent} {stage : HandlerStage} {store : PreferenceStore} :
      (s.handlers h).next known s.store = some (event,stage,store) →
      Step known s (.handler h event) ⟨store,Function.update s.handlers h stage⟩
  | replies {h : ℕ} {text : String} {queued : Bool} : s.handlers h = .replies text →
      Step known s (.handler h (.replies queued)) {s with
        handlers := Function.update s.handlers h (.finished (if queued then .processed else .failed))}
  | binds {telegramUserId chatId : ℤ} : Step known s (.binds telegramUserId chatId)
      {s with store := (bindPrivateChat telegramUserId chatId s.store).2}

end Settings

end RatatoskrTelegram
