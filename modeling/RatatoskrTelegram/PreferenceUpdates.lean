import RatatoskrTelegram.SettingsHandlers

/-!
# Preference updates are kept

A committed update stays on its own field until another update writes that
field; the version read decides every race between two handlers.
-/

namespace RatatoskrTelegram

inductive PreferenceField
  | enabled | quietPolicy | highPriorityBypass
  | classOverride (notificationClass : String)
  deriving DecidableEq, Repr

def PreferenceField.Agree (p q : NotificationPreferences) : PreferenceField → Prop
  | enabled => p.enabled = q.enabled
  | quietPolicy => p.quietPolicy = q.quietPolicy
  | highPriorityBypass => p.highPriorityBypass = q.highPriorityBypass
  | classOverride notificationClass =>
    p.classOverrides notificationClass = q.classOverrides notificationClass

namespace SettingsCommand

def field : SettingsCommand → Option PreferenceField
  | setGlobal _ => some .enabled
  | setClass notificationClass _ => some (.classOverride notificationClass)
  | setQuiet _ => some .quietPolicy
  | setBypass _ => some .highPriorityBypass
  | notSettings | inspect | invalid => none

def ShownBy (p : NotificationPreferences) : SettingsCommand → Prop
  | setGlobal enabled => p.enabled = enabled
  | setClass notificationClass enabled => p.classOverrides notificationClass = enabled
  | setQuiet policy => p.quietPolicy = policy
  | setBypass enabled => p.highPriorityBypass = enabled
  | notSettings | inspect | invalid => False

theorem ShownBy.of_agree {command : SettingsCommand} {p q : NotificationPreferences}
    (h : command.ShownBy p) (hf : ∀ f, command.field = some f → f.Agree p q) :
    command.ShownBy q := by
  cases command with
  | notSettings => exact h
  | inspect => exact h
  | invalid => exact h
  | setGlobal enabled => exact (hf .enabled rfl).symm.trans h
  | setClass notificationClass enabled => exact (hf (.classOverride notificationClass) rfl).symm.trans h
  | setQuiet policy => exact (hf .quietPolicy rfl).symm.trans h
  | setBypass enabled => exact (hf .highPriorityBypass rfl).symm.trans h

variable {command : SettingsCommand} {current : NotificationPreferences}
  {update : NotificationPreferenceUpdate}

theorem shownBy_applied (h : command.update current = some update) (p : NotificationPreferences) :
    command.ShownBy (update.applied p) := by
  cases command <;> cases h <;> simp [ShownBy,NotificationPreferenceUpdate.applied]

/-- The snapshot shows what was read on the three fields every write carries. -/
def SameColumns (p q : NotificationPreferences) : Prop :=
  p.enabled = q.enabled ∧ p.quietPolicy = q.quietPolicy ∧
    p.highPriorityBypass = q.highPriorityBypass

theorem agree_applied (h : command.update current = some update) {p : NotificationPreferences}
    (hp : SameColumns current p) {f : PreferenceField} (hf : command.field ≠ some f) :
    f.Agree p (update.applied p) := by
  obtain ⟨he,hq,hb⟩ := hp
  cases command with
  | notSettings => cases h
  | inspect => cases h
  | invalid => cases h
  | setGlobal enabled =>
    cases h
    cases f with
    | enabled => exact absurd rfl hf
    | quietPolicy => exact hq.symm
    | highPriorityBypass => exact hb.symm
    | classOverride notificationClass => rfl
  | setQuiet policy =>
    cases h
    cases f with
    | enabled => exact he.symm
    | quietPolicy => exact absurd rfl hf
    | highPriorityBypass => exact hb.symm
    | classOverride notificationClass => rfl
  | setBypass enabled =>
    cases h
    cases f with
    | enabled => exact he.symm
    | quietPolicy => exact hq.symm
    | highPriorityBypass => exact absurd rfl hf
    | classOverride notificationClass => rfl
  | setClass written enabled =>
    cases h
    cases f with
    | enabled => exact he.symm
    | quietPolicy => exact hq.symm
    | highPriorityBypass => exact hb.symm
    | classOverride notificationClass =>
      have hne : notificationClass ≠ written := by
        rintro rfl
        exact hf rfl
      exact (if_neg hne).symm

end SettingsCommand

/-- What was read under `key` is what is stored, or the stored version has moved on since. -/
def Observed (store : PreferenceStore) (key : ℤ × ℤ) (current : NotificationPreferences) : Prop :=
  ∃ p, notificationPreferences key store = .ok (some p) ∧ current.version ≤ p.version ∧
    (current.version = p.version → SettingsCommand.SameColumns current p)

namespace Settings

def Label.Writes (key : ℤ × ℤ) (f : PreferenceField) : Label → Prop
  | handler _ (.commits k command) => k = key ∧ command.field = some f
  | _ => False

/-- What the stage of a handler promises about the store. -/
def Sound (store : PreferenceStore) : HandlerStage → Prop
  | .readsOverrides key (.beforeUpdate _) row =>
    ∀ overrides p, row.snapshot overrides = .ok p → Observed store key p
  | .updates key _ current => Observed store key current
  | .readsRow key .afterUpdate => ∃ p, notificationPreferences key store = .ok (some p)
  | _ => True

/-- What a step makes of the snapshot read under `k`: nothing, or one committed update. -/
def Rewritten (l : Label) (k : ℤ × ℤ) (p q : NotificationPreferences) : Prop :=
  (q = p ∧ ∀ i command, l ≠ .handler i (.commits k command)) ∨
    ∃ i command, l = .handler i (.commits k command) ∧ q.version = p.version + 1 ∧
      command.ShownBy q ∧ ∀ f, command.field ≠ some f → f.Agree p q

theorem resume_ne_commits (known : List String) (key : ℤ × ℤ)
    (outcome : Except PersistenceError (Option NotificationPreferences)) (purpose : ReadPurpose)
    (k : ℤ × ℤ) (command : SettingsCommand) :
    (purpose.resume known key outcome).1 ≠ .commits k command := by
  rcases outcome with e | (_ | p) <;> cases purpose <;> simp [ReadPurpose.resume]

inductive NextStep (known : List String) (store : PreferenceStore) :
    HandlerStage → HandlerEvent → HandlerStage → PreferenceStore → Prop
  | missing {key : ℤ × ℤ} {purpose : ReadPurpose} : store.readRow key = none →
      NextStep known store (.readsRow key purpose) (purpose.resume known key (.ok none)).1
        (purpose.resume known key (.ok none)).2 store
  | found {key : ℤ × ℤ} {purpose : ReadPurpose} {row : PreferenceRow} :
      store.readRow key = some row →
      NextStep known store (.readsRow key purpose) .proceeds (.readsOverrides key purpose row) store
  | read {key : ℤ × ℤ} {purpose : ReadPurpose} {row : PreferenceRow} {p : NotificationPreferences} :
      row.snapshot (store.readOverrides key) = .ok p →
      NextStep known store (.readsOverrides key purpose row)
        (purpose.resume known key (.ok (some p))).1 (purpose.resume known key (.ok (some p))).2 store
  | idles {key : ℤ × ℤ} {command : SettingsCommand} {current : NotificationPreferences} :
      NextStep known store (.updates key command current) .proceeds (.finished .failed) store
  | refused {key : ℤ × ℤ} {command : SettingsCommand} {current : NotificationPreferences}
      (e : PersistenceError) : NextStep known store (.updates key command current)
        (.reports (.error e)) (.finished .failed) store
  | committed {key : ℤ × ℤ} {command : SettingsCommand} {current : NotificationPreferences}
      {update : NotificationPreferenceUpdate} {after : PreferenceStore} :
      command.update current = some update →
      writeNotificationPreferences key current.version update store = (.ok (),after) →
      NextStep known store (.updates key command current) (.commits key command)
        (.readsRow key .afterUpdate) after

theorem nextStep_of_next {known : List String} {store after : PreferenceStore}
    {stage next : HandlerStage} {event : HandlerEvent}
    (h : stage.next known store = some (event,next,after)) :
    NextStep known store stage event next after := by
  cases stage with
  | idle => simp [HandlerStage.next] at h
  | replies text => simp [HandlerStage.next] at h
  | finished result => simp [HandlerStage.next] at h
  | readsRow key purpose =>
    cases hr : store.readRow key with
    | none =>
      simp only [HandlerStage.next,hr,Option.some.injEq,Prod.mk.injEq] at h
      obtain ⟨rfl,rfl,rfl⟩ := h
      exact .missing hr
    | some row =>
      simp only [HandlerStage.next,hr,Option.some.injEq,Prod.mk.injEq] at h
      obtain ⟨rfl,rfl,rfl⟩ := h
      exact .found hr
  | readsOverrides key purpose row =>
    obtain ⟨p,hp⟩ := row.snapshot_total (store.readOverrides key)
    simp only [HandlerStage.next,hp,Option.some.injEq,Prod.mk.injEq] at h
    obtain ⟨rfl,rfl,rfl⟩ := h
    exact .read hp
  | updates key command current =>
    cases hu : command.update current with
    | none =>
      simp only [HandlerStage.next,hu,Option.some.injEq,Prod.mk.injEq] at h
      obtain ⟨rfl,rfl,rfl⟩ := h
      exact .idles
    | some update =>
      rcases writeNotificationPreferences_cases key current.version update store with
        ⟨e,hw⟩ | ⟨_,_,_,_,_,_,_,hw⟩
      · simp only [HandlerStage.next,hu,hw,Option.some.injEq,Prod.mk.injEq] at h
        obtain ⟨rfl,rfl,rfl⟩ := h
        exact .refused e
      · simp only [HandlerStage.next,hu,hw,Option.some.injEq,Prod.mk.injEq] at h
        obtain ⟨rfl,rfl,rfl⟩ := h
        exact .committed hu hw

/-- A move of a handler leaves the store alone, or is the commit of its update. -/
theorem next_cases {known : List String} {store after : PreferenceStore}
    {stage next : HandlerStage} {event : HandlerEvent}
    (h : stage.next known store = some (event,next,after)) :
    (after = store ∧ ∀ key command, event ≠ .commits key command) ∨
    ∃ key command current update, stage = .updates key command current ∧
      command.update current = some update ∧
      writeNotificationPreferences key current.version update store = (.ok (),after) ∧
      event = .commits key command := by
  cases nextStep_of_next h with
  | missing _ => exact Or.inl ⟨rfl,resume_ne_commits _ _ _ _⟩
  | found _ => exact Or.inl ⟨rfl,by simp⟩
  | read _ => exact Or.inl ⟨rfl,resume_ne_commits _ _ _ _⟩
  | idles => exact Or.inl ⟨rfl,by simp⟩
  | refused e => exact Or.inl ⟨rfl,by simp⟩
  | committed hu hw => exact Or.inr ⟨_,_,_,_,rfl,hu,hw,rfl⟩

variable {known : List String} {s t : Settings} {l : Label}

theorem step_reads (hs : Step known s l t) (hsound : ∀ h, Sound s.store (s.handlers h))
    {k : ℤ × ℤ} {p : NotificationPreferences}
    (hp : notificationPreferences k s.store = .ok (some p)) :
    ∃ q, notificationPreferences k t.store = .ok (some q) ∧ Rewritten l k p q := by
  cases hs with
  | begins _ => exact ⟨p,hp,Or.inl ⟨rfl,by simp⟩⟩
  | replies _ => exact ⟨p,hp,Or.inl ⟨rfl,by simp⟩⟩
  | binds => exact ⟨p,bindPrivateChat_reads _ _ hp,Or.inl ⟨rfl,by simp⟩⟩
  | @moves h event stage store hn =>
    rcases next_cases hn with ⟨rfl,he⟩ | ⟨key,command,current,update,hstage,hu,hw,rfl⟩
    · refine ⟨p,hp,Or.inl ⟨rfl,?_⟩⟩
      intro i command hl
      exact he k command (Label.handler.inj hl).2
    · obtain ⟨⟨p',hp',hversion,hafter⟩,hother⟩ := writeNotificationPreferences_reads hw
      by_cases hk : k = key
      · subst hk
        obtain rfl : p = p' := Option.some.inj (Except.ok.inj (hp.symm.trans hp'))
        have hobserved := hsound h
        rw [hstage] at hobserved
        obtain ⟨p',hp'',_,hcolumns⟩ := hobserved
        obtain rfl : p = p' := Option.some.inj (Except.ok.inj (hp.symm.trans hp''))
        refine ⟨_,hafter,Or.inr ⟨h,command,rfl,rfl,SettingsCommand.shownBy_applied hu p,?_⟩⟩
        intro f hf
        exact SettingsCommand.agree_applied hu (hcolumns hversion.symm) hf
      · refine ⟨p,(hother k hk).trans hp,Or.inl ⟨rfl,?_⟩⟩
        intro i c hl
        exact hk (HandlerEvent.commits.inj (Label.handler.inj hl).2).1.symm

theorem observed_of_row {store : PreferenceStore} {key : ℤ × ℤ} {row : PreferenceRow}
    (h : store.notificationPreferences.select key = some row) {overrides : String → Option Bool}
    {p : NotificationPreferences} (hp : row.snapshot overrides = .ok p) :
    Observed store key p := by
  obtain ⟨q,hq⟩ := notificationPreferences_of_row h
  obtain ⟨row',hrow',hsnap⟩ := notificationPreferences_eq.mp hq
  obtain rfl : row = row' := Option.some.inj (h.symm.trans hrow')
  unfold PreferenceRow.snapshot at hp hsnap
  cases hquiet : QuietSelection.fromColumns row.quiet with
  | error e => simp [hquiet] at hp
  | ok policy =>
    rw [hquiet] at hp hsnap
    obtain rfl := Except.ok.inj hp
    obtain rfl := Except.ok.inj hsnap
    exact ⟨_,hq,le_rfl,fun _ => ⟨rfl,rfl,rfl⟩⟩

theorem Observed.step {key : ℤ × ℤ} {current : NotificationPreferences}
    (h : Observed s.store key current) (hs : Step known s l t)
    (hsound : ∀ h, Sound s.store (s.handlers h)) : Observed t.store key current := by
  obtain ⟨p,hp,hle,heq⟩ := h
  obtain ⟨q,hq,⟨rfl,_⟩ | ⟨_,_,_,hversion,_⟩⟩ := step_reads hs hsound hp
  · exact ⟨q,hq,hle,heq⟩
  · exact ⟨q,hq,by omega,fun he => by omega⟩

theorem Sound.step {stage : HandlerStage} (h : Sound s.store stage) (hs : Step known s l t)
    (hsound : ∀ h, Sound s.store (s.handlers h)) : Sound t.store stage := by
  cases stage with
  | readsRow key purpose =>
    cases purpose with
    | afterUpdate =>
      obtain ⟨p,hp⟩ := h
      obtain ⟨q,hq,_⟩ := step_reads hs hsound hp
      exact ⟨q,hq⟩
    | _ => trivial
  | readsOverrides key purpose row =>
    cases purpose with
    | beforeUpdate command => exact fun overrides p hp => Observed.step (h overrides p hp) hs hsound
    | _ => trivial
  | updates key command current => exact Observed.step h hs hsound
  | _ => trivial

theorem sound_next {store after : PreferenceStore} {stage next : HandlerStage}
    {event : HandlerEvent} (h : stage.next known store = some (event,next,after))
    (hsound : Sound store stage) : Sound after next := by
  cases nextStep_of_next h with
  | @missing key purpose _ => cases purpose <;> trivial
  | @found key purpose row hrow =>
    cases purpose with
    | beforeUpdate command => exact fun overrides p hp => observed_of_row hrow hp
    | _ => trivial
  | @read key purpose row p hp =>
    cases purpose with
    | beforeUpdate command => exact hsound _ p hp
    | _ => trivial
  | idles => trivial
  | refused e => trivial
  | committed _ hw =>
    obtain ⟨⟨p,_,_,hafter⟩,_⟩ := writeNotificationPreferences_reads hw
    exact ⟨_,hafter⟩

theorem handlers_of_other (hs : Step known s l t) {h : ℕ} (hl : ∀ event, l ≠ .handler h event) :
    t.handlers h = s.handlers h := by
  have hupdated {i : ℕ} {event : HandlerEvent} (hi : l = .handler i event)
      (stage : HandlerStage) : Function.update s.handlers i stage h = s.handlers h := by
    have hne : h ≠ i := by
      rintro rfl
      exact hl event hi
    exact Function.update_of_ne hne stage s.handlers
  cases hs with
  | binds => rfl
  | begins _ => exact hupdated rfl _
  | moves _ => exact hupdated rfl _
  | replies _ => exact hupdated rfl _

theorem sound_step (hs : Step known s l t) (hsound : ∀ h, Sound s.store (s.handlers h)) :
    ∀ h, Sound t.store (t.handlers h) := by
  intro h
  have hkept := Sound.step (hsound h) hs hsound
  by_cases hl : ∀ event, l ≠ .handler h event
  · rwa [handlers_of_other hs hl]
  · obtain ⟨event,he⟩ := not_forall_not.mp hl
    subst he
    cases hs with
    | begins _ =>
      simp only [Function.update_self,HandlerStage.handle]
      split <;> trivial
    | moves hn => simpa using sound_next hn (hsound h)
    | replies _ => simp [Sound]

def Carries (key : ℤ × ℤ) (command : SettingsCommand) : HandlerStage → Prop
  | .readsRow k (.beforeUpdate c) | .readsOverrides k (.beforeUpdate c) _ | .updates k c _ =>
    k = key ∧ c = command
  | _ => False

def Early : HandlerStage → Prop
  | .idle | .readsRow _ (.beforeUpdate _) | .readsOverrides _ (.beforeUpdate _) _
  | .updates _ _ _ => True
  | _ => False

def Late : HandlerStage → Prop
  | .readsRow _ .afterUpdate | .readsOverrides _ .afterUpdate _ => True
  | _ => False

/-- One move of a handler, by what it shows. -/
inductive Moves (stage next : HandlerStage) : HandlerEvent → Prop
  | commits {key : ℤ × ℤ} {command : SettingsCommand} : Carries key command stage → Early stage →
      ¬ Early next → (∀ k c, ¬ Carries k c next) → Moves stage next (.commits key command)
  | refuses {e : PersistenceError} : Early stage → ¬ Early next → ¬ Late next →
      (∀ k c, ¬ Carries k c next) → Moves stage next (.reports (.error e))
  | reports {changed : NotificationPreferences} : Late stage → ¬ Early next → ¬ Late next →
      (∀ k c, ¬ Carries k c next) → Moves stage next (.reports (.ok changed))
  | proceeds : (Early next → Early stage) → (Late next → Late stage) →
      (∀ k c, Carries k c next → Carries k c stage) → Moves stage next .proceeds

theorem moves_of_next {store after : PreferenceStore} {stage next : HandlerStage}
    {event : HandlerEvent} (h : stage.next known store = some (event,next,after))
    (hsound : Sound store stage) : Moves stage next event := by
  cases nextStep_of_next h with
  | @missing key purpose hnone =>
    cases purpose with
    | beforeUpdate command =>
      refine .proceeds ?_ ?_ ?_ <;> simp [ReadPurpose.resume,Early,Late,Carries]
    | rendering =>
      refine .proceeds ?_ ?_ ?_ <;> simp [ReadPurpose.resume,Early,Late,Carries]
    | afterUpdate =>
      -- the row a committed write found is never deleted
      obtain ⟨p,hp⟩ := hsound
      obtain ⟨row,hrow,_⟩ := notificationPreferences_eq.mp hp
      exact absurd (hnone.symm.trans hrow) (by simp)
  | @found key purpose row _ =>
    refine .proceeds ?_ ?_ ?_ <;> cases purpose <;> simp [Early,Late,Carries]
  | @read key purpose row p _ =>
    cases purpose with
    | beforeUpdate command =>
      refine .proceeds ?_ ?_ ?_ <;> simp [ReadPurpose.resume,Early,Late,Carries]
    | afterUpdate =>
      refine .reports ?_ ?_ ?_ ?_ <;> simp [ReadPurpose.resume,Early,Late,Carries]
    | rendering =>
      refine .proceeds ?_ ?_ ?_ <;> simp [ReadPurpose.resume,Early,Late,Carries]
  | idles => refine .proceeds ?_ ?_ ?_ <;> simp [Early,Late,Carries]
  | refused e => exact .refuses trivial (by simp [Early]) (by simp [Late]) (by simp [Carries])
  | committed _ _ => exact .commits ⟨rfl,rfl⟩ trivial (by simp [Early]) (by simp [Carries])

/-- What the labels of a run tell about one handler at its stage. -/
structure History (known : List String) (tr : List Label) (h : ℕ) (stage : HandlerStage) :
    Prop where
  early : Early stage → ∀ event, .handler h event ∈ tr → (∀ k c, event ≠ .commits k c) ∧
    ∀ outcome, event ≠ .reports outcome
  late : Late stage → ∃ k c, .handler h (.commits k c) ∈ tr
  carries : ∀ k c, Carries k c stage → ∃ words, .handler h (.begins k words) ∈ tr ∧
    SettingsCommand.parse known words = c
  commits : ∀ k c, .handler h (.commits k c) ∈ tr → ∃ words, .handler h (.begins k words) ∈ tr ∧
    SettingsCommand.parse known words = c
  reports : ∀ changed, .handler h (.reports (.ok changed)) ∈ tr →
    ∃ k c, .handler h (.commits k c) ∈ tr
  refuses : ∀ e, .handler h (.reports (.error e)) ∈ tr → ∀ k c, .handler h (.commits k c) ∉ tr

namespace History

variable {tr : List Label} {h : ℕ} {stage next : HandlerStage}

theorem nil : History known [] h .idle :=
  ⟨by simp,by simp [Late],by simp [Carries],by simp,by simp,by simp⟩

theorem other (hist : History known tr h stage) (hl : ∀ event, l ≠ .handler h event) :
    History known (tr ++ [l]) h stage := by
  have hmem (event : HandlerEvent) : .handler h event ∈ tr ++ [l] ↔ .handler h event ∈ tr := by
    simp [List.mem_append,(hl event).symm]
  constructor <;> simp only [hmem]
  · exact hist.early
  · exact hist.late
  · exact hist.carries
  · exact hist.commits
  · exact hist.reports
  · exact hist.refuses

theorem silent (hist : History known tr h stage) {event : HandlerEvent}
    (hc : ∀ k c, event ≠ .commits k c) (hr : ∀ outcome, event ≠ .reports outcome)
    (he : Early next → Early stage) (hl : Late next → Late stage)
    (hk : ∀ k c, Carries k c next → Carries k c stage ∨
      ∃ words, event = .begins k words ∧ SettingsCommand.parse known words = c) :
    History known (tr ++ [Label.handler h event]) h next := by
  have hcommit (k : ℤ × ℤ) (c : SettingsCommand) :
      .handler h (.commits k c) ∈ tr ++ [Label.handler h event] ↔ .handler h (.commits k c) ∈ tr := by
    simp [List.mem_append,(hc k c).symm]
  have hreport (outcome : Except PersistenceError NotificationPreferences) :
      .handler h (.reports outcome) ∈ tr ++ [Label.handler h event] ↔
        .handler h (.reports outcome) ∈ tr := by
    simp [List.mem_append,(hr outcome).symm]
  have hbegins {k : ℤ × ℤ} {c : SettingsCommand} (hb : ∃ words, .handler h (.begins k words) ∈ tr ∧
      SettingsCommand.parse known words = c) : ∃ words,
      .handler h (.begins k words) ∈ tr ++ [Label.handler h event] ∧
        SettingsCommand.parse known words = c := by
    obtain ⟨words,hw,hp⟩ := hb
    exact ⟨words,List.mem_append_left _ hw,hp⟩
  constructor
  · intro hearly event' hm
    rcases List.mem_append.mp hm with hm | hm
    · exact hist.early (he hearly) event' hm
    · obtain rfl : event' = event := by simpa using hm
      exact ⟨hc,hr⟩
  · intro hlate
    simpa only [hcommit] using hist.late (hl hlate)
  · intro k c hcarries
    rcases hk k c hcarries with hcarries | ⟨words,rfl,hp⟩
    · exact hbegins (hist.carries k c hcarries)
    · exact ⟨words,by simp,hp⟩
  · intro k c hm
    exact hbegins (hist.commits k c ((hcommit k c).mp hm))
  · intro changed hm
    simpa only [hcommit] using hist.reports changed ((hreport _).mp hm)
  · intro e hm k c
    rw [hcommit]
    exact hist.refuses e ((hreport _).mp hm) k c

theorem move (hist : History known tr h stage) {event : HandlerEvent}
    (hm : Moves stage next event) : History known (tr ++ [Label.handler h event]) h next := by
  have hbegins (event : HandlerEvent) {k : ℤ × ℤ} {c : SettingsCommand}
      (hb : ∃ words, .handler h (.begins k words) ∈ tr ∧ SettingsCommand.parse known words = c) :
      ∃ words, .handler h (.begins k words) ∈ tr ++ [Label.handler h event] ∧
        SettingsCommand.parse known words = c := by
    obtain ⟨words,hw,hp⟩ := hb
    exact ⟨words,List.mem_append_left _ hw,hp⟩
  cases hm with
  | proceeds he hl hk => exact hist.silent (by simp) (by simp) he hl fun k c hc => Or.inl (hk k c hc)
  | @commits key command hcarries hearly hnext hdone =>
    have hquiet := hist.early hearly
    refine ⟨fun he => absurd he hnext,fun _ => ⟨key,command,by simp⟩,
      fun k c hc => absurd hc (hdone k c),?_,?_,?_⟩
    · intro k c hmem
      rcases List.mem_append.mp hmem with hmem | hmem
      · exact absurd rfl ((hquiet _ hmem).1 k c)
      · obtain ⟨rfl,rfl⟩ : k = key ∧ c = command := by simpa using hmem
        exact hbegins _ (hist.carries k c hcarries)
    · intro changed _
      exact ⟨key,command,by simp⟩
    · intro e hmem
      rcases List.mem_append.mp hmem with hmem | hmem
      · exact absurd rfl ((hquiet _ hmem).2 _)
      · simp at hmem
  | @refuses e hearly hnext hlate hdone =>
    have hquiet := hist.early hearly
    have hnone (k : ℤ × ℤ) (c : SettingsCommand) :
        .handler h (.commits k c) ∉ tr ++ [Label.handler h (.reports (.error e))] := by
      intro hmem
      rcases List.mem_append.mp hmem with hmem | hmem
      · exact absurd rfl ((hquiet _ hmem).1 k c)
      · simp at hmem
    refine ⟨fun he => absurd he hnext,fun hl => absurd hl hlate,fun k c hc => absurd hc (hdone k c),
      fun k c hmem => absurd hmem (hnone k c),?_,fun _ _ => hnone⟩
    intro changed hmem
    rcases List.mem_append.mp hmem with hmem | hmem
    · exact absurd rfl ((hquiet _ hmem).2 _)
    · simp at hmem
  | @reports changed hlate hnext hdoneLate hdone =>
    obtain ⟨key,command,hcommitted⟩ := hist.late hlate
    refine ⟨fun he => absurd he hnext,fun hl => absurd hl hdoneLate,
      fun k c hc => absurd hc (hdone k c),?_,?_,?_⟩
    · intro k c hmem
      rcases List.mem_append.mp hmem with hmem | hmem
      · exact hbegins _ (hist.commits k c hmem)
      · simp at hmem
    · intro _ _
      exact ⟨key,command,List.mem_append_left _ hcommitted⟩
    · intro e hmem
      rcases List.mem_append.mp hmem with hmem | hmem
      · exact absurd hcommitted (hist.refuses e hmem key command)
      · simp at hmem

end History

theorem history_step {tr : List Label} (hs : Step known s l t)
    (hsound : ∀ h, Sound s.store (s.handlers h)) {h : ℕ} (hist : History known tr h (s.handlers h)) :
    History known (tr ++ [l]) h (t.handlers h) := by
  by_cases hl : ∀ event, l ≠ .handler h event
  · rw [handlers_of_other hs hl]
    exact hist.other hl
  · obtain ⟨event,he⟩ := not_forall_not.mp hl
    subst he
    cases hs with
    | moves hn => simpa using hist.move (moves_of_next hn (hsound h))
    | replies hi =>
      rw [hi] at hist
      dsimp only
      rw [Function.update_self]
      exact hist.silent (by simp) (by simp) (by simp [Early]) (by simp [Late]) (by simp [Carries])
    | @begins _ key words hi =>
      rw [hi] at hist
      dsimp only
      rw [Function.update_self]
      refine hist.silent (by simp) (by simp) (fun _ => trivial) ?_ ?_
      · unfold HandlerStage.handle
        split <;> simp [Late]
      · intro k c hc
        unfold HandlerStage.handle at hc
        split at hc
        · cases hc
        · cases hc
        · cases hc
        · obtain ⟨rfl,rfl⟩ := hc
          exact Or.inr ⟨words,rfl,rfl⟩

/-- A committed update is shown until another commit writes its field. -/
def Kept (tr : List Label) (store : PreferenceStore) : Prop :=
  ∀ before i key command after, tr = before ++ Label.handler i (.commits key command) :: after →
    (∀ f, command.field = some f → ∀ l ∈ after, ¬ l.Writes key f) →
    ∃ p, notificationPreferences key store = .ok (some p) ∧ command.ShownBy p

theorem kept_step {tr : List Label} (hs : Step known s l t)
    (hsound : ∀ h, Sound s.store (s.handlers h)) (h : Kept tr s.store) :
    Kept (tr ++ [l]) t.store := by
  intro before i key command after htr hquiet
  rcases List.eq_nil_or_concat after with rfl | ⟨rest,last,rfl⟩
  · obtain ⟨rfl,hl⟩ := List.append_inj' htr rfl
    obtain rfl : l = .handler i (.commits key command) := by simpa using hl
    -- the commit itself
    cases hs with
    | moves hn =>
      rcases next_cases hn with ⟨rfl,he⟩ | ⟨k,c,current,update,_,hu,hw,he⟩
      · exact absurd rfl (he key command)
      · obtain ⟨rfl,rfl⟩ := HandlerEvent.commits.inj he
        obtain ⟨⟨p,_,_,hafter⟩,_⟩ := writeNotificationPreferences_reads hw
        exact ⟨_,hafter,SettingsCommand.shownBy_applied hu p⟩
  · rw [List.concat_eq_append,← List.cons_append,← List.append_assoc] at htr
    obtain ⟨rfl,hl⟩ := List.append_inj' htr rfl
    obtain rfl : l = last := by simpa using hl
    simp only [List.concat_eq_append] at hquiet
    obtain ⟨p,hp,hshown⟩ := h before i key command rest rfl fun f hf l hl =>
      hquiet f hf l (List.mem_append_left _ hl)
    obtain ⟨q,hq,⟨rfl,_⟩ | ⟨j,c,rfl,_,_,hagree⟩⟩ := step_reads hs hsound hp
    · exact ⟨q,hq,hshown⟩
    · refine ⟨q,hq,hshown.of_agree ?_⟩
      intro f hf
      refine hagree f ?_
      intro hc
      exact hquiet f hf (.handler j (.commits key c)) (by simp) ⟨rfl,hc⟩

/-- What holds of a run's labels and of the state it ends in. -/
structure Invariant (known : List String) (tr : List Label) (s : Settings) : Prop where
  sound : ∀ h, Sound s.store (s.handlers h)
  history : ∀ h, History known tr h (s.handlers h)
  kept : Kept tr s.store

theorem invariant_of_run {store : PreferenceStore} {tr : List Label}
    (h : Run (Step known) (start store) tr s) : Invariant known tr s := by
  induction h with
  | refl => exact ⟨fun _ => trivial,fun _ => .nil,by
      intro before i key command after htr
      simp at htr⟩
  | snoc _ hs ih => exact ⟨sound_step hs ih.sound,fun h => history_step hs ih.sound (ih.history h),
      kept_step hs ih.sound ih.kept⟩

end Settings

/-- Over any store and any interleaving of handlers: what an update commits is read until another
update of its field commits; success is reported by handlers that committed what their message
asks for, a conflict or an invalid value by handlers that committed nothing; and each further step
leaves every snapshot as it is, or commits one update that raises the version and changes its own
field alone. -/
theorem preference_updates_kept {known : List String} {store : PreferenceStore}
    {tr : List Settings.Label} {s : Settings}
    (h : Run (Settings.Step known) (Settings.start store) tr s) :
    (∀ before i key command after,
      tr = before ++ Settings.Label.handler i (.commits key command) :: after →
      (∀ f, command.field = some f → ∀ l ∈ after, ¬ l.Writes key f) →
      ∃ p, notificationPreferences key s.store = .ok (some p) ∧ command.ShownBy p) ∧
    (∀ i changed, .handler i (.reports (.ok changed)) ∈ tr → ∃ key command words,
      .handler i (.commits key command) ∈ tr ∧ .handler i (.begins key words) ∈ tr ∧
        SettingsCommand.parse known words = command) ∧
    (∀ i e, .handler i (.reports (.error e)) ∈ tr →
      ∀ key command, .handler i (.commits key command) ∉ tr) ∧
    ∀ l t, Settings.Step known s l t →
      (∀ i e, l = .handler i (.reports (.error e)) → t.store = s.store) ∧
      ∀ k p, notificationPreferences k s.store = .ok (some p) →
        ∃ q, notificationPreferences k t.store = .ok (some q) ∧ Settings.Rewritten l k p q := by
  have hinv := Settings.invariant_of_run h
  refine ⟨hinv.kept,?_,fun i => (hinv.history i).refuses,?_⟩
  · intro i changed hm
    obtain ⟨key,command,hc⟩ := (hinv.history i).reports changed hm
    obtain ⟨words,hw,hp⟩ := (hinv.history i).commits key command hc
    exact ⟨key,command,words,hc,hw,hp⟩
  · intro l t hs
    refine ⟨?_,fun k p hp => Settings.step_reads hs hinv.sound hp⟩
    rintro i e rfl
    cases hs with
    | moves hn =>
      rcases Settings.next_cases hn with ⟨rfl,_⟩ | ⟨_,_,_,_,_,_,_,he⟩
      · rfl
      · simp at he

namespace Settings.Race

def store : PreferenceStore where
  identities := {7}
  chats := {9}
  privateChatBindings := ⟨[⟨7,9⟩],by simp⟩
  notificationPreferences := ⟨[defaultPreferences 7 9],by simp⟩
  notificationClassPreferences := .empty

def off : List String := ["/settings","notifications","off"]

def bypass : List String := ["/settings","high-priority-bypass","on"]

/-- Two handlers read version zero; the second to write meets version one. -/
def labels : List Label :=
  [.handler 0 (.begins (7,9) off),.handler 1 (.begins (7,9) bypass),
    .handler 0 .proceeds,.handler 0 .proceeds,.handler 1 .proceeds,.handler 1 .proceeds,
    .handler 0 (.commits (7,9) (.setGlobal false)),.handler 1 (.reports (.error .stalePreference))]

theorem run : ∃ s, Run (Step []) (start store) labels s := by
  have begun : Run (Step []) (start store) [.handler 0 (.begins (7,9) off)] _ :=
    Run.single (.begins rfl)
  have joined : Run (Step []) (start store) (labels.take 2) _ := begun.snoc (.begins rfl)
  have row : Run (Step []) (start store) (labels.take 3) _ := joined.snoc (.moves rfl)
  have current : Run (Step []) (start store) (labels.take 4) _ := row.snoc (.moves rfl)
  have otherRow : Run (Step []) (start store) (labels.take 5) _ := current.snoc (.moves rfl)
  have otherCurrent : Run (Step []) (start store) (labels.take 6) _ := otherRow.snoc (.moves rfl)
  have committed : Run (Step []) (start store) (labels.take 7) _ := otherCurrent.snoc (.moves rfl)
  exact ⟨_,committed.snoc (.moves rfl)⟩

end Settings.Race

/-- The race: notifications stay off, and the handler that lost wrote nothing. -/
theorem preference_updates_kept_race : ∃ s,
    Run (Settings.Step []) (Settings.start Settings.Race.store) Settings.Race.labels s ∧
    (∃ p, notificationPreferences (7,9) s.store = .ok (some p) ∧ p.enabled = false) ∧
    ∀ key command, .handler 1 (.commits key command) ∉ Settings.Race.labels := by
  obtain ⟨s,hs⟩ := Settings.Race.run
  obtain ⟨hkept,_,hrefused,_⟩ := preference_updates_kept hs
  refine ⟨s,hs,?_,hrefused 1 .stalePreference (by simp [Settings.Race.labels])⟩
  refine hkept (Settings.Race.labels.take 6) 0 (7,9) (.setGlobal false)
    [.handler 1 (.reports (.error .stalePreference))] rfl ?_
  intro f _ l hl
  obtain rfl := List.mem_singleton.mp hl
  exact id

end RatatoskrTelegram
