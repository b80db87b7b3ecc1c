import Mathlib.Data.List.TakeWhile
import RatatoskrTelegram.SettingsHandlers

/-!
# The text of a quiet window

The command reads a window that the settings view shows. Each has its own spelling of the
minutes, and the store stands between them.
-/

namespace RatatoskrTelegram

def digitValue (c : Char) : ℕ := c.toNat - '0'.toNat

inductive TwoDigits : List Char → ℕ → Prop
  | mk {tens units : Char} : tens.isDigit = true → units.isDigit = true →
      TwoDigits [tens,units] (10 * digitValue tens + digitValue units)

inductive PlusDigit : List Char → ℕ → Prop
  | mk {units : Char} : units.isDigit = true → PlusDigit ['+',units] (digitValue units)

/-- `HH:MM`, where `Field` says how a field is spelled. -/
def SpellsMinute (Field : List Char → ℕ → Prop) (text : List Char) (minute : ℕ) : Prop :=
  ∃ hourText minuteText h m, text = hourText ++ ':' :: minuteText ∧ Field hourText h ∧
    Field minuteText m ∧ h ≤ 23 ∧ m ≤ 59 ∧ minute = h * 60 + m

/-- `HH:MM-HH:MM`, with two distinct bounds. -/
structure SpellsWindow (Field : List Char → ℕ → Prop) (text : List Char)
    (startMinute endMinute : ℕ) : Prop where
  spelled : ∃ startText endText, text = startText ++ '-' :: endText ∧
    SpellsMinute Field startText startMinute ∧ SpellsMinute Field endText endMinute
  distinct : startMinute ≠ endMinute

def CanonicalWindow : List Char → ℕ → ℕ → Prop := SpellsWindow TwoDigits

/-- The form a window is read in: a plus sign may stand for the first digit of a field. -/
def ReadableWindow : List Char → ℕ → ℕ → Prop :=
  SpellsWindow fun field n => TwoDigits field n ∨ PlusDigit field n

def SignedWindow (text : List Char) : Prop :=
  '+' ∈ text ∧ ∃ startMinute endMinute, ReadableWindow text startMinute endMinute

section Reading

theorem splitOnce_eq_some {separator : Char} {text first second : List Char} :
    splitOnce separator text = some (first,second) ↔
      separator ∉ first ∧ text = first ++ separator :: second := by
  unfold splitOnce
  constructor
  · intro h
    split at h
    · rename_i hmem
      obtain ⟨rfl,rfl⟩ := Prod.mk.inj (Option.some.inj h)
      have hne : text.dropWhile (· ≠ separator) ≠ [] := by
        intro hnil
        have hall := List.dropWhile_eq_nil_iff.mp hnil separator hmem
        simp at hall
      obtain ⟨c,rest,hcons⟩ := List.exists_cons_of_ne_nil hne
      have hhead := List.head?_dropWhile_not (fun c => decide (c ≠ separator)) text
      rw [hcons] at hhead
      have hc : c = separator := by simpa using hhead
      refine ⟨?_,?_⟩
      · intro hin
        have hnot := List.mem_takeWhile_imp hin
        simp at hnot
      · rw [hcons,List.tail_cons,← hc,← hcons,hc]
        exact List.takeWhile_append_dropWhile.symm
    · simp at h
  · rintro ⟨hnot,rfl⟩
    have hall : ∀ c ∈ first, decide (c ≠ separator) = true := by
      intro c hc
      simpa using fun heq : c = separator => hnot (heq ▸ hc)
    rw [if_pos (by simp),List.takeWhile_append_of_pos hall,List.dropWhile_append_of_pos hall]
    simp

theorem digitValue_lt {c : Char} (h : c.isDigit = true) : digitValue c < 10 := by
  unfold digitValue
  simp only [Char.isDigit,Bool.and_eq_true,decide_eq_true_eq] at h
  have hle : c.toNat ≤ '9'.toNat := h.2
  have hnine : '9'.toNat = 57 := rfl
  have hzero : '0'.toNat = 48 := rfl
  omega

theorem parseUnsigned_plus (b : Char) :
    parseUnsigned 65536 ['+',b] = if b.isDigit then some (digitValue b) else none := by
  by_cases hb : b.isDigit = true
  · have hlt := digitValue_lt hb
    have hbound : b.toNat - 48 < 65536 := by
      have hvalue : digitValue b = b.toNat - 48 := rfl
      omega
    simpa [parseUnsigned,hb,digitValue] using hbound
  · simp [parseUnsigned,hb]

theorem parseUnsigned_digits {a : Char} (ha : a ≠ '+') (b : Char) :
    parseUnsigned 65536 [a,b] =
      if a.isDigit ∧ b.isDigit then some (10 * digitValue a + digitValue b) else none := by
  by_cases hdigits : a.isDigit = true ∧ b.isDigit = true
  · have hlt := digitValue_lt hdigits.1
    have hlt' := digitValue_lt hdigits.2
    have hbound : 10 * (a.toNat - 48) + (b.toNat - 48) < 65536 := by
      have hvalue : digitValue a = a.toNat - 48 := rfl
      have hvalue' : digitValue b = b.toNat - 48 := rfl
      omega
    simpa [parseUnsigned,ha,hdigits,digitValue] using hbound
  · simp [parseUnsigned,ha,hdigits]

theorem parseUnsigned_two {field : List Char} (hlength : field.length = 2) {n : ℕ} :
    parseUnsigned 65536 field = some n ↔ TwoDigits field n ∨ PlusDigit field n := by
  obtain ⟨a,b,rfl⟩ := List.length_eq_two.mp hlength
  by_cases hplus : a = '+'
  · subst hplus
    rw [parseUnsigned_plus]
    constructor
    · intro h
      split at h
      · rename_i hb
        rw [← Option.some.inj h]
        exact .inr ⟨hb⟩
      · simp at h
    · rintro (hdigits | hsign)
      · cases hdigits with
        | mk hplus _ => exact absurd hplus (by decide)
      · cases hsign with
        | mk hb => rw [if_pos hb]
  · rw [parseUnsigned_digits hplus]
    constructor
    · intro h
      split at h
      · rename_i hdigits
        rw [← Option.some.inj h]
        exact .inl ⟨hdigits.1,hdigits.2⟩
      · simp at h
    · rintro (hdigits | hsign)
      · cases hdigits with
        | mk ha hb => rw [if_pos ⟨ha,hb⟩]
      · cases hsign with
        | mk _ => exact absurd rfl hplus

theorem readable_field {field : List Char} {n : ℕ} (h : TwoDigits field n ∨ PlusDigit field n) :
    field.length = 2 ∧ ':' ∉ field ∧ '-' ∉ field := by
  have hmarks : ∀ {c : Char}, c.isDigit = true → c ≠ ':' ∧ c ≠ '-' := by
    intro c hc
    constructor
    · rintro rfl
      exact absurd hc (by decide)
    · rintro rfl
      exact absurd hc (by decide)
  rcases h with hdigits | hsign
  · cases hdigits with
    | mk ha hb =>
      have hfirst := hmarks ha
      have hsecond := hmarks hb
      simp [hfirst.1.symm,hfirst.2.symm,hsecond.1.symm,hsecond.2.symm]
  · cases hsign with
    | mk hb =>
      have hsecond := hmarks hb
      simp [hsecond.1.symm,hsecond.2.symm]

theorem parseMinute_eq_some {text : List Char} {minute : ℕ} :
    parseMinute text = some minute ↔
      SpellsMinute (fun field n => TwoDigits field n ∨ PlusDigit field n) text minute := by
  unfold parseMinute SpellsMinute
  constructor
  · intro h
    obtain ⟨⟨hourText,minuteText⟩,hsplit,hfields⟩ := Option.bind_eq_some_iff.mp h
    obtain ⟨_,rfl⟩ := splitOnce_eq_some.mp hsplit
    dsimp only at hfields
    split at hfields
    · simp at hfields
    · rename_i hlengths
      obtain ⟨hhour,hminute⟩ := not_or.mp hlengths
      obtain ⟨hourValue,hh,hrest⟩ := Option.bind_eq_some_iff.mp hfields
      obtain ⟨minuteValue,hm,hvalue⟩ := Option.bind_eq_some_iff.mp hrest
      split at hvalue
      · rename_i hrange
        have hhourField := (parseUnsigned_two (not_not.mp hhour)).mp hh
        have hminuteField := (parseUnsigned_two (not_not.mp hminute)).mp hm
        exact ⟨hourText,minuteText,hourValue,minuteValue,rfl,hhourField,hminuteField,
          by omega,by omega,(Option.some.inj hvalue).symm⟩
      · simp at hvalue
  · rintro ⟨hourText,minuteText,hourValue,minuteValue,rfl,hh,hm,hhour,hminute,rfl⟩
    obtain ⟨hlength,hcolon,_⟩ := readable_field hh
    have hlength' := (readable_field hm).1
    have hrange : hourValue < 24 ∧ minuteValue < 60 := by omega
    rw [splitOnce_eq_some.mpr ⟨hcolon,rfl⟩]
    simp [hlength,hlength',(parseUnsigned_two hlength).mpr hh,(parseUnsigned_two hlength').mpr hm,
      hrange]

theorem parseWindow_eq_some {text : List Char} {policy : QuietSelection} :
    parseWindow text = some policy ↔ ∃ startMinute endMinute,
      ReadableWindow text startMinute endMinute ∧ policy = .custom startMinute endMinute := by
  unfold parseWindow
  constructor
  · intro h
    obtain ⟨⟨startText,endText⟩,hsplit,hbounds⟩ := Option.bind_eq_some_iff.mp h
    obtain ⟨_,rfl⟩ := splitOnce_eq_some.mp hsplit
    obtain ⟨startMinute,hs,hrest⟩ := Option.bind_eq_some_iff.mp hbounds
    obtain ⟨endMinute,he,hvalue⟩ := Option.bind_eq_some_iff.mp hrest
    split at hvalue
    · rename_i hdistinct
      exact ⟨startMinute,endMinute,⟨⟨startText,endText,rfl,parseMinute_eq_some.mp hs,
        parseMinute_eq_some.mp he⟩,hdistinct⟩,(Option.some.inj hvalue).symm⟩
    · simp at hvalue
  · rintro ⟨startMinute,endMinute,⟨⟨startText,endText,rfl,hs,he⟩,hdistinct⟩,rfl⟩
    have hdash : '-' ∉ startText := by
      obtain ⟨hourText,minuteText,h,m,rfl,hh,hm,_⟩ := hs
      simp [(readable_field hh).2.2,(readable_field hm).2.2]
    rw [splitOnce_eq_some.mpr ⟨hdash,rfl⟩]
    simp [parseMinute_eq_some.mpr hs,parseMinute_eq_some.mpr he,hdistinct]

end Reading

theorem digitChar_digitValue {c : Char} (h : c.isDigit = true) :
    Nat.digitChar (digitValue c) = c := by
  have hlt := digitValue_lt h
  have hlow : '0'.toNat ≤ c.toNat := by
    simp only [Char.isDigit,Bool.and_eq_true,decide_eq_true_eq] at h
    exact h.1
  have hnat : c.toNat = digitValue c + '0'.toNat := by
    unfold digitValue
    omega
  rw [← Char.ofNat_toNat c,hnat]
  generalize digitValue c = n at hlt
  have hall : ∀ n < 10, Nat.digitChar (digitValue (Char.ofNat (n + '0'.toNat))) =
      Char.ofNat (n + '0'.toNat) := by decide
  exact hall n hlt

theorem digitChar_isDigit {n : ℕ} (h : n < 10) : (Nat.digitChar n).isDigit = true := by
  have hall : ∀ n < 10, (Nat.digitChar n).isDigit = true := by decide
  exact hall n h

theorem digitValue_digitChar {n : ℕ} (h : n < 10) : digitValue (Nat.digitChar n) = n := by
  have hall : ∀ n < 10, digitValue (Nat.digitChar n) = n := by decide
  exact hall n h

theorem toList_twoDigits {n : ℕ} (h : n < 100) :
    (twoDigits n).toList = [Nat.digitChar (n / 10),Nat.digitChar (n % 10)] := by
  have hall : ∀ n < 100, (twoDigits n).toList = [Nat.digitChar (n / 10),Nat.digitChar (n % 10)] := by
    decide +kernel
  exact hall n h

theorem TwoDigits.toList_eq {field : List Char} {n : ℕ} (h : TwoDigits field n) :
    field = (twoDigits n).toList := by
  cases h with
  | @mk tens units htens hunits =>
    have hlt := digitValue_lt htens
    have hlt' := digitValue_lt hunits
    have hdiv : (10 * digitValue tens + digitValue units) / 10 = digitValue tens := by omega
    have hmod : (10 * digitValue tens + digitValue units) % 10 = digitValue units := by omega
    rw [toList_twoDigits (by omega),hdiv,hmod,digitChar_digitValue htens,
      digitChar_digitValue hunits]

theorem twoDigits_spells {n : ℕ} (h : n < 100) : TwoDigits (twoDigits n).toList n := by
  have htens : n / 10 < 10 := by omega
  have hunits : n % 10 < 10 := by omega
  have hspelled : TwoDigits [Nat.digitChar (n / 10),Nat.digitChar (n % 10)]
      (10 * digitValue (Nat.digitChar (n / 10)) + digitValue (Nat.digitChar (n % 10))) :=
    .mk (digitChar_isDigit htens) (digitChar_isDigit hunits)
  have hvalue : 10 * (n / 10) + n % 10 = n := by omega
  rw [digitValue_digitChar htens,digitValue_digitChar hunits,hvalue] at hspelled
  rwa [toList_twoDigits h]

def minuteText (minute : ℕ) : List Char :=
  (twoDigits (minute / 60)).toList ++ ':' :: (twoDigits (minute % 60)).toList

/-- A window as the settings view shows it. -/
def windowText (startMinute endMinute : ℕ) : List Char :=
  minuteText startMinute ++ '-' :: minuteText endMinute

theorem spellsMinute_iff {text : List Char} {minute : ℕ} :
    SpellsMinute TwoDigits text minute ↔ text = minuteText minute ∧ minute < 1440 := by
  constructor
  · rintro ⟨hourText,minuteText',h,m,rfl,hh,hm,hhour,hminute,rfl⟩
    have hdiv : (h * 60 + m) / 60 = h := by omega
    have hmod : (h * 60 + m) % 60 = m := by omega
    rw [minuteText,hdiv,hmod,hh.toList_eq,hm.toList_eq]
    exact ⟨rfl,by omega⟩
  · rintro ⟨rfl,hday⟩
    exact ⟨_,_,minute / 60,minute % 60,rfl,twoDigits_spells (by omega),twoDigits_spells (by omega),
      by omega,by omega,by omega⟩

/-- There is one canonical form for each window of the day. -/
theorem canonicalWindow_iff {text : List Char} {startMinute endMinute : ℕ} :
    CanonicalWindow text startMinute endMinute ↔ text = windowText startMinute endMinute ∧
      startMinute < 1440 ∧ endMinute < 1440 ∧ startMinute ≠ endMinute := by
  constructor
  · rintro ⟨⟨startText,endText,rfl,hs,he⟩,hdistinct⟩
    obtain ⟨rfl,hstart⟩ := spellsMinute_iff.mp hs
    obtain ⟨rfl,hend⟩ := spellsMinute_iff.mp he
    exact ⟨rfl,hstart,hend,hdistinct⟩
  · rintro ⟨rfl,hstart,hend,hdistinct⟩
    exact ⟨⟨_,_,rfl,spellsMinute_iff.mpr ⟨rfl,hstart⟩,spellsMinute_iff.mpr ⟨rfl,hend⟩⟩,hdistinct⟩

theorem twoDigits_iff {field : List Char} {n : ℕ} :
    TwoDigits field n ↔ (TwoDigits field n ∨ PlusDigit field n) ∧ '+' ∉ field := by
  constructor
  · intro h
    refine ⟨.inl h,?_⟩
    cases h with
    | mk htens hunits =>
      intro hmem
      have hdigit : '+'.isDigit = true := by
        rcases List.mem_pair.mp hmem with htens' | hunits'
        · rwa [htens']
        · rwa [hunits']
      exact absurd hdigit (by decide)
  · rintro ⟨hdigits | hsign,hplus⟩
    · exact hdigits
    · cases hsign with
      | mk _ => simp at hplus

theorem canonicalWindow_iff_readable {text : List Char} {startMinute endMinute : ℕ} :
    CanonicalWindow text startMinute endMinute ↔
      ReadableWindow text startMinute endMinute ∧ '+' ∉ text := by
  have hminute : ∀ text minute, SpellsMinute TwoDigits text minute ↔
      SpellsMinute (fun field n => TwoDigits field n ∨ PlusDigit field n) text minute ∧
        '+' ∉ text := by
    intro text minute
    constructor
    · rintro ⟨hourText,minuteText',h,m,rfl,hh,hm,hrest⟩
      obtain ⟨hh,hplus⟩ := twoDigits_iff.mp hh
      obtain ⟨hm,hplus'⟩ := twoDigits_iff.mp hm
      exact ⟨⟨_,_,h,m,rfl,hh,hm,hrest⟩,by simp [hplus,hplus']⟩
    · rintro ⟨⟨hourText,minuteText',h,m,rfl,hh,hm,hrest⟩,hplus⟩
      have hparts : '+' ∉ hourText ∧ '+' ∉ minuteText' := by simpa using hplus
      exact ⟨_,_,h,m,rfl,twoDigits_iff.mpr ⟨hh,hparts.1⟩,twoDigits_iff.mpr ⟨hm,hparts.2⟩,hrest⟩
  constructor
  · rintro ⟨⟨startText,endText,rfl,hs,he⟩,hdistinct⟩
    obtain ⟨hs,hplus⟩ := (hminute _ _).mp hs
    obtain ⟨he,hplus'⟩ := (hminute _ _).mp he
    exact ⟨⟨⟨_,_,rfl,hs,he⟩,hdistinct⟩,by simp [hplus,hplus']⟩
  · rintro ⟨⟨⟨startText,endText,rfl,hs,he⟩,hdistinct⟩,hplus⟩
    have hparts : '+' ∉ startText ∧ '+' ∉ endText := by simpa using hplus
    exact ⟨⟨_,_,rfl,(hminute _ _).mpr ⟨hs,hparts.1⟩,(hminute _ _).mpr ⟨he,hparts.2⟩⟩,hdistinct⟩

def settingsHead (p : NotificationPreferences) : String :=
  "<b>Notification settings</b>\nnotifications: " ++ toggleText p.enabled ++ "\nquiet-hours: "

def settingsTail (known : List String) (p : NotificationPreferences) : String :=
  "\nhigh-priority-bypass: " ++ toggleText p.highPriorityBypass ++ "\n" ++
    "\n".intercalate (known.map fun notificationClass => notificationClass ++ ": " ++
      ((p.classOverrides notificationClass).map toggleText).getD "inherit")

theorem render_quiet (known : List String) (p : NotificationPreferences) :
    p.render known = settingsHead p ++ quietText p.quietPolicy ++ settingsTail known p := by
  unfold NotificationPreferences.render settingsHead settingsTail
  dsimp only
  generalize "<b>Notification settings</b>\nnotifications: " ++ toggleText p.enabled ++
    "\nquiet-hours: " ++ quietText p.quietPolicy = head
  simp only [String.append_assoc]

def ShowsWindow (known : List String) (p : NotificationPreferences) (text : List Char) : Prop :=
  p.render known = settingsHead p ++ (String.ofList text ++ " UTC") ++ settingsTail known p

theorem quietText_custom (startMinute endMinute : ℕ) :
    quietText (.custom startMinute endMinute) =
      String.ofList (windowText startMinute endMinute) ++ " UTC" := by
  apply String.toList_injective
  simp [quietText,windowText,minuteText]

theorem showsWindow_iff {known : List String} {p : NotificationPreferences} {text : List Char}
    {startMinute endMinute : ℕ} (h : p.quietPolicy = .custom startMinute endMinute) :
    ShowsWindow known p text ↔ text = windowText startMinute endMinute := by
  rw [ShowsWindow,render_quiet,h,quietText_custom]
  constructor
  · intro hshown
    have hlist := congrArg String.toList hshown
    simpa using hlist.symm
  · rintro rfl
    rfl

/-- Exactly the canonical windows are read, and once stored each is shown as it was written. -/
structure WindowRoundTrips (text : List Char) : Prop where
  accepted : ∀ policy, parseWindow text = some policy ↔ ∃ startMinute endMinute,
    CanonicalWindow text startMinute endMinute ∧ policy = .custom startMinute endMinute
  shown : ∀ policy, parseWindow text = some policy → ∃ columns, policy.columns = .ok columns ∧
    ∀ (row : PreferenceRow) overrides p known, row.quiet = columns →
      row.snapshot overrides = .ok p → ShowsWindow known p text

/-- The window of every stored row is shown, and what is shown is read as that window. -/
def StoredWindowsReadBack : Prop :=
  ∀ (row : PreferenceRow) overrides p known, row.quiet.policy = .custom →
    row.snapshot overrides = .ok p →
      (∃ text, ShowsWindow known p text) ∧
        ∀ text, ShowsWindow known p text → parseWindow text = some p.quietPolicy

theorem snapshot_quietPolicy {row : PreferenceRow} {overrides : String → Option Bool}
    {p : NotificationPreferences} (h : row.snapshot overrides = .ok p) :
    QuietSelection.fromColumns row.quiet = .ok p.quietPolicy := by
  unfold PreferenceRow.snapshot at h
  split at h
  · simp at h
  · rename_i quietPolicy hquiet
    rw [hquiet,← Except.ok.inj h]

theorem canonicalWindow_reads {text : List Char} {startMinute endMinute : ℕ}
    (h : CanonicalWindow text startMinute endMinute) :
    parseWindow text = some (.custom startMinute endMinute) :=
  parseWindow_eq_some.mpr ⟨_,_,(canonicalWindow_iff_readable.mp h).1,rfl⟩

theorem windowRoundTrips_of_plain {text : List Char} (h : ¬ SignedWindow text) :
    WindowRoundTrips text := by
  have haccepted : ∀ policy, parseWindow text = some policy ↔ ∃ startMinute endMinute,
      CanonicalWindow text startMinute endMinute ∧ policy = .custom startMinute endMinute := by
    intro policy
    rw [parseWindow_eq_some]
    constructor
    · rintro ⟨s,e,hread,rfl⟩
      have hplus : '+' ∉ text := fun hmem => h ⟨hmem,s,e,hread⟩
      exact ⟨s,e,canonicalWindow_iff_readable.mpr ⟨hread,hplus⟩,rfl⟩
    · rintro ⟨s,e,hcanonical,rfl⟩
      exact ⟨s,e,(canonicalWindow_iff_readable.mp hcanonical).1,rfl⟩
  refine ⟨haccepted,fun policy hread => ?_⟩
  obtain ⟨s,e,hcanonical,rfl⟩ := (haccepted policy).mp hread
  obtain ⟨htext,hstart,hend,hdistinct⟩ := canonicalWindow_iff.mp hcanonical
  obtain ⟨columns,hcolumns⟩ : ∃ columns, (QuietSelection.custom s e).columns = .ok columns :=
    ⟨_,dif_pos ⟨hstart,hend,hdistinct⟩⟩
  refine ⟨columns,hcolumns,?_⟩
  intro row overrides p known hrow hsnapshot
  have hstored := snapshot_quietPolicy hsnapshot
  rw [hrow,QuietSelection.fromColumns_columns hcolumns] at hstored
  exact (showsWindow_iff (Except.ok.inj hstored).symm).mpr htext

theorem not_signed_of_roundTrips {text : List Char} (h : WindowRoundTrips text) :
    ¬ SignedWindow text := by
  rintro ⟨hplus,s,e,hread⟩
  obtain ⟨_,_,hcanonical,_⟩ := (h.accepted _).mp (parseWindow_eq_some.mpr ⟨s,e,hread,rfl⟩)
  exact (canonicalWindow_iff_readable.mp hcanonical).2 hplus

theorem stored_window {c : QuietColumns} (h : c.policy = .custom) :
    ∃ startMinute endMinute, QuietSelection.fromColumns c = .ok (.custom startMinute endMinute) ∧
      startMinute < 1440 ∧ endMinute < 1440 ∧ startMinute ≠ endMinute := by
  obtain ⟨policy,startColumn,endColumn,hday,hwindow⟩ := c
  obtain rfl : policy = .custom := h
  rcases hwindow with ⟨_,hs,he,hne⟩ | ⟨hnot,_⟩
  · obtain ⟨s,rfl⟩ := Option.ne_none_iff_exists'.mp hs
    obtain ⟨e,rfl⟩ := Option.ne_none_iff_exists'.mp he
    have hstart := hday s (.inl rfl)
    have hend := hday e (.inr rfl)
    have hdistinct : s ≠ e := fun heq => hne (congrArg some heq)
    refine ⟨s.toNat,e.toNat,?_,by omega,by omega,by omega⟩
    simp [QuietSelection.fromColumns,QuietSelection.minute,bind,Except.bind,hstart.1,hend.1]
  · exact absurd rfl hnot

theorem storedWindows_readBack : StoredWindowsReadBack := by
  intro row overrides p known hcustom hsnapshot
  obtain ⟨s,e,hstored,hstart,hend,hdistinct⟩ := stored_window hcustom
  have hpolicy : p.quietPolicy = .custom s e :=
    Except.ok.inj ((snapshot_quietPolicy hsnapshot).symm.trans hstored)
  refine ⟨⟨_,(showsWindow_iff hpolicy).mpr rfl⟩,fun text hshown => ?_⟩
  rw [(showsWindow_iff hpolicy).mp hshown,hpolicy]
  exact canonicalWindow_reads (canonicalWindow_iff.mpr ⟨rfl,hstart,hend,hdistinct⟩)

/-- The text of a window round-trips exactly where no plus sign stands for a digit of it; the
window of every stored row does in any case. -/
theorem windowRoundTrips_iff (text : List Char) :
    (WindowRoundTrips text ↔ ¬ SignedWindow text) ∧ StoredWindowsReadBack :=
  ⟨⟨not_signed_of_roundTrips,windowRoundTrips_of_plain⟩,storedWindows_readBack⟩

/-- Eight o'clock may be written with a plus sign, and is shown with a zero. -/
theorem signed_window_read : ¬ ∀ text, WindowRoundTrips text := by
  intro h
  refine not_signed_of_roundTrips (h "+8:00-09:00".toList) ⟨by decide,480,540,?_⟩
  obtain ⟨s,e,hread,hpolicy⟩ := parseWindow_eq_some.mp
    (by decide +kernel : parseWindow "+8:00-09:00".toList = some (.custom 480 540))
  cases hpolicy
  exact hread

end RatatoskrTelegram
