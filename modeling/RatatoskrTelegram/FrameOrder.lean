import RatatoskrTelegram.ProgressStream
import RatatoskrTelegram.ProjectionInvariants

/-!
# Older frames and the watermark

An accepted frame leaves the whole second of its instant on the binding. A frame
of an earlier second is ignored after it; an older frame of the same second is
recorded over it.
-/

namespace RatatoskrTelegram

/-- What the consumer calls for a frame, with the payload it renders. -/
def ProgressFrame.call (frame : ProgressFrame) (operationId jobId : Uuid)
    (payload : MessagePayload) (contentHash : String) (now renderIntervalSecs : ℤ) : Call :=
  .acceptOperationEvent jobId ((mapFrame operationId frame.eventId frame.observedAtSecs
    frame.status).rendered payload contentHash) now renderIntervalSecs

def KeepsCanonical (operationId : Uuid) (db : Database) (c : Call) : Prop :=
  ∀ b ∈ lockBinding operationId db.messageBindings,
    ∀ created ∈ (c.apply db).messageBindings.rows, created.operationId = operationId →
      b.chatId ≤ created.chatId

def CanonicalStep (operationId : Uuid) (db : Database) (c : Call) (db' : Database) : Prop :=
  CallStep db c db' ∧ KeepsCanonical operationId db c

def RecordsEdit (db : Database) : Call → Prop
  | .acceptOperationEvent jobId event now renderIntervalSecs =>
    ∃ revision, (acceptOperationEvent jobId event now renderIntervalSecs db).1 =
      .ok (.recorded revision)
  | _ => False

/-- In every run, the older frame records no edit after the newer one has, and moves no
watermark. -/
def IgnoredAfter (newer older : ProgressFrame) : Prop :=
  ∀ (operationId jobId jobId' : Uuid) (payload payload' : MessagePayload)
    (contentHash contentHash' : String) (now now' renderIntervalSecs renderIntervalSecs' : ℤ)
    (tr tr' : List Call) (db db' : Database), Run CallStep .fresh tr db →
    RecordsEdit db (newer.call operationId jobId payload contentHash now renderIntervalSecs) →
    Run (CanonicalStep operationId)
      ((newer.call operationId jobId payload contentHash now renderIntervalSecs).apply db) tr' db' →
    ¬ RecordsEdit db'
        (older.call operationId jobId' payload' contentHash' now' renderIntervalSecs') ∧
      ((older.call operationId jobId' payload' contentHash' now' renderIntervalSecs').apply
        db').outboundJobs = db'.outboundJobs ∧
      ((older.call operationId jobId' payload' contentHash' now' renderIntervalSecs').apply
        db').messageBindings = db'.messageBindings

section Accepts

variable {operationId jobId : Uuid} {event : AcceptedEvent} {now renderIntervalSecs : ℤ}
  {db : Database}

theorem accept_writes_recorded (h : ∀ revision,
      (acceptOperationEvent jobId event now renderIntervalSecs db).1 ≠ .ok (.recorded revision)) :
    (acceptOperationEvent jobId event now renderIntervalSecs db).2.outboundJobs =
        db.outboundJobs ∧
      (acceptOperationEvent jobId event now renderIntervalSecs db).2.messageBindings =
        db.messageBindings := by
  obtain ⟨r,u,he,hstep⟩ := acceptOperationEvent_step jobId event now renderIntervalSecs db
  rw [he] at h ⊢
  cases hstep with
  | recorded _ _ _ _ _ => exact absurd rfl (h _)
  | _ => exact ⟨rfl,rfl⟩

theorem lockBinding_recorded {revision : ℤ}
    (h : (acceptOperationEvent jobId event now renderIntervalSecs db).1 =
      .ok (.recorded revision)) :
    event.eventId ∈ (acceptOperationEvent jobId event now renderIntervalSecs db).2.inbox ∧
      ∃ b, lockBinding event.operationId
        (acceptOperationEvent jobId event now renderIntervalSecs db).2.messageBindings = some b ∧
        b.terminal = event.terminal ∧ b.lastEventAt = some event.occurredAtSecs := by
  have hcanonical := @accept_creates_none event.operationId db jobId event now renderIntervalSecs
  obtain ⟨r,u,he,hstep⟩ := acceptOperationEvent_step jobId event now renderIntervalSecs db
  rw [he] at h ⊢
  cases hstep with
  | @recorded binding jobs _ hl ht _ _ =>
    refine ⟨Finset.mem_insert_self _ _,?_⟩
    obtain ⟨b',hb',hre⟩ := lockBinding_apply hl (hcanonical binding hl)
    simp only [Call.apply,he] at hb'
    have hm := (lockBinding_eq_some hl).1
    have hkey : Keyed.key b' = Keyed.key binding :=
      Prod.ext hre.advances.operationId hre.advances.chatId
    have hsel : (recordBinding binding event db.messageBindings).select _ = _ :=
      recordBinding_select ht hm (Table.select_of_mem hm)
    have hsel' := Table.select_of_mem (lockBinding_eq_some hb').1
    rw [hkey] at hsel'
    obtain rfl := Option.some.inj (hsel'.symm.trans hsel)
    exact ⟨_,hb',by simp,by simp⟩
  | _ => simp at h

/-- A recorded event consumes its own id and adds its own job alone. -/
theorem accept_recorded_frame {revision : ℤ}
    (h : (acceptOperationEvent jobId event now renderIntervalSecs db).1 =
      .ok (.recorded revision)) :
    (acceptOperationEvent jobId event now renderIntervalSecs db).2.inbox =
        insert event.eventId db.inbox ∧
      ∀ id, id ≠ jobId → db.outboundJobs.select id = none →
        (acceptOperationEvent jobId event now renderIntervalSecs db).2.outboundJobs.select id =
          none := by
  obtain ⟨r,u,he,hstep⟩ := acceptOperationEvent_step jobId event now renderIntervalSecs db
  rw [he] at h ⊢
  cases hstep with
  | recorded _ _ _ _ hi =>
    refine ⟨rfl,fun id hid hn => ?_⟩
    dsimp only [recordedDatabase]
    rw [Table.select_insert hi,if_neg (by simpa [editJob] using hid)]
    simp [supersedeOlderEdits,hn]
  | _ => simp at h

/-- The operation is past an event: its id is consumed, and its flag and its second, or later ones,
are on the canonical binding. -/
structure PastEvent (operationId eventId : Uuid) (terminal : Bool) (secs : ℤ) (db : Database) :
    Prop where
  seen : eventId ∈ db.inbox
  canonical : ∃ b, lockBinding operationId db.messageBindings = some b ∧
    (terminal = true → b.terminal = true) ∧ ∃ w ∈ b.lastEventAt, secs ≤ w

theorem PastEvent.run {eventId : Uuid} {terminal : Bool} {secs : ℤ} {db' : Database}
    {tr : List Call}
    (h : PastEvent operationId eventId terminal secs db)
    (hr : Run (CanonicalStep operationId) db tr db') :
    PastEvent operationId eventId terminal secs db' := by
  refine hr.invariant h ?_
  rintro v c w hv ⟨⟨_,rfl⟩,hkeeps⟩
  obtain ⟨b,hb,hterminal,watermark,hw,hle⟩ := hv.canonical
  obtain ⟨b',hb',hre⟩ := lockBinding_apply hb (hkeeps b hb)
  obtain ⟨watermark',hw',hle'⟩ := hre.advances.watermark watermark hw
  exact ⟨c.inbox_subset v hv.seen,b',hb',fun ht => hre.advances.terminal (hterminal ht),watermark',
    hw',hle.trans hle'⟩

/-- Nothing is recorded for an operation that is past a terminal event, the same event, or one of a
later second. -/
theorem PastEvent.not_recorded {eventId : Uuid} {terminal : Bool} {secs revision : ℤ}
    (h : PastEvent event.operationId eventId terminal secs db)
    (hc : event.occurredAtSecs < secs ∨ event.eventId = eventId ∨ terminal = true) :
    (acceptOperationEvent jobId event now renderIntervalSecs db).1 ≠ .ok (.recorded revision) := by
  obtain ⟨b,hb,hterminal,watermark,hw,hle⟩ := h.canonical
  obtain ⟨r,u,he,hstep⟩ := acceptOperationEvent_step jobId event now renderIntervalSecs db
  rw [he]
  cases hstep with
  | @recorded binding jobs hseen hl ht hfresh _ =>
    obtain rfl := Option.some.inj (hb.symm.trans hl)
    rcases hc with hlt | rfl | hterm
    · exact absurd ⟨watermark,hw,hlt.trans_le hle⟩ hfresh
    · exact absurd h.seen hseen
    · simp [hterminal hterm] at ht
  | _ => simp

end Accepts

section Frames

variable {newer older : ProgressFrame}

theorem ignored_of_earlier (h : older.observedAtSecs < newer.observedAtSecs ∨
    older.eventId = newer.eventId ∨ newer.status.isTerminal = true) :
    IgnoredAfter newer older := by
  intro operationId jobId jobId' payload payload' contentHash contentHash' now now'
    renderIntervalSecs renderIntervalSecs' tr tr' db db' _ hrec hr
  obtain ⟨revision,hrec⟩ := hrec
  obtain ⟨hseen,b,hb,hterminal,hwatermark⟩ := lockBinding_recorded hrec
  have hpast : PastEvent operationId newer.eventId newer.status.isTerminal newer.observedAtSecs db' :=
    PastEvent.run ⟨hseen,b,hb,fun ht => hterminal.trans ht,_,hwatermark,le_rfl⟩ hr
  have hnot (revision : ℤ) : (acceptOperationEvent jobId' ((mapFrame operationId older.eventId
      older.observedAtSecs older.status).rendered payload' contentHash') now' renderIntervalSecs'
      db').1 ≠ .ok (.recorded revision) := hpast.not_recorded h
  exact ⟨fun ⟨revision,hrev⟩ => hnot revision hrev,accept_writes_recorded hnot⟩

/-- One captured operation, no event of it accepted yet. -/
def capturedOperation : Call :=
  .recordAcceptedCaptureProjection 1 (.filled 'c') 10
    Dispatcher.OneCapture.intent Dispatcher.OneCapture.acknowledgement 0

theorem capturedOperation_binding :
    (∃ b ∈ lockBinding 3 (capturedOperation.apply .fresh).messageBindings,
      b.terminal = false ∧ b.lastEventAt = none) ∧
    (capturedOperation.apply .fresh).inbox = ∅ ∧
    (capturedOperation.apply .fresh).outboundJobs.select 11 = none ∧
    (capturedOperation.apply .fresh).outboundJobs.select 12 = none := by
  decide +kernel

/-- An older frame that is no earlier by the second is recorded over one that is not terminal. -/
theorem not_ignored_of_same_second (hsecs : newer.observedAtSecs ≤ older.observedAtSecs)
    (hid : older.eventId ≠ newer.eventId) (hterminal : newer.status.isTerminal = false) :
    ¬ IgnoredAfter newer older := by
  obtain ⟨⟨b,hb,ht,hwatermark⟩,hinbox,hfirst,hsecond⟩ := capturedOperation_binding
  intro hignored
  let payload : MessagePayload := ⟨"half",none,none⟩
  let event (frame : ProgressFrame) : AcceptedEvent :=
    (mapFrame 3 frame.eventId frame.observedAtSecs frame.status).rendered payload "h1"
  have hrec : (acceptOperationEvent 11 (event newer) 0 0 _).1 = .ok (.recorded _) :=
    accept_records (by simp [hinbox]) hb ht (by simp [Overtaken,hwatermark]) hfirst 0 0
  obtain ⟨_,b',hb',hterminal',hwatermark'⟩ := lockBinding_recorded hrec
  obtain ⟨hinbox',hjobs⟩ := accept_recorded_frame hrec
  have hunseen : (event older).eventId ∉ (acceptOperationEvent 11 (event newer) 0 0
      (capturedOperation.apply .fresh)).2.inbox := by
    rw [hinbox',hinbox]
    simpa [event,mapFrame,OperationEvent.rendered] using hid
  have hfresh : ¬ Overtaken (event older).occurredAtSecs b' := by
    simp only [Overtaken,hwatermark',Option.mem_def,Option.some.injEq]
    rintro ⟨watermark,rfl,hlt⟩
    exact absurd hlt (not_lt.mpr hsecs)
  have hlate : (acceptOperationEvent 12 (event older) 0 0 _).1 = .ok (.recorded _) :=
    accept_records hunseen hb' (hterminal'.trans hterminal) hfresh
      (hjobs 12 (by decide) hsecond) 0 0
  exact (hignored 3 11 12 payload payload "h1" "h1" 0 0 0 0 [capturedOperation] [] _ _
    (Run.single ⟨trivial,rfl⟩) ⟨_,hrec⟩ Run.refl).1 ⟨_,hlate⟩

end Frames

/-- A frame observed earlier is ignored after one observed later exactly when their seconds are in
that order too, or they are one event, or the later one ends the operation. -/
theorem older_frames_ignored {codec : StreamCodec} {newerText olderText : List Char}
    {newer older : ProgressFrame} {newerAt olderAt : ℤ}
    (hnewer : codec.parseSseEvent newerText = .ok (some newer))
    (holder : codec.parseSseEvent olderText = .ok (some older))
    (hnewerAt : codec.observedAt newerText = some newerAt)
    (holderAt : codec.observedAt olderText = some olderAt) (hlt : olderAt < newerAt) :
    IgnoredAfter newer older ↔ wholeSeconds olderAt < wholeSeconds newerAt ∨
      older.eventId = newer.eventId ∨ newer.status.isTerminal = true := by
  obtain ⟨_,hat,hnewerSecs⟩ := StreamCodec.parseSseEvent_observedAt hnewer
  obtain rfl := Option.some.inj (hat.symm.trans hnewerAt)
  obtain ⟨_,hat,holderSecs⟩ := StreamCodec.parseSseEvent_observedAt holder
  obtain rfl := Option.some.inj (hat.symm.trans holderAt)
  rw [← hnewerSecs,← holderSecs]
  refine ⟨fun hignored => ?_,ignored_of_earlier⟩
  by_contra hc
  push Not at hc
  exact not_ignored_of_same_second hc.1 hc.2.1 (by simpa using hc.2.2) hignored

namespace TwoFrames

def idText (last : String) : List Char :=
  "018f0000-0000-".toList ++ "7000-8000-00000000".toList ++ last.toList

def earlierId : List Char := idText "aaa1"
def laterId : List Char := idText "aaa2"

def earlier : Uuid := 0x018f000000007000800000000000aaa1
def later : Uuid := 0x018f000000007000800000000000aaa2

def morning (rest : String) : List Char := "2026-08-17T".toList ++ rest.toList

def wire (instant : List Char) : FrameWire := ⟨"running".toList,none,none,none,instant⟩

def wireText (instant : List Char) : List Char :=
  "\x7b\"status\":\"running\"".toList ++ ",\"observed_at\":\"".toList ++ instant ++
    "\"\x7d".toList

def frameText (eventId instant : List Char) : List Char :=
  "id: ".toList ++ eventId ++ "\nevent: progress".toList ++ "\ndata: ".toList ++ wireText instant

/-- The texts below, each with what it denotes. -/
def codec : StreamCodec where
  json text := ([morning "10:00:00.9Z",morning "10:00:00.1Z",morning "11:59:59.9+02:00"].find?
    fun instant => wireText instant = text).map wire
  uuid text :=
    if text = earlierId then some earlier
    else if text = laterId then some later
    else none
  timestamp text :=
    if text = morning "10:00:00.9Z" then some 1786960800900000000
    else if text = morning "10:00:00.1Z" then some 1786960800100000000
    else if text = morning "11:59:59.9+02:00" then some 1786960799900000000
    else none

def frame (eventId : Uuid) (observedAtSecs : ℤ) : ProgressFrame :=
  ⟨eventId,.running,none,none,none,observedAtSecs⟩

theorem later_parsed : codec.parseSseEvent (frameText laterId (morning "10:00:00.9Z")) =
    .ok (some (frame later 1786960800)) := by
  decide +kernel

/-- Eight tenths of a second earlier, and recorded over the later frame. -/
theorem same_second_recorded :
    ∃ (codec : StreamCodec) (newerText olderText : List Char) (newer older : ProgressFrame)
      (newerAt olderAt : ℤ), codec.parseSseEvent newerText = .ok (some newer) ∧
      codec.parseSseEvent olderText = .ok (some older) ∧
      codec.observedAt newerText = some newerAt ∧ codec.observedAt olderText = some olderAt ∧
      olderAt < newerAt ∧ ¬ IgnoredAfter newer older := by
  refine ⟨codec,frameText laterId (morning "10:00:00.9Z"),
    frameText earlierId (morning "10:00:00.1Z"),frame later 1786960800,frame earlier 1786960800,
    1786960800900000000,1786960800100000000,later_parsed,rfl,rfl,rfl,by decide,?_⟩
  exact not_ignored_of_same_second le_rfl (by decide) rfl

/-- A second earlier, as its instant reads with another offset, and ignored. -/
theorem earlier_second_ignored :
    IgnoredAfter (frame later 1786960800) (frame earlier 1786960799) :=
  (older_frames_ignored later_parsed
    (show codec.parseSseEvent (frameText earlierId (morning "11:59:59.9+02:00")) =
      .ok (some (frame earlier 1786960799)) from rfl)
    (show _ = some 1786960800900000000 from rfl) (show _ = some 1786960799900000000 from rfl)
    (by decide)).mpr (Or.inl (by decide))

end TwoFrames

end RatatoskrTelegram
