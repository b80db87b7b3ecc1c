import RatatoskrTelegram.Admission
import RatatoskrTelegram.UpdateFence

/-!
# Admission is exactly-once

The insert under the primary key decides an update, and what a delivery is
answered is read off what its own insert found.
-/

namespace RatatoskrTelegram

theorem recordUpdate_inserted {update : AdmittedUpdate} {now : ℤ} {db db' : Database}
    (h : recordUpdate update now db = (.ok .inserted,db')) :
    db.updates.select (update.botId,update.updateId) = none ∧
      db'.updates.select (update.botId,update.updateId) = some (update.row now) := by
  unfold recordUpdate transaction at h
  cases hi : db.updates.insert (update.row now) with
  | none => simp [hi] at h
  | some updates =>
    simp only [hi,Prod.mk.injEq,true_and] at h
    subst h
    have hnone := (Table.insert_eq_some.mp hi).1
    refine ⟨hnone,?_⟩
    simp only [Table.select_insert hi]
    exact if_pos rfl

theorem recordUpdate_duplicate {update : AdmittedUpdate} {now : ℤ} {db db' : Database}
    (h : recordUpdate update now db = (.ok .duplicate,db')) :
    db' = db ∧ db.updates.select (update.botId,update.updateId) ≠ none := by
  unfold recordUpdate transaction at h
  cases hi : db.updates.insert (update.row now) with
  | none =>
    simp only [hi,Prod.mk.injEq,true_and] at h
    exact ⟨h.symm,Table.insert_eq_none.mp hi⟩
  | some updates => simp [hi] at h

theorem Call.updates_last (c : Call) (db : Database) {key : ℤ × ℤ}
    (h : db.updates.select key ≠ none) : (c.apply db).updates.select key ≠ none := by
  obtain ⟨u,hu⟩ := Option.ne_none_iff_exists'.mp h
  have hwritten {w : UpdateWrite} {update : PendingUpdate} {now : ℤ} {r : Except PersistenceError Unit}
      {db' : Database} (ho : w.Outcome update now db r db') : db'.updates.select key ≠ none := by
    cases ho with
    | failed e _ => exact h
    | written _ _ hall =>
      rw [hall]
      split
      · simp
      · exact h
  by_cases hc : c.handlesUpdates = false
  · obtain ⟨v,hv,_⟩ := (updates_kept hc db).kept hu
    rw [hv]
    simp
  · cases c with
    | claimUpdate locked now =>
      simp only [apply,RatatoskrTelegram.claimUpdate]
      split
      · exact h
      · simp [hu]
    | deferUpdateRetry botId updateId retryAt =>
      exact hwritten (deferUpdateRetry_outcome ⟨botId,updateId,""⟩ retryAt 0 db)
    | settleUpdate botId updateId state now =>
      exact hwritten (settleUpdate_outcome ⟨botId,updateId,""⟩ state now db)
    | _ => simp [handlesUpdates] at hc

namespace Endpoint

variable {settings : IntakeSettings} {api : BotApi} {s t : Endpoint} {l : Label}

/-- What a step does to the stored updates: none is lost, and a delivery stores at most one, which
was not there. -/
theorem step_updates (hs : Step settings api s l t) :
    (∀ key, s.database.updates.select key ≠ none → t.database.updates.select key ≠ none) ∧
    (∀ d key, l = .delivery d (.inserts key) → s.database.updates.select key = none ∧
      t.database.updates.select key ≠ none) ∧
    (∀ d key, l = .delivery d (.conflicts key) → t.database.updates.select key ≠ none) ∧
    ∀ d event, l = .delivery d event → (∀ key, event ≠ .inserts key) → t.database = s.database := by
  have hinserted {update : ScreenedUpdate} {now : ℤ} {db : Database}
      (hr : recordUpdate (update.admitted settings) now s.database = (.ok .inserted,db)) :
      (∀ key, s.database.updates.select key ≠ none → db.updates.select key ≠ none) ∧
      s.database.updates.select (update.key settings) = none ∧
        db.updates.select (update.key settings) ≠ none := by
    obtain ⟨hnone,hsome⟩ := recordUpdate_inserted hr
    refine ⟨?_,hnone,?_⟩
    · intro key hkey
      have := Call.updates_last (.recordUpdate (update.admitted settings) now) s.database hkey
      simpa only [Call.apply,hr] using this
    · have : db.updates.select (update.key settings) = some _ := hsome
      simp [this]
  cases hs with
  | inserts hd hr =>
    obtain ⟨hkept,hnone,hsome⟩ := hinserted hr
    refine ⟨hkept,?_,by simp,?_⟩
    · rintro d key hl
      obtain ⟨-,he⟩ := Label.delivery.inj hl
      obtain rfl := DeliveryEvent.inserts.inj he
      exact ⟨hnone,hsome⟩
    · rintro d event hl hne
      exact absurd (Label.delivery.inj hl).2.symm (hne _)
  | droppedAfterInsert hd hr =>
    obtain ⟨hkept,hnone,hsome⟩ := hinserted hr
    refine ⟨hkept,?_,by simp,?_⟩
    · rintro d key hl
      obtain ⟨-,he⟩ := Label.delivery.inj hl
      obtain rfl := DeliveryEvent.inserts.inj he
      exact ⟨hnone,hsome⟩
    · rintro d event hl hne
      exact absurd (Label.delivery.inj hl).2.symm (hne _)
  | conflicts hd hr =>
    obtain ⟨rfl,hsome⟩ := recordUpdate_duplicate hr
    refine ⟨fun _ h => h,by simp,?_,fun _ _ _ _ => rfl⟩
    rintro d key hl
    obtain ⟨-,he⟩ := Label.delivery.inj hl
    obtain rfl := DeliveryEvent.conflicts.inj he
    exact hsome
  | call => exact ⟨fun key h => Call.updates_last _ _ h,by simp,by simp,by simp⟩
  | _ => exact ⟨fun _ h => h,by simp,by simp,fun _ _ _ _ => rfl⟩

/-- What the answer of a delivery says about its labels. -/
def Told (settings : IntakeSettings) (api : BotApi) (tr : List Label) (d : ℕ) :
    AdmissionOutcome → Prop
  | .accepted => ∃ request update, .delivery d (.begins request) ∈ tr ∧
      screen settings api request = .ok update ∧
      .delivery d (.inserts (update.key settings)) ∈ tr
  | .deduplicated => ∃ request update, .delivery d (.begins request) ∈ tr ∧
      screen settings api request = .ok update ∧
      .delivery d (.conflicts (update.key settings)) ∈ tr
  | _ => ∀ key, .delivery d (.inserts key) ∉ tr

theorem Told.append {tr : List Label} {d : ℕ} {outcome : AdmissionOutcome}
    (h : Told settings api tr d outcome) {event : DeliveryEvent}
    (he : ∀ key, event ≠ .inserts key) :
    Told settings api (tr ++ [Label.delivery d event]) d outcome := by
  have hnone (hrows : ∀ key, .delivery d (.inserts key) ∉ tr) (key : ℤ × ℤ) :
      .delivery d (.inserts key) ∉ tr ++ [Label.delivery d event] := by
    simp [List.mem_append,hrows key,(he key).symm]
  cases outcome with
  | accepted =>
    obtain ⟨request,update,hr,hscreen,hk⟩ := h
    exact ⟨request,update,List.mem_append_left _ hr,hscreen,List.mem_append_left _ hk⟩
  | deduplicated =>
    obtain ⟨request,update,hr,hscreen,hk⟩ := h
    exact ⟨request,update,List.mem_append_left _ hr,hscreen,List.mem_append_left _ hk⟩
  | _ => exact hnone h

structure History (settings : IntakeSettings) (api : BotApi) (tr : List Label) (d : ℕ)
    (stage : DeliveryStage) : Prop where
  idle : stage = .idle → ∀ event, .delivery d event ∉ tr
  pending : ∀ update, stage = .screened update ∨ stage = .reserved update →
    (∃ request, .delivery d (.begins request) ∈ tr ∧ screen settings api request = .ok update) ∧
      (∀ key, .delivery d (.inserts key) ∉ tr) ∧ ∀ outcome, .delivery d (.answers outcome) ∉ tr
  answering : ∀ outcome, stage = .answering outcome → Told settings api tr d outcome ∧
    ∀ outcome, .delivery d (.answers outcome) ∉ tr
  answered : ∀ outcome, .delivery d (.answers outcome) ∈ tr → Told settings api tr d outcome

namespace History

variable {tr : List Label} {d : ℕ} {stage next : DeliveryStage}

theorem other (hist : History settings api tr d stage) (hl : ∀ event, l ≠ .delivery d event) :
    History settings api (tr ++ [l]) d stage := by
  have hmem (event : DeliveryEvent) :
      .delivery d event ∈ tr ++ [l] ↔ .delivery d event ∈ tr := by
    simp [List.mem_append,(hl event).symm]
  have htold (outcome : AdmissionOutcome) :
      Told settings api (tr ++ [l]) d outcome ↔ Told settings api tr d outcome := by
    cases outcome <;> simp only [Told,hmem]
  constructor <;> simp only [hmem,htold]
  · exact hist.idle
  · exact hist.pending
  · exact hist.answering
  · exact hist.answered

theorem settle (hquiet : ∀ outcome, .delivery d (.answers outcome) ∉ tr) {event : DeliveryEvent}
    (he : ∀ outcome, event ≠ .answers outcome)
    (hnext : next = .finished ∨ ∃ outcome, next = .answering outcome ∧
      Told settings api (tr ++ [Label.delivery d event]) d outcome) :
    History settings api (tr ++ [Label.delivery d event]) d next := by
  have hnone (outcome : AdmissionOutcome) :
      .delivery d (.answers outcome) ∉ tr ++ [Label.delivery d event] := by
    simp [List.mem_append,hquiet outcome,(he outcome).symm]
  rcases hnext with rfl | ⟨outcome,rfl,htold⟩
  · exact ⟨by simp,by simp,by simp,fun outcome h => absurd h (hnone outcome)⟩
  · refine ⟨by simp,by simp,?_,fun outcome h => absurd h (hnone outcome)⟩
    rintro o ho
    obtain rfl : outcome = o := DeliveryStage.answering.inj ho
    exact ⟨htold,hnone⟩

theorem refuse (hquiet : ∀ outcome, .delivery d (.answers outcome) ∉ tr)
    (hrows : ∀ key, .delivery d (.inserts key) ∉ tr) {event : DeliveryEvent}
    (hk : ∀ key, event ≠ .inserts key) (he : ∀ outcome, event ≠ .answers outcome)
    {outcome : AdmissionOutcome} (ho : outcome ≠ .accepted ∧ outcome ≠ .deduplicated) :
    History settings api (tr ++ [Label.delivery d event]) d (.answering outcome) := by
  have htold : Told settings api tr d outcome := by
    cases outcome with
    | accepted => exact absurd rfl ho.1
    | deduplicated => exact absurd rfl ho.2
    | _ => exact hrows
  exact settle hquiet he (Or.inr ⟨outcome,rfl,htold.append hk⟩)

theorem begin {request : WebhookRequest} (hist : History settings api tr d .idle) :
    History settings api (tr ++ [Label.delivery d (.begins request)]) d
      (screenedStage settings api request) := by
  have hquiet := hist.idle rfl
  unfold screenedStage
  split
  · rename_i outcome hscreen
    exact refuse (fun _ => hquiet _) (fun _ => hquiet _) (by simp) (by simp)
      (screen_ne_accepted hscreen)
  · rename_i update hscreen
    refine ⟨by simp,?_,by simp,?_⟩
    · rintro u (hu | hu)
      · obtain rfl : update = u := DeliveryStage.screened.inj hu
        refine ⟨⟨request,by simp,hscreen⟩,?_,?_⟩
        · intro key
          simp [hquiet]
        · intro outcome
          simp [hquiet]
      · simp at hu
    · intro outcome h
      simp [hquiet] at h

end History

theorem deliveries_of_other (hs : Step settings api s l t) {d : ℕ}
    (hl : ∀ event, l ≠ .delivery d event) : t.deliveries d = s.deliveries d := by
  have hentered {i : ℕ} {event : DeliveryEvent} (hi : l = .delivery i event)
      (stage : DeliveryStage) : (s.enter i stage).deliveries d = s.deliveries d := by
    have hne : d ≠ i := by
      rintro rfl
      exact hl event hi
    exact Function.update_of_ne hne stage s.deliveries
  cases hs with
  | call | receives | closes => rfl
  | _ => exact hentered rfl _

/-- The delivery that takes the step carries its history on. -/
theorem history_move {tr : List Label} {d : ℕ} {event : DeliveryEvent}
    (hs : Step settings api s (.delivery d event) t)
    (hist : History settings api tr d (s.deliveries d)) :
    History settings api (tr ++ [Label.delivery d event]) d (t.deliveries d) := by
  cases hs with
  | begins hi =>
    rw [hi] at hist
    simpa [enter] using hist.begin
  | @reserves _ update hi _ =>
    obtain ⟨⟨request,hr,hscreen⟩,hrows,hquiet⟩ := hist.pending update (Or.inl hi)
    simp only [enter,Function.update_self]
    refine ⟨by simp,?_,by simp,?_⟩
    · rintro u (hu | hu)
      · simp at hu
      · obtain rfl : update = u := DeliveryStage.reserved.inj hu
        exact ⟨⟨request,List.mem_append_left _ hr,hscreen⟩,by simp [hrows],by simp [hquiet]⟩
    · intro outcome h
      simp [hquiet] at h
  | refused hi _ =>
    obtain ⟨_,hrows,hquiet⟩ := hist.pending _ (Or.inl hi)
    simp only [enter,Function.update_self]
    exact .refuse hquiet hrows (by simp) (by simp) (by simp)
  | fails hi =>
    obtain ⟨_,hrows,hquiet⟩ := hist.pending _ (Or.inr hi)
    simp only [enter,Function.update_self]
    exact .refuse hquiet hrows (by simp) (by simp) (by simp)
  | @inserts _ update _ _ hi _ =>
    obtain ⟨⟨request,hr,hscreen⟩,_,hquiet⟩ := hist.pending update (Or.inr hi)
    simp only [enter,Function.update_self]
    refine .settle hquiet (by simp) (Or.inr ⟨_,rfl,request,update,?_,hscreen,by simp⟩)
    exact List.mem_append_left _ hr
  | @conflicts _ update _ _ hi _ =>
    obtain ⟨⟨request,hr,hscreen⟩,_,hquiet⟩ := hist.pending update (Or.inr hi)
    simp only [enter,Function.update_self]
    refine .settle hquiet (by simp) (Or.inr ⟨_,rfl,request,update,?_,hscreen,by simp⟩)
    exact List.mem_append_left _ hr
  | droppedAtInsert hi =>
    obtain ⟨_,_,hquiet⟩ := hist.pending _ (Or.inr hi)
    simp only [enter,Function.update_self]
    exact .settle hquiet (by simp) (Or.inl rfl)
  | droppedAfterInsert hi _ =>
    obtain ⟨_,_,hquiet⟩ := hist.pending _ (Or.inr hi)
    simp only [enter,Function.update_self]
    exact .settle hquiet (by simp) (Or.inl rfl)
  | @answers _ outcome hi =>
    obtain ⟨htold,hquiet⟩ := hist.answering outcome hi
    simp only [enter,Function.update_self]
    refine ⟨by simp,by simp,by simp,?_⟩
    intro o ho
    obtain rfl : o = outcome := by simpa [hquiet] using ho
    exact Told.append htold (by simp)
  | vanishes hi =>
    simp only [enter,Function.update_self]
    refine ⟨by simp,by simp,by simp,?_⟩
    intro o ho
    exact Told.append (hist.answered o (by simpa using ho)) (by simp)

theorem history_step {tr : List Label} (hs : Step settings api s l t) {d : ℕ}
    (hist : History settings api tr d (s.deliveries d)) :
    History settings api (tr ++ [l]) d (t.deliveries d) := by
  by_cases hl : ∀ event, l ≠ .delivery d event
  · rw [deliveries_of_other hs hl]
    exact hist.other hl
  · obtain ⟨event,he⟩ := not_forall_not.mp hl
    subst he
    exact history_move hs hist

structure Invariant (settings : IntakeSettings) (api : BotApi) (tr : List Label)
    (s : Endpoint) : Prop where
  history : ∀ d, History settings api tr d (s.deliveries d)
  stored : ∀ d key, .delivery d (.inserts key) ∈ tr ∨ .delivery d (.conflicts key) ∈ tr →
    s.database.updates.select key ≠ none
  once : Throughout (fun before l => ∀ d key, l = .delivery d (.inserts key) →
    ∀ i, .delivery i (.inserts key) ∉ before) tr

theorem invariant_of_run {db : Database} {tr : List Label}
    (h : Run (Step settings api) (start db) tr s) : Invariant settings api tr s := by
  induction h with
  | refl => exact ⟨fun d => ⟨by simp,by simp [start],by simp [start],by simp⟩,by simp,.nil⟩
  | @snoc before _ _ _ _ hs ih =>
    obtain ⟨hkept,hinserts,hconflicts,_⟩ := step_updates hs
    refine ⟨fun d => history_step hs (ih.history d),?_,ih.once.append ?_⟩
    · rintro d key hk
      by_cases hold : .delivery d (.inserts key) ∈ before ∨ .delivery d (.conflicts key) ∈ before
      · exact hkept key (ih.stored d key hold)
      · rw [not_or] at hold
        simp only [List.mem_append,List.mem_singleton,hold.1,hold.2,false_or] at hk
        rcases hk with rfl | rfl
        · exact (hinserts d key rfl).2
        · exact hconflicts d key rfl
    · rintro d key rfl i hi
      exact ih.stored i key (Or.inl hi) (hinserts d key rfl).1

end Endpoint

/-- Over any database and any interleaving of deliveries, of their drops and failures and of the
calls of the rest of the system: rows are unique by their key, a key is inserted once, an answer of
acceptance or deduplication has its row stored from then on, and neither a refusal nor any step but
an insert stores a row. -/
theorem update_admission_exactly_once {settings : IntakeSettings} {api : BotApi} {db : Database}
    {tr : List Endpoint.Label} {s : Endpoint}
    (h : Run (Endpoint.Step settings api) (Endpoint.start db) tr s) :
    (∀ u v, u ∈ s.database.updates → v ∈ s.database.updates → Keyed.key u = Keyed.key v → u = v) ∧
    Throughout (fun before l => ∀ d key, l = .delivery d (.inserts key) →
      ∀ i, .delivery i (.inserts key) ∉ before) tr ∧
    (∀ d outcome, .delivery d (.answers outcome) ∈ tr →
      outcome = .accepted ∨ outcome = .deduplicated → ∃ request update,
        .delivery d (.begins request) ∈ tr ∧ screen settings api request = .ok update ∧
          s.database.updates.select (update.key settings) ≠ none) ∧
    (∀ d outcome, .delivery d (.answers outcome) ∈ tr → outcome.status ≠ 200 →
      ∀ key, .delivery d (.inserts key) ∉ tr) ∧
    ∀ d event t, Endpoint.Step settings api s (.delivery d event) t →
      (∀ key, event ≠ .inserts key) → t.database = s.database := by
  have hinv := Endpoint.invariant_of_run h
  refine ⟨fun u v hu hv => Table.eq_of_key hu hv,hinv.once,?_,?_,?_⟩
  · rintro d outcome ha (rfl | rfl)
    · obtain ⟨request,update,hr,hscreen,hk⟩ := (hinv.history d).answered _ ha
      exact ⟨request,update,hr,hscreen,hinv.stored d _ (Or.inl hk)⟩
    · obtain ⟨request,update,hr,hscreen,hk⟩ := (hinv.history d).answered _ ha
      exact ⟨request,update,hr,hscreen,hinv.stored d _ (Or.inr hk)⟩
  · intro d outcome ha hstatus
    have htold := (hinv.history d).answered _ ha
    cases outcome with
    | accepted => exact absurd rfl hstatus
    | deduplicated => exact absurd rfl hstatus
    | _ => exact htold
  · intro d event t hs hne
    exact (Endpoint.step_updates hs).2.2.2 d event rfl hne

namespace Endpoint.Redelivery

def settings : IntakeSettings := ⟨[115,51],64,42,2⟩

def api : BotApi where
  fromSlice bytes := if bytes = [123,34,105,34,58,53,125] then some ⟨5,.message,"update"⟩ else none
  toText update := some update.content

def request : WebhookRequest where
  secretToken := some [115,51]
  method := .post
  contentType := some ("application/json".toList.map fun c => UInt8.ofNat c.toNat)
  contentLength := none
  body := [.data [123,34,105],.data [34,58,53,125]]

def update : ScreenedUpdate := ⟨⟨5,.message,"update"⟩,"update"⟩

theorem request_screened : screen settings api request = .ok update := by
  decide +kernel

/-- Three copies of the update meet a queue of two slots. -/
def labels : List Label :=
  [.delivery 0 (.begins request),.delivery 1 (.begins request),.delivery 2 (.begins request),
    .delivery 0 .reserves,.delivery 1 .reserves,.delivery 2 .fails,
    .delivery 1 (.inserts (42,5)),.delivery 0 (.conflicts (42,5)),
    .delivery 0 (.answers .deduplicated),.delivery 1 (.answers .accepted),
    .delivery 2 (.answers .overloaded)]

theorem begun (s : Endpoint) (d : ℕ) (h : s.deliveries d = .idle) :
    Step settings api s (.delivery d (.begins request))
      (s.enter d (.screened update)) := by
  have hstage : screenedStage settings api request = .screened update := by
    rw [screenedStage,request_screened]
  exact hstage ▸ Step.begins h

theorem run : ∃ s, Run (Step settings api) (start Database.fresh) labels s := by
  have h1 : Run (Step settings api) (start Database.fresh) (labels.take 1) _ :=
    Run.single (begun _ 0 rfl)
  have h2 : Run (Step settings api) (start Database.fresh) (labels.take 2) _ :=
    h1.snoc (begun _ 1 rfl)
  have h3 : Run (Step settings api) (start Database.fresh) (labels.take 3) _ :=
    h2.snoc (begun _ 2 rfl)
  have h4 : Run (Step settings api) (start Database.fresh) (labels.take 4) _ :=
    h3.snoc (.reserves rfl (by decide))
  have h5 : Run (Step settings api) (start Database.fresh) (labels.take 5) _ :=
    h4.snoc (.reserves rfl (by decide))
  have h6 : Run (Step settings api) (start Database.fresh) (labels.take 6) _ :=
    h5.snoc (.refused rfl (by decide))
  have h7 : Run (Step settings api) (start Database.fresh) (labels.take 7) _ :=
    h6.snoc (@Step.inserts settings api _ 1 update 0 _ rfl rfl)
  have h8 : Run (Step settings api) (start Database.fresh) (labels.take 8) _ :=
    h7.snoc (@Step.conflicts settings api _ 0 update 0 _ rfl rfl)
  have h9 : Run (Step settings api) (start Database.fresh) (labels.take 9) _ :=
    h8.snoc (.answers rfl)
  have h10 : Run (Step settings api) (start Database.fresh) (labels.take 10) _ :=
    h9.snoc (.answers rfl)
  exact ⟨_,h10.snoc (.answers rfl)⟩

end Endpoint.Redelivery

/-- Of the three copies one is inserted, and the refused one has stored nothing. -/
theorem update_admission_redelivered : ∃ s,
    Run (Endpoint.Step Endpoint.Redelivery.settings Endpoint.Redelivery.api)
      (Endpoint.start Database.fresh) Endpoint.Redelivery.labels s ∧
    (∃ update, screen Endpoint.Redelivery.settings Endpoint.Redelivery.api
      Endpoint.Redelivery.request = .ok update ∧
      s.database.updates.select (update.key Endpoint.Redelivery.settings) ≠ none) ∧
    ∀ key, .delivery 2 (.inserts key) ∉ Endpoint.Redelivery.labels := by
  obtain ⟨s,hs⟩ := Endpoint.Redelivery.run
  obtain ⟨_,_,hanswered,hrefused,_⟩ := update_admission_exactly_once hs
  refine ⟨s,hs,?_,hrefused 2 .overloaded (by simp [Endpoint.Redelivery.labels]) (by decide)⟩
  obtain ⟨request,update,hr,hscreen,hrow⟩ := hanswered 0 .deduplicated
    (by simp [Endpoint.Redelivery.labels]) (Or.inr rfl)
  obtain rfl : request = Endpoint.Redelivery.request := by
    simpa [Endpoint.Redelivery.labels] using hr
  exact ⟨update,hscreen,hrow⟩

end RatatoskrTelegram
