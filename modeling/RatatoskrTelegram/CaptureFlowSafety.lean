import RatatoskrTelegram.CaptureFlow

/-!
# A capture is made once

Platform keeps one operation for a key, and the key is a function of what is sent. However often a
message is processed, and wherever a pass stops, its captures therefore share one operation, one
binding and one acknowledgement; and nothing is acknowledged that Platform has not accepted.
-/

namespace RatatoskrTelegram

namespace CaptureLedger

variable {ledger : CaptureLedger} {key other : ℤ × List Char} {wire : List Char × List Char}
  {entry : (List Char × List Char) × Uuid}

theorem take_of_some (h : ledger other = some entry) (reached : Option Uuid) :
    ledger.take key wire reached other = some entry := by
  cases reached with
  | none => exact h
  | some fresh =>
    simp only [take]
    split
    · rename_i hnone
      rw [Function.update_of_ne,h]
      rintro rfl
      rw [h] at hnone
      simp at hnone
    · exact h

end CaptureLedger

namespace CaptureSystem

variable {sha256 : List Char → List UInt8} {limits : SenderLimits} {s t : CaptureSystem}
  {a : CaptureAction} {tr ts : List CaptureAction} {pass : ℕ} {r : CaptureRequest}
  {operationId : Uuid}

abbrev database (s : CaptureSystem) : Database := s.dispatcher.database

@[simp] theorem goes_dispatcher (s : CaptureSystem) (pass : ℕ) (stage : CaptureStage) :
    (s.goes pass stage).dispatcher = s.dispatcher := rfl

@[simp] theorem goes_ledger (s : CaptureSystem) (pass : ℕ) (stage : CaptureStage) :
    (s.goes pass stage).ledger = s.ledger := rfl

@[simp] theorem goes_self (s : CaptureSystem) (pass : ℕ) (stage : CaptureStage) :
    (s.goes pass stage).passes pass = stage := by
  simp [goes]

theorem goes_other {other : ℕ} (h : other ≠ pass) (s : CaptureSystem) (stage : CaptureStage) :
    (s.goes pass stage).passes other = s.passes other := by
  simp [goes,h]

@[simp] theorem calls_ledger (s : CaptureSystem) (c : Call) : (s.calls c).ledger = s.ledger := rfl

@[simp] theorem calls_passes (s : CaptureSystem) (c : Call) : (s.calls c).passes = s.passes := rfl

/-- The step of the outbox that a step of the system is, if it is one. -/
inductive Outward (limits : SenderLimits) (s t : CaptureSystem) : Prop
  | rests : t.dispatcher = s.dispatcher → Outward limits s t
  | steps (a : Action) : Dispatcher.step limits s.dispatcher a = some t.dispatcher →
      (a.isCapture = true → ∃ pass r operationId minted now,
        s.passes pass = .recording r operationId ∧
        a = .produce (r.projection minted operationId now)) → Outward limits s t

theorem step_produce {d : Dispatcher} {c : Call} (hc : c.Promised) (hp : c.isProducer = true) :
    Dispatcher.step limits d (.produce c) = some {d with database := c.apply d.database} := by
  simp [Dispatcher.step,hc,hp]

theorem Moves.outward (h : Moves sha256 limits s a t) : Outward limits s t := by
  cases h with
  | began | asked | posted | invalidated | unrecorded | unreplied | ended => exact .rests rfl
  | @recorded pass r operationId minted now lost outcome hstage _ =>
    exact .steps (.produce (r.projection minted operationId now)) (step_produce trivial rfl)
      fun _ => ⟨pass,r,operationId,minted,now,hstage,rfl⟩
  | @replied pass r c jobId now hstage =>
    exact .steps (.produce (.enqueueOutboundJob jobId (replyJob r.botId r.chatId c.reply.body) now))
      (step_produce ⟨rfl,rfl,rfl⟩ rfl) (by simp [Action.isCapture])
  | @other a d hcapture hd =>
    exact .steps a hd (by simp [hcapture])

/-- The outbox of a run of the system is in a state of a run of its own. -/
theorem runs_dispatcher (h : Runs sha256 limits tr s) :
    ∃ actions, Dispatcher.Runs limits actions s.dispatcher := by
  induction h with
  | refl => exact ⟨[],.refl⟩
  | snoc _ hs ih =>
    obtain ⟨actions,hrun⟩ := ih
    cases (moves_of_step hs).outward with
    | rests he => exact ⟨actions,he ▸ hrun⟩
    | steps a ha _ => exact ⟨actions ++ [a],hrun.snoc ha⟩

theorem held_step (hs : step sha256 limits s a = some t) (h : r.Held sha256 operationId s.ledger) :
    r.Held sha256 operationId t.ledger := by
  cases moves_of_step hs with
  | posted => exact CaptureLedger.take_of_some h _
  | _ => exact h

theorem held_unique {ledger : CaptureLedger} {other : Uuid} (h : r.Held sha256 operationId ledger)
    (k : r.Held sha256 other ledger) : operationId = other :=
  (Prod.mk.inj (Option.some.inj (h.symm.trans k))).2

def Bound (db : Database) (r : CaptureRequest) (operationId : Uuid) : Prop :=
  ∃ b, db.messageBindings.select (operationId,r.chatId) = some b

def Rests (sha256 : List Char → List UInt8) (s : CaptureSystem) : CaptureStage → Prop
  | .recording r operationId => r.Held sha256 operationId s.ledger
  | .settled r .retryRecoverableAction => ∃ operationId, r.Held sha256 operationId s.ledger
  | .settled r (.settle .processed) =>
    ∃ operationId, r.Held sha256 operationId s.ledger ∧ Bound s.database r operationId
  | _ => True

theorem Rests.step {stage : CaptureStage} (h : Rests sha256 s stage)
    (hs : step sha256 limits s a = some t) : Rests sha256 t stage := by
  unfold Rests at h ⊢
  split at h
  · exact held_step hs h
  · obtain ⟨operationId,h⟩ := h
    exact ⟨operationId,held_step hs h⟩
  · obtain ⟨operationId,h,hb⟩ := h
    refine ⟨operationId,held_step hs h,?_⟩
    cases (moves_of_step hs).outward with
    | rests he =>
      unfold database Bound
      rw [he]
      exact hb
    | steps b hb' _ =>
      obtain ⟨binding,hb⟩ := hb
      obtain ⟨binding',hb,-⟩ := (Dispatcher.steps_of_step hb').bindings.kept hb
      exact ⟨binding',hb⟩
  · trivial

theorem rests_step (h : ∀ pass, Rests sha256 s (s.passes pass))
    (hs : step sha256 limits s a = some t) (pass : ℕ) : Rests sha256 t (t.passes pass) := by
  have hkept {stage : CaptureStage} (hstage : Rests sha256 s stage) : Rests sha256 t stage :=
    hstage.step hs
  have hmoves := moves_of_step hs
  by_cases hsame : t.passes pass = s.passes pass
  · rw [hsame]
    exact hkept (h pass)
  -- only the pass that takes the step goes on
  have hself {other : ℕ} {stage : CaptureStage} {v : CaptureSystem} (hv : v.passes = s.passes)
      (ht : t = v.goes other stage) : pass = other := by
    by_contra hne
    rw [ht,goes_other hne,hv] at hsame
    exact hsame rfl
  cases hmoves with
  | @began other r hidle =>
    obtain rfl := hself rfl rfl
    rw [goes_self]
    trivial
  | @asked other r renewed answer hstage =>
    obtain rfl := hself rfl rfl
    rw [goes_self]
    cases answer <;> trivial
  | @posted other r session renewed attempt reached answer hstage hheld =>
    obtain rfl := hself
      (v := {s with ledger := s.ledger.take (r.key sha256) (r.wire sha256) reached}) rfl rfl
    rw [goes_self]
    cases answer with
    | ok operationId => exact hheld operationId rfl
    | error error =>
      unfold CaptureStage.posted
      split <;> try split
      all_goals try split
      all_goals try trivial
  | @invalidated other r session hstage =>
    obtain rfl := hself rfl rfl
    rw [goes_self]
    trivial
  | @recorded other r operationId minted now lost outcome hstage houtcome =>
    obtain rfl := hself (v := s.calls _) rfl rfl
    rw [goes_self]
    have hheld : r.Held sha256 operationId s.ledger := by
      have hrests := h pass
      rw [hstage] at hrests
      exact hrests
    rcases houtcome with rfl | ⟨rfl,hok⟩
    · exact ⟨operationId,hheld⟩
    · refine ⟨operationId,hheld,?_⟩
      obtain ⟨answer,after,he,hstep⟩ := recordAcceptedCaptureProjection_step minted.bindingId
        minted.token minted.jobId (r.intent operationId now) (r.acknowledgement operationId) now
        s.dispatcher.database
      have hanswer : answer = .ok () := by
        rw [CaptureRequest.record,he] at hok
        exact hok
      subst hanswer
      obtain ⟨b,hb⟩ := hstep.binding
      refine ⟨b,?_⟩
      show ((r.projection minted operationId now).apply
        s.dispatcher.database).messageBindings.select _ = _
      rw [CaptureRequest.projection,Call.apply,he]
      exact hb
  | @unrecorded other r operationId minted now hstage =>
    obtain rfl := hself rfl rfl
    rw [goes_self]
    have hrests := h pass
    rw [hstage] at hrests
    exact ⟨operationId,hrests⟩
  | @replied other r c jobId now hstage =>
    obtain rfl := hself (v := s.calls _) rfl rfl
    rw [goes_self]
    trivial
  | @unreplied other r c jobId now hstage =>
    obtain rfl := hself rfl rfl
    rw [goes_self]
    trivial
  | @ended other =>
    obtain rfl := hself rfl rfl
    rw [goes_self]
    trivial
  | other => exact absurd rfl hsame

/-- In every run each pass has found out what its stage says. -/
theorem rests_run (h : Runs sha256 limits tr s) (pass : ℕ) : Rests sha256 s (s.passes pass) := by
  induction h generalizing pass with
  | refl => trivial
  | snoc _ hs ih => exact rests_step ih hs pass

end CaptureSystem

def CaptureStage.request : CaptureStage → Option CaptureRequest
  | idle => none
  | asking r _ | posting r _ _ _ | invalidating r _ | recording r _ | refusing r _
  | settled r _ => some r

@[simp] theorem CaptureStage.request_asked (r : CaptureRequest) (renewed : Bool)
    (answer : Except PlatformError String) : (asked r renewed answer).request = some r := by
  cases answer <;> rfl

@[simp] theorem CaptureStage.request_posted (r : CaptureRequest) (session : String) (renewed : Bool)
    (attempt : ℕ) (answer : Except PlatformError Uuid) :
    (posted r session renewed attempt answer).request = some r := by
  unfold posted
  repeat' split
  all_goals rfl

namespace CaptureSystem

variable {sha256 : List Char → List UInt8} {limits : SenderLimits} {s t : CaptureSystem}
  {a : CaptureAction} {tr ts : List CaptureAction} {pass : ℕ} {r : CaptureRequest}
  {operationId : Uuid}

theorem request_step (hs : step sha256 limits s a = some t)
    (hr : (t.passes pass).request = some r) :
    (s.passes pass).request = some r ∨ a = .begins pass r := by
  have hother {other : ℕ} {stage : CaptureStage} {v : CaptureSystem} (hv : v.passes = s.passes)
      (ht : t = v.goes other stage) :
      (s.passes pass).request = some r ∨ pass = other ∧ stage.request = some r := by
    by_cases he : pass = other
    · subst he
      rw [ht,goes_self] at hr
      exact Or.inr ⟨rfl,hr⟩
    · rw [ht,goes_other he,hv] at hr
      exact Or.inl hr
  cases moves_of_step hs with
  | began =>
    rcases hother rfl rfl with h | ⟨rfl,h⟩
    · exact Or.inl h
    · exact Or.inr (congrArg _ (Option.some.inj h))
  | asked hstage =>
    rcases hother rfl rfl with h | ⟨rfl,h⟩
    · exact Or.inl h
    · rw [CaptureStage.request_asked] at h
      exact Or.inl (by rw [hstage]; exact h)
  | @posted other q session renewed attempt reached answer hstage _ =>
    rcases hother (v := {s with ledger := s.ledger.take (q.key sha256) (q.wire sha256) reached})
      rfl rfl with h | ⟨rfl,h⟩
    · exact Or.inl h
    · rw [CaptureStage.request_posted] at h
      exact Or.inl (by rw [hstage]; exact h)
  | invalidated hstage | unrecorded hstage | unreplied hstage =>
    rcases hother rfl rfl with h | ⟨rfl,h⟩
    · exact Or.inl h
    · exact Or.inl (by rw [hstage]; exact h)
  | recorded hstage | replied hstage =>
    rcases hother (v := s.calls _) rfl rfl with h | ⟨rfl,h⟩
    · exact Or.inl h
    · exact Or.inl (by rw [hstage]; exact h)
  | ended =>
    rcases hother rfl rfl with h | ⟨-,h⟩
    · exact Or.inl h
    · simp [CaptureStage.request] at h
  | other => exact Or.inl hr

theorem begun_run (h : Runs sha256 limits tr s) (hr : (s.passes pass).request = some r) :
    .begins pass r ∈ tr := by
  induction h with
  | refl => simp [initial,CaptureStage.request] at hr
  | @snoc tr s t a _ hs ih =>
    rcases request_step hs hr with h | rfl
    · exact List.mem_append_left _ (ih h)
    · exact List.mem_append_right _ (List.mem_singleton.mpr rfl)

/-- The job acknowledges the operation Platform holds for a request that some pass has begun. -/
def Accounted (sha256 : List Char → List UInt8) (tr : List CaptureAction) (s : CaptureSystem)
    (operationId : Uuid) (chatId : ℤ) (j : OutboundJob) : Prop :=
  ∃ pass r, .begins pass r ∈ tr ∧ r.chatId = chatId ∧ r.Held sha256 operationId s.ledger ∧
    j.botId = r.botId ∧ j.payload = (r.acknowledgement operationId).payload

theorem Accounted.step {chatId : ℤ} {j : OutboundJob}
    (h : Accounted sha256 tr s operationId chatId j) (hs : step sha256 limits s a = some t) :
    Accounted sha256 (tr ++ [a]) t operationId chatId j := by
  obtain ⟨pass,r,hmem,hchat,hheld,h⟩ := h
  exact ⟨pass,r,List.mem_append_left _ hmem,hchat,held_step hs hheld,h⟩

theorem accounted_run (h : Runs sha256 limits tr s) :
    ∀ j ∈ s.database.outboundJobs, ∀ operationId chatId, j.Acknowledges operationId chatId →
      Accounted sha256 tr s operationId chatId j := by
  induction h with
  | refl =>
    intro j hj
    exact absurd hj (Table.not_mem_empty j)
  | @snoc tr s t a hrun hs ih =>
    intro j hj operationId chatId hack
    cases (moves_of_step hs).outward with
    | rests he =>
      unfold database at hj
      rw [he] at hj
      exact (ih j hj operationId chatId hack).step hs
    | steps b hb hcapture =>
      have hsteps := Dispatcher.steps_of_step hb
      rcases hsteps.jobs.origin (Table.select_of_mem hj) with ⟨j',hj',htouch⟩ | ⟨hnone,_⟩
      · have hsame := htouch.moves.sameWork
        have hold : j'.Acknowledges operationId chatId :=
          ⟨(hsame.of_iff _ _).mp hack.1,hsame.revision.symm.trans hack.2⟩
        obtain ⟨pass,r,hmem,hchat,hheld,hbot,hpayload⟩ :=
          (ih j' (Table.mem_of_select hj') operationId chatId hold).step hs
        exact ⟨pass,r,hmem,hchat,hheld,hsame.botId.trans hbot,hsame.payload.trans hpayload⟩
      · rcases hsteps.jobs.fresh hnone (Table.select_of_mem hj) with ⟨c,rfl,hc⟩ | ⟨_,ho⟩
        · cases hc with
          | edit =>
            have hr := hack.2
            simp [editJob] at hr
          | direct _ _ ho _ =>
            rw [hack.1.1] at ho
            simp at ho
          | acknowledgement =>
            obtain ⟨pass,r,held,minted,now,hstage,he⟩ := hcapture rfl
            have hrests := rests_run hrun pass
            rw [hstage] at hrests
            have hrequest : (s.passes pass).request = some r := by
              rw [hstage]
              rfl
            have hbegun := begun_run hrun hrequest
            simp only [CaptureRequest.projection,Action.produce.injEq,
              Call.recordAcceptedCaptureProjection.injEq] at he
            obtain ⟨-,-,-,rfl,rfl,-⟩ := he
            have hop : some held = some operationId := hack.1.1
            obtain rfl := Option.some.inj hop
            exact ⟨pass,r,List.mem_append_left _ hbegun,hack.1.2,held_step hs hrests,rfl,rfl⟩
        · rw [hack.1.1] at ho
          simp at ho

/-- However the calls of any number of passes fall between each other and between the steps of the
outbox, and whatever is lost: a pass that ends processed leaves, for good, one binding and one
acknowledgement of the operation Platform holds for its request; a pass whose update stays
processable has one that Platform holds; every acknowledgement belongs to such a request and shows
it; and all acknowledgements of one request in its chat are one job. -/
theorem captures_exactly_once (h : Runs sha256 limits tr s) :
    (∀ pass r, s.passes pass = .settled r (.settle .processed) →
      ∃ operationId, ∀ {ts : List CaptureAction} {t : CaptureSystem},
        Run (fun v a w => step sha256 limits v a = some w) s ts t →
        r.Held sha256 operationId t.ledger ∧ t.database.Projected operationId r.chatId) ∧
    (∀ pass r, s.passes pass = .settled r .retryRecoverableAction →
      ∃ operationId, r.Held sha256 operationId s.ledger) ∧
    (∀ j ∈ s.database.outboundJobs, ∀ operationId chatId, j.Acknowledges operationId chatId →
      Accounted sha256 tr s operationId chatId j) ∧
    ∀ (r : CaptureRequest), ∀ j ∈ s.database.outboundJobs, ∀ k ∈ s.database.outboundJobs,
      (∃ operationId, r.Held sha256 operationId s.ledger ∧
        j.Acknowledges operationId r.chatId) →
      (∃ operationId, r.Held sha256 operationId s.ledger ∧
        k.Acknowledges operationId r.chatId) → j = k := by
  refine ⟨?_,?_,accounted_run h,?_⟩
  · intro pass r hsettled
    have hrests := rests_run h pass
    rw [hsettled] at hrests
    obtain ⟨operationId,hheld,hbound⟩ := hrests
    refine ⟨operationId,?_⟩
    intro ts t hrun
    have hlater : r.Held sha256 operationId t.ledger ∧ Bound t.database r operationId := by
      refine hrun.invariant (P := fun v => r.Held sha256 operationId v.ledger ∧
        Bound v.database r operationId) ⟨hheld,hbound⟩ ?_
      rintro v a w ⟨hheld,b,hb⟩ hs
      refine ⟨held_step hs hheld,?_⟩
      cases (moves_of_step hs).outward with
      | rests he => exact ⟨b,by unfold database; rw [he]; exact hb⟩
      | steps a ha _ =>
        obtain ⟨b',hb',-⟩ := (Dispatcher.steps_of_step ha).bindings.kept hb
        exact ⟨b',hb'⟩
    refine ⟨hlater.1,?_⟩
    obtain ⟨actions,hactions⟩ := runs_dispatcher (h.trans hrun)
    rcases Dispatcher.runs_projected hactions operationId r.chatId with hnone | hall
    · obtain ⟨b,hb⟩ := hlater.2
      exact absurd (MessageBinding.of_iff.mpr (Table.key_of_select hb))
        (hnone.binding b (Table.mem_of_select hb))
    · exact hall
  · intro pass r hsettled
    have hrests := rests_run h pass
    rw [hsettled] at hrests
    exact hrests
  · rintro r j hj k hk ⟨operationId,hheld,hjack⟩ ⟨other,hother,hkack⟩
    obtain rfl := held_unique hheld hother
    obtain ⟨actions,hactions⟩ := runs_dispatcher h
    exact (Dispatcher.runs_acknowledged hactions).2 j hj k hk hjack hkack

end CaptureSystem

namespace LostAnswer

open CaptureSystem

def limits : SenderLimits := ⟨30,5,10,300⟩

def request : CaptureRequest := ⟨7,42,42,.url "https://a.example/".toList,none,none⟩

/-- The digest of what its key is derived from. -/
def requestSha256 (input : List Char) : List UInt8 :=
  if input = "capture.v2|42|".toList ++ "/v1/captures|".toList ++
      "\x7b\"url\":\"https:".toList ++ "//a.example/\"\x7d".toList then
    [148,59,175,68,85,45,114,231,79,169,77,147,236,101,55,210,
    198,44,205,107,246,222,25,92,48,150,60,193,218,187,198,191]
  else []

/-- Platform has accepted the first attempt, but its answer is lost. -/
def submits : List CaptureAction :=
  [.credential 0 (.ok "session"),.posts 0 (some 3) (.error .timeout),.posts 0 (some 4) (.ok 3)]

/-- The projection commits and its answer is lost as well; then the update is processed again. -/
def processedTwice : List CaptureAction :=
  [CaptureAction.begins 0 request] ++ submits ++
    [CaptureAction.records 0 ⟨1,.filled 'c',10⟩ 0 (some true),.ends 0,.begins 0 request] ++ submits ++
    [CaptureAction.records 0 ⟨2,.filled 'd',11⟩ 5 none]

theorem processed_twice : ∃ s, Runs requestSha256 limits processedTwice s ∧
    s.passes 0 = .settled request (.settle .processed) :=
  exists_run_of_replay (by decide +kernel)

theorem projected_once : ∃ s operationId, Runs requestSha256 limits processedTwice s ∧
    request.Held requestSha256 operationId s.ledger ∧ s.database.Projected operationId 42 := by
  obtain ⟨s,hs,hsettled⟩ := processed_twice
  obtain ⟨operationId,hkept⟩ := (captures_exactly_once hs).1 0 request hsettled
  exact ⟨s,operationId,hs,hkept .refl⟩

end LostAnswer

end RatatoskrTelegram
