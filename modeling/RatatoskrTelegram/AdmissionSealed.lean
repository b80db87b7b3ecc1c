import RatatoskrTelegram.AdmissionFence
import RatatoskrTelegram.FollowerSet

/-!
# No work after the fence

A worker that has passed its re-check is still in its section, so the exclusive acquisition waits
for it; and a section entered after the flag was set does not pass the re-check.
-/

namespace RatatoskrTelegram

/-- The worker is in a section, entered while the flag was not yet set. -/
def EnteredOpen (log : List FenceEvent) (worker : Admitter) : Prop :=
  ∃ before inside, log = before ++ FenceEvent.entered worker :: inside ∧ .left worker ∉ inside ∧
    .closed ∉ before

/-- Work is done in a section entered before the flag was set, and never after the fence. -/
def Admissible (before : List FenceEvent) : FenceEvent → Prop
  | .claimed worker | .spawned worker _ => .fenced ∉ before ∧ EnteredOpen before worker
  | _ => True

theorem EnteredOpen.append {log : List FenceEvent} {worker : Admitter} (h : EnteredOpen log worker)
    {events : List FenceEvent} (hl : .left worker ∉ events) : EnteredOpen (log ++ events) worker := by
  obtain ⟨before,inside,rfl,hleft,hclosed⟩ := h
  refine ⟨before,inside ++ events,by simp,?_,hclosed⟩
  simpa [not_or] using ⟨hleft,hl⟩

theorem EnteredOpen.entered {log : List FenceEvent} (h : .closed ∉ log) (worker : Admitter) :
    EnteredOpen (log ++ [FenceEvent.entered worker]) worker :=
  ⟨log,[],rfl,by simp,h⟩

namespace AdmissionLock

variable {s t : AdmissionLock} {holds past : Admitter → Bool}

/-- The lock beside the workers: `holds` are those in a section, `past` those past its re-check. -/
structure Fenced (s : AdmissionLock) (holds past : Admitter → Bool) : Prop where
  holder : ∀ worker, worker ∈ s.holders ↔ holds worker = true
  exclusive : s.request = .exclusive → s.holders = ∅
  running : s.request = .running ↔ s.flags.closed = false
  closed : .closed ∈ s.log ↔ s.flags.closed = true
  fenced : .fenced ∈ s.log → s.request = .exclusive ∨ s.request = .released
  inside : ∀ worker, past worker = true → holds worker = true
  entered : ∀ worker, holds worker = true → s.flags.closed = false ∨ past worker = true →
    .fenced ∉ s.log ∧ EnteredOpen s.log worker
  log : Throughout Admissible s.log

theorem Fenced.notFenced (h : s.Fenced holds past) (hclosed : s.flags.closed = false) :
    .fenced ∉ s.log := by
  intro hm
  have hr := h.running.mpr hclosed
  simpa [hr] using h.fenced hm

theorem Fenced.enter (h : s.Fenced holds past) {worker : Admitter} (hnot : past worker = false)
    (hfree : s.request ≠ .exclusive) :
    Fenced {s with holders := insert worker s.holders, log := s.log ++ [FenceEvent.entered worker]}
      (Function.update holds worker true) past := by
  constructor
  · intro other
    by_cases ho : other = worker
    · simp [ho]
    · simpa [ho] using h.holder other
  · exact fun he => absurd he hfree
  · exact h.running
  · simpa using h.closed
  · intro hm
    exact h.fenced (by simpa using hm)
  · intro other hother
    by_cases ho : other = worker
    · simp [ho]
    · simpa [ho] using h.inside other hother
  · intro other hother hopen
    by_cases ho : other = worker
    · subst ho
      have hclosed : s.flags.closed = false := by simpa [hnot] using hopen
      have hlog : .closed ∉ s.log := by simp [h.closed,hclosed]
      exact ⟨by simpa using h.notFenced hclosed,.entered hlog other⟩
    · obtain ⟨hf,he⟩ := h.entered other (by simpa [ho] using hother) hopen
      exact ⟨by simpa using hf,he.append (by simp)⟩
  · exact h.log.append trivial

theorem Fenced.leave (h : s.Fenced holds past) {worker : Admitter} {work : List FenceEvent}
    (hwork : work = [] ∨ past worker = true ∧
      (work = [.claimed worker] ∨ ∃ operationId, work = [.spawned worker operationId])) :
    Fenced {s with holders := s.holders.erase worker, log := s.log ++ work ++ [FenceEvent.left worker]}
      (Function.update holds worker false) (Function.update past worker false) := by
  have hevents : ∀ e ∈ work ++ [FenceEvent.left worker], e ≠ .closed ∧ e ≠ .fenced ∧
      ∀ other, other ≠ worker → e ≠ .left other := by
    obtain rfl | ⟨-,rfl | ⟨operationId,rfl⟩⟩ := hwork
    all_goals
      simp only [List.nil_append,List.cons_append,List.mem_cons,List.not_mem_nil,or_false]
      grind
  have hlog : Throughout Admissible (s.log ++ work) := by
    obtain rfl | ⟨hp,hdone⟩ := hwork
    · simpa using h.log
    · have hadmissible := h.entered worker (h.inside worker hp) (Or.inr hp)
      obtain rfl | ⟨operationId,rfl⟩ := hdone
      · exact h.log.append hadmissible
      · exact h.log.append hadmissible
  have hmem : ∀ e, e = .closed ∨ e = .fenced →
      (e ∈ s.log ++ work ++ [FenceEvent.left worker] ↔ e ∈ s.log) := by
    intro e he
    rw [List.append_assoc,List.mem_append]
    constructor
    · rintro (hm | hm)
      · exact hm
      · obtain ⟨hc,hf,-⟩ := hevents e hm
        exact absurd he (by simp [hc,hf])
    · exact Or.inl
  constructor
  · intro other
    by_cases ho : other = worker
    · simp [ho]
    · simpa [ho] using h.holder other
  · intro he
    simp [h.exclusive he]
  · exact h.running
  · exact (hmem _ (Or.inl rfl)).trans h.closed
  · intro hm
    exact h.fenced ((hmem _ (Or.inr rfl)).mp hm)
  · intro other hother
    by_cases ho : other = worker
    · simp [ho] at hother
    · simpa [ho] using h.inside other (by simpa [ho] using hother)
  · intro other hother hopen
    by_cases ho : other = worker
    · simp [ho] at hother
    · obtain ⟨hf,he⟩ := h.entered other (by simpa [ho] using hother) (by simpa [ho] using hopen)
      refine ⟨fun hm => hf ((hmem _ (Or.inr rfl)).mp hm),?_⟩
      rw [List.append_assoc]
      exact he.append fun hm => (hevents _ hm).2.2 other ho rfl
  · exact hlog.append trivial

theorem Fenced.stay (h : s.Fenced holds past) {worker : Admitter} {now : Bool}
    (hnow : now = true → holds worker = true ∧ (past worker = true ∨ s.flags.closed = false)) :
    s.Fenced holds (Function.update past worker now) := by
  constructor
  · exact h.holder
  · exact h.exclusive
  · exact h.running
  · exact h.closed
  · exact h.fenced
  · intro other hother
    by_cases ho : other = worker
    · subst ho
      exact (hnow (by simpa using hother)).1
    · exact h.inside other (by simpa [ho] using hother)
  · intro other hother hopen
    by_cases ho : other = worker
    · subst ho
      obtain hclosed | hp := hopen
      · exact h.entered other hother (Or.inl hclosed)
      · exact h.entered other hother (hnow (by simpa using hp)).2.symm
    · exact h.entered other hother (by simpa [ho] using hopen)
  · exact h.log

theorem Fenced.pass (h : s.Fenced holds past) {worker : Admitter} {holdsNow pastNow : Bool}
    {work : List FenceEvent} (hp : s.pass worker (holds worker) holdsNow work = some t)
    (hpast : pastNow = true → holds worker = true ∧ holdsNow = true ∧
      (past worker = true ∨ s.flags.closed = false))
    (hwork : work = [] ∨ (past worker = true ∧ holdsNow = false ∧
      (work = [.claimed worker] ∨ ∃ operationId, work = [.spawned worker operationId]))) :
    t.Fenced (Function.update holds worker holdsNow) (Function.update past worker pastNow) := by
  cases hh : holds worker with
  | false =>
    have hnot : past worker = false := by
      by_contra hpw
      have hin := h.inside worker (by simpa using hpw)
      simp [hh] at hin
    obtain rfl : pastNow = false := by
      by_contra hpn
      have hin := (hpast (by simpa using hpn)).1
      simp [hh] at hin
    obtain rfl : work = [] := hwork.resolve_right fun hw => by simp [hnot] at hw
    have hpastNow : Function.update past worker false = past :=
      Function.update_eq_self_iff.mpr hnot.symm
    rw [hpastNow]
    cases holdsNow with
    | false =>
      obtain rfl : s = t := by simpa [AdmissionLock.pass,hh] using hp
      rw [Function.update_eq_self_iff.mpr hh.symm]
      exact h
    | true =>
      by_cases hr : s.request = .exclusive
      · simp [AdmissionLock.pass,hh,hr] at hp
      · obtain rfl := by simpa [AdmissionLock.pass,hh,hr] using hp
        exact h.enter hnot hr
  | true =>
    cases holdsNow with
    | false =>
      obtain rfl : pastNow = false := by
        by_contra hpn
        exact absurd (hpast (by simpa using hpn)).2.1 (by simp)
      obtain rfl : _ = t := by simpa only [AdmissionLock.pass,hh,Option.some.injEq] using hp
      exact h.leave (hwork.imp_right fun hw => ⟨hw.1,hw.2.2⟩)
    | true =>
      obtain rfl : work = [] := hwork.resolve_right fun hw => by simp at hw
      obtain rfl : s = t := by simpa [AdmissionLock.pass,hh] using hp
      rw [Function.update_eq_self_iff.mpr hh.symm]
      exact h.stay fun hn => ⟨hh,(hpast hn).2.2⟩

theorem Fenced.advance (h : s.Fenced holds past) {flags : ShutdownFlags} {request : RequestStage}
    (hflags : flags.closed = s.flags.closed) (hold : s.request ≠ .running)
    (hnew : request ≠ .running) (hexclusive : request ≠ .exclusive)
    (hreleased : s.request = .exclusive ∨ s.request = .released → request = .released) :
    Fenced {s with flags := flags, request := request, log := s.log ++ []} holds past := by
  constructor
  · exact h.holder
  · exact fun he => absurd he hexclusive
  · have hset := (not_congr h.running).mp hold
    simp [hnew,hflags,hset]
  · simpa [hflags] using h.closed
  · exact fun hm => Or.inr (hreleased (h.fenced (by simpa using hm)))
  · exact h.inside
  · intro worker hw hopen
    simpa using h.entered worker hw (by simpa [hflags] using hopen)
  · simpa using h.log

theorem Fenced.request (h : s.Fenced holds past) (hr : s.request = .running) (cancelled : Bool) :
    Fenced {s with
      flags := ⟨cancelled,true⟩
      request := .closed
      log := s.log ++ [FenceEvent.closed]} holds past := by
  constructor
  · exact h.holder
  · simp
  · simp
  · simp
  · intro hm
    have hf := h.fenced (by simpa using hm)
    simp [hr] at hf
  · exact h.inside
  · intro worker hw hopen
    obtain ⟨hf,he⟩ := h.entered worker hw (Or.inr (by simpa using hopen))
    exact ⟨by simpa using hf,he.append (by simp)⟩
  · exact h.log.append trivial

/-- Nobody is in a section when the lock is taken exclusively. -/
theorem Fenced.acquire (h : s.Fenced holds past) (hr : s.request = .acquiring)
    (hnone : s.holders = ∅) :
    Fenced {s with request := .exclusive, log := s.log ++ [FenceEvent.fenced]} holds past := by
  have hempty : ∀ worker, holds worker ≠ true := by
    intro worker hw
    have hm := (h.holder worker).mpr hw
    simp [hnone] at hm
  constructor
  · exact h.holder
  · exact fun _ => hnone
  · have hset := (not_congr h.running).mp (by simp [hr])
    simp [hset]
  · simpa using h.closed
  · exact fun _ => Or.inl rfl
  · exact h.inside
  · exact fun worker hw => absurd hw (hempty worker)
  · exact h.log.append trivial

end AdmissionLock

def LoopStage.past : LoopStage → Bool
  | .claiming => true
  | _ => false

def ScanStage.past : ScanStage → Bool
  | .spawning _ _ => true
  | _ => false

theorem ScanStage.holds_of_past {stage : ScanStage} (h : stage.past = true) :
    stage.holds = true := by
  cases stage <;> simp_all [ScanStage.past,ScanStage.holds]

theorem LoopStage.past_of_next {flags : ShutdownFlags} {stage moved : LoopStage} {a : LoopAction}
    (h : stage.next flags a = some moved) (hp : moved.past = true) :
    stage.holds = true ∧ moved.holds = true ∧ flags.closed = false := by
  unfold LoopStage.next at h
  split at h <;> grind [LoopStage.past,LoopStage.holds,ShutdownFlags.set]

theorem LoopStage.claims_of_next {flags : ShutdownFlags} {stage moved : LoopStage} {a : LoopAction}
    (h : stage.next flags a = some moved) (index : ℕ) : claims index a = [] ∨
      stage.past = true ∧ moved.holds = false ∧ claims index a = [.claimed (.sender index)] := by
  cases a with
  | claim claimed answered =>
    cases claimed with
    | false => exact Or.inl rfl
    | true =>
      cases stage with
      | claiming =>
        have hmoved : moved.holds = false := by
          cases answered <;>
            (obtain rfl := by simpa [LoopStage.next] using h
             rfl)
        exact Or.inr ⟨rfl,hmoved,rfl⟩
      | _ => simp [LoopStage.next] at h
  | _ => exact Or.inl rfl

theorem OperationFollower.past_of_next {flags : ShutdownFlags} {s t : OperationFollower}
    {a : ScanAction} (h : OperationFollower.next flags s a = some t) (hp : t.stage.past = true) :
    s.stage.holds = true ∧ t.stage.holds = true ∧
      (s.stage.past = true ∨ flags.closed = false) := by
  cases OperationFollower.scans_of_next h with
  | admits hs hflags =>
    have hopen : flags.cancelled = false ∧ flags.closed = false := by
      simpa [ShutdownFlags.set] using hflags
    exact ⟨by rw [hs]; rfl,rfl,Or.inr hopen.2⟩
  | idles _ hq => obtain rfl | rfl | rfl := hq <;> simp [OperationFollower.goes,ScanStage.past] at hp
  | moves | leaves => exact ⟨ScanStage.holds_of_past hp,ScanStage.holds_of_past hp,Or.inl hp⟩
  | stops | fetches | screens | locks | enters | skips | spawns | joins | clears | restarts =>
    simp [OperationFollower.goes,OperationFollower.stop,ScanStage.past] at hp

theorem OperationFollower.spawns_of_next {flags : ShutdownFlags} {s t : OperationFollower}
    {a : ScanAction} (h : OperationFollower.next flags s a = some t) (index : ℕ) :
    spawns index s.stage a = [] ∨ s.stage.past = true ∧ t.stage.holds = false ∧
      ∃ operationId, spawns index s.stage a = [.spawned (.follower index) operationId] := by
  cases a with
  | spawn =>
    cases hs : s.stage with
    | spawning operationId rows =>
      obtain rfl := by simpa [OperationFollower.next,hs] using h
      exact Or.inr ⟨rfl,rfl,operationId,rfl⟩
    | _ => exact Or.inl rfl
  | _ => exact Or.inl rfl

namespace AdmissionFence

variable {s t : AdmissionFence} {a : FenceAction}

def holds (s : AdmissionFence) : Admitter → Bool
  | .sender index => (s.senders index).holds
  | .follower index => (s.followers index).stage.holds

def past (s : AdmissionFence) : Admitter → Bool
  | .sender index => (s.senders index).past
  | .follower index => (s.followers index).stage.past

/-- The lock is as the workers' stages have it. -/
def Fenced (s : AdmissionFence) : Prop := s.lock.Fenced s.holds s.past

theorem fenced_initial : initial.Fenced := by
  constructor
  · intro worker
    cases worker <;> simp [initial,holds,LoopStage.holds,ScanStage.holds,OperationFollower.initial]
  · simp [initial]
  · simp [initial]
  · simp [initial]
  · simp [initial]
  · intro worker
    cases worker <;> simp [initial,past,LoopStage.past,ScanStage.past,OperationFollower.initial]
  · intro worker
    cases worker <;> simp [initial,holds,LoopStage.holds,ScanStage.holds,OperationFollower.initial]
  · exact Throughout.nil

theorem stages_of_sender (s : AdmissionFence) (lock : AdmissionLock) (index : ℕ)
    (stage : LoopStage) :
    let t : AdmissionFence := {s with
      lock := lock
      senders := Function.update s.senders index stage}
    t.holds = Function.update s.holds (.sender index) stage.holds ∧
      t.past = Function.update s.past (.sender index) stage.past := by
  constructor
  · funext worker
    cases worker with
    | sender other => by_cases ho : other = index <;> simp [holds,Function.update,ho]
    | follower other => simp [holds,Function.update]
  · funext worker
    cases worker with
    | sender other => by_cases ho : other = index <;> simp [past,Function.update,ho]
    | follower other => simp [past,Function.update]

theorem stages_of_follower (s : AdmissionFence) (lock : AdmissionLock) (index : ℕ)
    (follower : OperationFollower) :
    let t : AdmissionFence := {s with
      lock := lock
      followers := Function.update s.followers index follower}
    t.holds = Function.update s.holds (.follower index) follower.stage.holds ∧
      t.past = Function.update s.past (.follower index) follower.stage.past := by
  constructor
  · funext worker
    cases worker with
    | sender other => simp [holds,Function.update]
    | follower other => by_cases ho : other = index <;> simp [holds,Function.update,ho]
  · funext worker
    cases worker with
    | sender other => simp [past,Function.update]
    | follower other => by_cases ho : other = index <;> simp [past,Function.update,ho]

theorem fenced_of_sender (h : s.Fenced) {index : ℕ} {action : LoopAction}
    (ha : s.next (.sender index action) = some t) : t.Fenced := by
  simp only [next,Option.bind_eq_bind,Option.bind_eq_some_iff,Option.some.injEq] at ha
  obtain ⟨stage,hs,lock,hl,rfl⟩ := ha
  obtain ⟨hholds,hpast⟩ := stages_of_sender s lock index stage
  unfold Fenced
  rw [hholds,hpast]
  refine AdmissionLock.Fenced.pass h hl ?_ ?_
  · intro hp
    obtain ⟨hin,hnow,hopen⟩ := LoopStage.past_of_next hs hp
    exact ⟨hin,hnow,Or.inr hopen⟩
  · obtain hw | ⟨hp,hnow,hw⟩ := LoopStage.claims_of_next hs index
    · exact Or.inl hw
    · exact Or.inr ⟨hp,hnow,Or.inl hw⟩

theorem fenced_of_follower (h : s.Fenced) {index : ℕ} {action : ScanAction}
    (ha : s.next (.follower index action) = some t) : t.Fenced := by
  simp only [next,Option.bind_eq_bind,Option.bind_eq_some_iff,Option.some.injEq] at ha
  obtain ⟨follower,hs,lock,hl,rfl⟩ := ha
  obtain ⟨hholds,hpast⟩ := stages_of_follower s lock index follower
  unfold Fenced
  rw [hholds,hpast]
  refine AdmissionLock.Fenced.pass h hl (OperationFollower.past_of_next hs) ?_
  obtain hw | ⟨hp,hnow,hw⟩ := OperationFollower.spawns_of_next hs index
  · exact Or.inl hw
  · exact Or.inr ⟨hp,hnow,Or.inr hw⟩

theorem fenced_of_next (h : s.Fenced) (ha : s.next a = some t) : t.Fenced := by
  cases a with
  | sender index action => exact fenced_of_sender h ha
  | follower index action => exact fenced_of_follower h ha
  | request =>
    simp only [next] at ha
    split at ha
    · rename_i hr
      obtain rfl := by simpa using ha
      exact AdmissionLock.Fenced.request h hr _
    · obtain rfl : s = t := by simpa using ha
      exact h
  | cancel =>
    simp only [next] at ha
    split at ha
    · rename_i hr
      obtain rfl := by simpa using ha
      exact AdmissionLock.Fenced.advance h rfl (by simp [hr]) (by simp) (by simp) (by simp [hr])
    · simp at ha
  | spawn =>
    simp only [next] at ha
    split at ha
    · rename_i hr
      obtain rfl := by simpa using ha
      exact AdmissionLock.Fenced.advance h rfl (by simp [hr]) (by simp) (by simp) (by simp [hr])
    · simp at ha
  | acquire =>
    simp only [next] at ha
    split at ha
    · rename_i hr
      split at ha
      · rename_i hnone
        obtain rfl := by simpa using ha
        exact AdmissionLock.Fenced.acquire h hr hnone
      · simp at ha
    · simp at ha
  | release =>
    simp only [next] at ha
    split at ha
    · rename_i hr
      obtain rfl := by simpa using ha
      exact AdmissionLock.Fenced.advance h rfl (by simp [hr]) (by simp) (by simp) (by simp)
    · simp at ha

/-- Whatever is claimed or spawned comes before the fence, in a section entered before the flag
was set. -/
theorem shutdown_fences_work {tr : List FenceAction}
    (h : Run (fun v a w => v.next a = some w) initial tr s) :
    Throughout Admissible s.lock.log :=
  (h.invariant fenced_initial fun _ _ _ hv ha => fenced_of_next hv ha).log

/-- A claim under way when the shutdown begins, which the fence waits for. -/
def lastClaim : List FenceAction :=
  [.sender 0 .check,.sender 1 .check,.sender 0 .sample,.sender 1 .sample,.sender 0 .enter,
    .sender 0 .recheck,.request,.sender 1 .enter,.cancel,.spawn,.sender 1 .recheck,
    .sender 0 (.claim true true),.acquire,.release]

theorem shutdown_fences_work_in_flight : ∃ s,
    Run (fun v a w => AdmissionFence.next v a = some w) initial lastClaim s ∧
      s.lock.log = [.entered (.sender 0),.closed,.entered (.sender 1),.left (.sender 1),
        .claimed (.sender 0),.left (.sender 0),.fenced] ∧
      Throughout Admissible s.lock.log := by
  obtain ⟨s,hr,hl⟩ := @exists_run_of_replay _ _ next initial lastClaim
    (fun s => s.lock.log = [.entered (.sender 0),.closed,.entered (.sender 1),.left (.sender 1),
      .claimed (.sender 0),.left (.sender 0),.fenced]) _ (by decide +kernel)
  exact ⟨s,hr,hl,shutdown_fences_work hr⟩

end AdmissionFence

end RatatoskrTelegram
