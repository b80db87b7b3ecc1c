import RatatoskrTelegram.Processes
import RatatoskrTelegram.TokenHandlers
import RatatoskrTelegram.TokenReleases

/-!
# Read commands against Platform

A `/read` command consumes the authority it presents and then replaces the read state of the item,
twice at most. Any number of handlers present commands while every other producer goes on; a
request may be applied whatever its answer is, and a handler may stop between any two of its steps.
-/

namespace RatatoskrTelegram

/-- What a handler comes to next; `release` is the place of the consumed authority in the log. -/
inductive ReadStage
  | idle
  | opening (p : CommandPresentation)
  | granting (p : CommandPresentation) (session : UserSession)
  | resolving (p : CommandPresentation) (session : UserSession)
  | writing (p : CommandPresentation) (session : UserSession) (analysisId : Uuid) (release : ℕ)
      (attempt : ℕ) (uncertain : Bool)
  | replying (p : CommandPresentation) (text : String)
  | settled (p : CommandPresentation) (state : SettledState)
  deriving DecidableEq

/-- A request that replaces the read state of an item for the user of the session: made for that
command, with the authority consumed at that place of the log. -/
structure ReadPut where
  command : CommandPresentation
  session : UserSession
  release : ℕ
  analysisId : Uuid
  deriving DecidableEq

def readAttempts : ℕ := 2

def unknownReadText : String :=
  "The read outcome is unknown. Use <code>/unread</code> to reconcile it."

def CommandPresentation.presents (p : CommandPresentation) (session : UserSession) (now : ℤ) :
    LibraryReadPresentation :=
  ⟨p.token,⟨p.botId,p.senderId,session.userId,p.chatId⟩,now⟩

namespace ReadStage

def opened (p : CommandPresentation) : Except PlatformError UserSession → ReadStage
  | .ok session => granting p session
  | .error _ => replying p readUnavailableText

def granted (p : CommandPresentation) (session : UserSession) :
    Except PlatformError (List String) → ReadStage
  | .ok capabilities =>
    if readCapability ∈ capabilities then resolving p session else replying p readUnavailableText
  | .error _ => replying p readUnavailableText

def resolved (p : CommandPresentation) (session : UserSession) (release : ℕ) :
    Except PersistenceError (Except TokenRefusal Uuid) → ReadStage
  | .ok (.ok analysisId) => writing p session analysisId release 0 false
  | .ok (.error _) => replying p expiredReadText
  | .error _ => replying p readUnavailableText

def again (p : CommandPresentation) (session : UserSession) (analysisId : Uuid)
    (release attempt : ℕ) (uncertain : Bool) : ReadStage :=
  if attempt + 1 < readAttempts then writing p session analysisId release (attempt + 1) uncertain
  else replying p (if uncertain then unknownReadText else readUnavailableText)

def written (p : CommandPresentation) (session : UserSession) (analysisId : Uuid)
    (release attempt : ℕ) (uncertain : Bool) : Except PlatformError LibraryReadState → ReadStage
  | .ok .read => replying p "Item marked as read."
  | .ok .unread | .error .timeout => again p session analysisId release attempt true
  | .error .notFound => replying p "This library item is no longer available."
  | .error (.network isConnect) =>
    again p session analysisId release attempt (uncertain || !isConnect)
  | .error (.serverError _) | .error .rateLimited =>
    again p session analysisId release attempt uncertain
  | .error _ => replying p readUnavailableText

/-- One attempt of `readReply`; `next` is what the attempts behind it come to. -/
def replyTo (next : Bool → String) (uncertain : Bool) :
    Except PlatformError LibraryReadState → String
  | .ok .read => "Item marked as read."
  | .ok .unread | .error .timeout => next true
  | .error .notFound => "This library item is no longer available."
  | .error (.network isConnect) => next (uncertain || !isConnect)
  | .error (.serverError _) | .error .rateLimited => next uncertain
  | .error _ => readUnavailableText

theorem readReply_succ (answer : ℕ → Except PlatformError LibraryReadState) (left attempt : ℕ)
    (uncertain : Bool) : readReply answer (left + 1) attempt uncertain =
      replyTo (readReply answer left (attempt + 1)) uncertain (answer attempt) := rfl

theorem written_cases (p : CommandPresentation) (session : UserSession) (analysisId : Uuid)
    (release left attempt : ℕ) (uncertain : Bool)
    (answer : ℕ → Except PlatformError LibraryReadState) :
    (∃ uncertain', written p session analysisId release attempt uncertain (answer attempt) =
        again p session analysisId release attempt uncertain' ∧
      readReply answer (left + 1) attempt uncertain =
        readReply answer left (attempt + 1) uncertain') ∨
    ∃ text, written p session analysisId release attempt uncertain (answer attempt) =
        replying p text ∧ readReply answer (left + 1) attempt uncertain = text := by
  rw [readReply_succ]
  cases answer attempt with
  | ok state =>
    cases state with
    | read => exact Or.inr ⟨_,rfl,rfl⟩
    | unread => exact Or.inl ⟨true,rfl,rfl⟩
  | error error =>
    cases error with
    | timeout => exact Or.inl ⟨true,rfl,rfl⟩
    | network isConnect => exact Or.inl ⟨uncertain || !isConnect,rfl,rfl⟩
    | serverError | rateLimited => exact Or.inl ⟨uncertain,rfl,rfl⟩
    | _ => exact Or.inr ⟨_,rfl,rfl⟩

def writes (answer : ℕ → Except PlatformError LibraryReadState) : ReadStage → ReadStage
  | writing p session analysisId release attempt uncertain =>
    written p session analysisId release attempt uncertain (answer attempt)
  | stage => stage

/-- The two attempts come to the reply of the handler. -/
theorem writes_reply (p : CommandPresentation) (session : UserSession) (analysisId : Uuid)
    (release : ℕ) (answer : ℕ → Except PlatformError LibraryReadState) :
    (writes answer)^[readAttempts] (writing p session analysisId release 0 false) =
      replying p (readReply answer readAttempts 0 false) := by
  show writes answer (written p session analysisId release 0 false (answer 0)) = _
  rcases written_cases p session analysisId release 1 0 false answer with
    ⟨uncertain,he,hreply⟩ | ⟨text,he,hreply⟩
  · rw [he,readAttempts,hreply]
    show written p session analysisId release 1 uncertain (answer 1) = _
    rcases written_cases p session analysisId release 0 1 uncertain answer with
      ⟨uncertain',he',hreply'⟩ | ⟨text,he',hreply'⟩
    · rw [he',hreply']
      rfl
    · rw [he',hreply']
  · rw [he,readAttempts,hreply]
    rfl

end ReadStage

structure ReadShared where
  registry : Registry
  puts : List ReadPut

/-- `lost` is whether a transaction whose answer is lost has committed. -/
inductive ReadAction
  | begins (p : CommandPresentation)
  | session (answer : Except PlatformError UserSession)
  | capabilities (answer : Except PlatformError (List String))
  | resolves (now : ℤ) (lost : Option Bool)
  | puts (answer : Except PlatformError LibraryReadState)
  | replies (jobId : Uuid) (now : ℤ) (lost : Option Bool)
  | ends

namespace ReadShared

def initial : ReadShared := ⟨.initial,[]⟩

def calls (v : ReadShared) (c : Call) : ReadShared := {v with registry := v.registry.next c}

def sends (v : ReadShared) (put : ReadPut) : ReadShared := {v with puts := v.puts ++ [put]}

def count (v : ReadShared) (release : ℕ) : ℕ := v.puts.countP (·.release = release)

end ReadShared

namespace LibraryReads

/-- A step of a handler; to it a lost answer is an error. -/
def own (stage : ReadStage) (v : ReadShared) : ReadAction → Option (ReadStage × ReadShared)
  | .begins p => if stage = .idle then some (.opening p,v) else none
  | .session answer =>
    match stage with
    | .opening p => some (.opened p answer,v)
    | _ => none
  | .capabilities answer =>
    match stage with
    | .granting p session => some (.granted p session answer,v)
    | _ => none
  | .resolves now lost =>
    match stage with
    | .resolving p session =>
      let presentation := p.presents session now
      match lost with
      | none => some (.resolved p session v.registry.log.length
          (resolveLibraryReadIntent presentation v.registry.database).1,
        v.calls (.resolveLibraryReadIntent presentation))
      | some true => some (.replying p readUnavailableText,
          v.calls (.resolveLibraryReadIntent presentation))
      | some false => some (.replying p readUnavailableText,v)
    | _ => none
  | .puts answer =>
    match stage with
    | .writing p session analysisId release attempt uncertain =>
      some (.written p session analysisId release attempt uncertain answer,
        v.sends ⟨p,session,release,analysisId⟩)
    | _ => none
  | .replies jobId now lost =>
    match stage with
    | .replying p text =>
      match lost with
      | none => some (.settled p (enqueueText jobId p.botId p.chatId text now
          v.registry.database).1,
        v.calls (.enqueueOutboundJob jobId (replyJob p.botId p.chatId text) now))
      | some true => some (.settled p .failed,
          v.calls (.enqueueOutboundJob jobId (replyJob p.botId p.chatId text) now))
      | some false => some (.settled p .failed,v)
    | _ => none
  | .ends => some (.idle,v)

def other (v : ReadShared) (c : Call) : Option ReadShared :=
  if c.Promised then some (v.calls c) else none

def initial : Processes ReadShared ReadStage := ⟨.initial,fun _ => .idle⟩

abbrev Runs (tr : List (Move ReadAction Call)) (s : Processes ReadShared ReadStage) : Prop :=
  Processes.Runs own other initial tr s

/-- The authority was released for that item when the command of the request was presented. -/
def Answered (v : ReadShared) (put : ReadPut) : Prop :=
  ∃ now, v.registry.log[put.release]? =
    some (.released (.read (put.command.presents put.session now) put.analysisId))

structure Sound (v : ReadShared) : Prop where
  lawful : v.registry.Lawful
  answered : ∀ put ∈ v.puts, Answered v put
  bounded : ∀ release, v.count release ≤ readAttempts

/-- A handler that writes holds a released authority and has made its earlier attempts. -/
def Holds (v : ReadShared) : ReadStage → Prop
  | .writing p session analysisId release attempt _ =>
    attempt < readAttempts ∧ v.count release = attempt ∧ ∃ now,
      v.registry.log[release]? = some (.released (.read (p.presents session now) analysisId))
  | _ => True

/-- No two handlers hold one authority. -/
def Apart : ReadStage → ReadStage → Prop
  | .writing _ _ _ release _ _, .writing _ _ _ release' _ _ => release ≠ release'
  | _, _ => True

theorem Apart.symm {r q : ReadStage} (h : Apart r q) : Apart q r := by
  cases r <;> cases q <;> first | trivial | exact Ne.symm h

section Steps

variable {v : ReadShared} {c : Call} {put : ReadPut} {stage : ReadStage} {n : ℕ}
  {e : RegistryEvent}

theorem log_calls (h : v.registry.log[n]? = some e) (c : Call) :
    (v.calls c).registry.log[n]? = some e := by
  obtain ⟨hn,-⟩ := List.getElem?_eq_some_iff.mp h
  show (v.registry.log ++ _ ++ _)[n]? = _
  rw [List.append_assoc,List.getElem?_append_left hn,h]

theorem Sound.calls (h : Sound v) (c : Call) : Sound (v.calls c) where
  lawful := h.lawful.step
  answered put hput := by
    obtain ⟨now,hlog⟩ := h.answered put hput
    exact ⟨now,log_calls hlog c⟩
  bounded := h.bounded

theorem Holds.calls (h : Holds v stage) (c : Call) : Holds (v.calls c) stage := by
  cases stage with
  | writing p session analysisId release attempt uncertain =>
    obtain ⟨hattempt,hcount,now,hlog⟩ := h
    exact ⟨hattempt,hcount,now,log_calls hlog c⟩
  | _ => trivial

theorem count_sends (v : ReadShared) (put : ReadPut) (n : ℕ) :
    (v.sends put).count n = v.count n + if put.release = n then 1 else 0 := by
  simp [ReadShared.sends,ReadShared.count,List.countP_append,List.countP_singleton]

theorem Sound.count_length (h : Sound v) : v.count v.registry.log.length = 0 := by
  rw [ReadShared.count,List.countP_eq_zero]
  intro put hput
  obtain ⟨_,hlog⟩ := h.answered put hput
  obtain ⟨hn,-⟩ := List.getElem?_eq_some_iff.mp hlog
  simpa using Nat.ne_of_lt hn

theorem log_released {p : LibraryReadPresentation} {analysisId : Uuid}
    (h : (resolveLibraryReadIntent p v.registry.database).1 = .ok (.ok analysisId)) :
    (v.calls (.resolveLibraryReadIntent p)).registry.log[v.registry.log.length]? =
      some (.released (.read p analysisId)) := by
  have hissues : (Call.resolveLibraryReadIntent p).issues v.registry.database = [] :=
    (Call.Resolves.read p).issues_eq_nil _
  have hreleases : (Call.resolveLibraryReadIntent p).releases v.registry.database =
      some (.read p analysisId) := by
    simp only [Call.releases,h]
  show (v.registry.log ++ _ ++ _)[_]? = _
  rw [hissues,hreleases]
  simp

/-- An attempt is made for the authority the handler holds, and the handler may hold it still. -/
theorem keeps_puts {p : CommandPresentation} {session : UserSession} {analysisId : Uuid}
    {release attempt : ℕ} {uncertain : Bool} (hv : Sound v)
    (hh : Holds v (.writing p session analysisId release attempt uncertain))
    (answer : Except PlatformError LibraryReadState) :
    Sound (v.sends ⟨p,session,release,analysisId⟩) ∧
      Holds (v.sends ⟨p,session,release,analysisId⟩)
        (.written p session analysisId release attempt uncertain answer) ∧
      ∀ q, Holds v q → Apart (.writing p session analysisId release attempt uncertain) q →
        Holds (v.sends ⟨p,session,release,analysisId⟩) q ∧
          Apart (.written p session analysisId release attempt uncertain answer) q := by
  obtain ⟨hattempt,hcount,now,hlog⟩ := hh
  have hsound : Sound (v.sends ⟨p,session,release,analysisId⟩) := by
    refine ⟨hv.lawful,?_,?_⟩
    · intro put hput
      rcases List.mem_append.mp hput with hput | hput
      · exact hv.answered put hput
      · obtain rfl := List.mem_singleton.mp hput
        exact ⟨now,hlog⟩
    · intro n
      rw [count_sends]
      split
      · rename_i he
        have he : release = n := he
        rw [← he,hcount]
        exact hattempt
      · exact hv.bounded n
  -- behind the attempt the handler holds the authority with one attempt more, or writes no more
  have hnext : (∃ uncertain', attempt + 1 < readAttempts ∧
        ReadStage.written p session analysisId release attempt uncertain answer =
          .writing p session analysisId release (attempt + 1) uncertain') ∨
      ∃ text, ReadStage.written p session analysisId release attempt uncertain answer =
        .replying p text := by
    rcases ReadStage.written_cases p session analysisId release 0 attempt uncertain
      (fun _ => answer) with ⟨uncertain',he,-⟩ | ⟨text,he,-⟩
    · rw [he]
      unfold ReadStage.again
      split
      · rename_i hlt
        exact Or.inl ⟨uncertain',hlt,rfl⟩
      · exact Or.inr ⟨_,rfl⟩
    · exact Or.inr ⟨text,he⟩
  have hkept {q : ReadStage} (hq : Holds v q)
      (hapart : Apart (.writing p session analysisId release attempt uncertain) q) :
      Holds (v.sends ⟨p,session,release,analysisId⟩) q := by
    cases q with
    | writing p' session' analysisId' release' attempt' uncertain' =>
      obtain ⟨hattempt',hcount',hlog'⟩ := hq
      refine ⟨hattempt',?_,hlog'⟩
      rw [count_sends,if_neg hapart]
      exact hcount'
    | _ => trivial
  refine ⟨hsound,?_,?_⟩
  · rcases hnext with ⟨uncertain',hlt,he⟩ | ⟨text,he⟩
    · rw [he]
      refine ⟨hlt,?_,now,hlog⟩
      rw [count_sends,if_pos rfl,hcount]
    · rw [he]
      trivial
  · intro q hq hapart
    refine ⟨hkept hq hapart,?_⟩
    rcases hnext with ⟨uncertain',hlt,he⟩ | ⟨text,he⟩
    · rw [he]
      cases q with
      | writing => exact hapart
      | _ => trivial
    · rw [he]
      trivial

end Steps

theorem keeps : Processes.Keeps own other Sound Holds Apart where
  symm := Apart.symm
  own := by
    intro v stage a stage' w hv hh hown
    have hidle {stage' : ReadStage} {w : ReadShared} (hsound : Sound w) (hself : Holds w stage')
        (hcalls : ∀ q, Holds v q → Holds w q) (hapart : ∀ q, Apart stage' q) :
        Sound w ∧ Holds w stage' ∧ ∀ q, Holds v q → Apart stage q → Holds w q ∧ Apart stage' q :=
      ⟨hsound,hself,fun q hq _ => ⟨hcalls q hq,hapart q⟩⟩
    cases a with
    | begins p =>
      simp only [own] at hown
      split at hown
      · obtain ⟨rfl,rfl⟩ := Prod.mk.inj (Option.some.inj hown)
        exact hidle hv trivial (fun _ => id) fun _ => trivial
      · simp at hown
    | session answer =>
      simp only [own] at hown
      split at hown
      · obtain ⟨rfl,rfl⟩ := Prod.mk.inj (Option.some.inj hown)
        cases answer <;> exact hidle hv trivial (fun _ => id) fun _ => trivial
      · simp at hown
    | capabilities answer =>
      simp only [own] at hown
      split at hown
      · obtain ⟨rfl,rfl⟩ := Prod.mk.inj (Option.some.inj hown)
        cases answer with
        | error error => exact hidle hv trivial (fun _ => id) fun _ => trivial
        | ok capabilities =>
          unfold ReadStage.granted
          dsimp only
          split <;> exact hidle hv trivial (fun _ => id) fun _ => trivial
      · simp at hown
    | resolves now lost =>
      simp only [own] at hown
      split at hown
      · rename_i p session
        cases lost with
        | some committed =>
          cases committed <;> obtain ⟨rfl,rfl⟩ := Prod.mk.inj (Option.some.inj hown)
          · exact hidle hv trivial (fun _ => id) fun _ => trivial
          · exact hidle (hv.calls _) trivial (fun _ hq => hq.calls _) fun _ => trivial
        | none =>
          obtain ⟨rfl,rfl⟩ := Prod.mk.inj (Option.some.inj hown)
          cases hr : (resolveLibraryReadIntent (p.presents session now)
            v.registry.database).1 with
          | error e => exact hidle (hv.calls _) trivial (fun _ hq => hq.calls _) fun _ => trivial
          | ok answer =>
            cases answer with
            | error refusal =>
              exact hidle (hv.calls _) trivial (fun _ hq => hq.calls _) fun _ => trivial
            | ok analysisId =>
              refine ⟨hv.calls _,⟨Nat.zero_lt_two,hv.count_length,now,log_released hr⟩,?_⟩
              intro q hq _
              refine ⟨hq.calls _,?_⟩
              cases q with
              | writing p' session' analysisId' release' attempt' uncertain' =>
                obtain ⟨-,-,now',hlog⟩ := hq
                obtain ⟨hn,-⟩ := List.getElem?_eq_some_iff.mp hlog
                exact Nat.ne_of_gt hn
              | _ => trivial
      · simp at hown
    | puts answer =>
      simp only [own] at hown
      split at hown
      · obtain ⟨rfl,rfl⟩ := Prod.mk.inj (Option.some.inj hown)
        exact keeps_puts hv hh answer
      · simp at hown
    | replies jobId now lost =>
      simp only [own] at hown
      split at hown
      · cases lost with
        | none =>
          obtain ⟨rfl,rfl⟩ := Prod.mk.inj (Option.some.inj hown)
          exact hidle (hv.calls _) trivial (fun _ hq => hq.calls _) fun _ => trivial
        | some committed =>
          cases committed <;> obtain ⟨rfl,rfl⟩ := Prod.mk.inj (Option.some.inj hown)
          · exact hidle hv trivial (fun _ => id) fun _ => trivial
          · exact hidle (hv.calls _) trivial (fun _ hq => hq.calls _) fun _ => trivial
      · simp at hown
    | ends =>
      obtain ⟨rfl,rfl⟩ := Prod.mk.inj (Option.some.inj hown)
      exact hidle hv trivial (fun _ => id) fun _ => trivial
  other := by
    intro v c w hv hother
    unfold other at hother
    split at hother
    · obtain rfl := Option.some.inj hother
      exact ⟨hv.calls c,fun _ hq => hq.calls c⟩
    · simp at hother

theorem invariant_run {tr : List (Move ReadAction Call)} {s : Processes ReadShared ReadStage}
    (h : Runs tr s) : s.Invariant Sound Holds Apart := by
  have hinitial : initial.Invariant Sound Holds Apart := by
    refine ⟨⟨.initial,?_,?_⟩,fun _ => trivial,fun _ _ _ => trivial⟩
    · intro put hput
      simp [initial,ReadShared.initial] at hput
    · intro n
      exact Nat.zero_le _
  exact hinitial.run keeps h

/-- However many handlers present commands, and whatever is answered or lost: a read state is only
ever replaced for an authority that was issued for that item to that user in that chat, presented
by them early enough and released for this command, at most twice for one release, and not again
before the authority is issued anew. -/
theorem reads_authorized {tr : List (Move ReadAction Call)} {s : Processes ReadShared ReadStage}
    (h : Runs tr s) :
    (∀ put ∈ s.shared.puts, ∃ earlier p later row now,
      s.shared.registry.log = earlier ++ RegistryEvent.released (.read p put.analysisId) :: later ∧
      earlier.length = put.release ∧ p = put.command.presents put.session now ∧
      Outstanding row p.token earlier ∧ Release.EntitledBy row (.read p put.analysisId)) ∧
    (∀ release, s.shared.count release ≤ readAttempts) ∧ OncePerIssue s.shared.registry.log := by
  have hsound := (invariant_run h).shared
  refine ⟨?_,hsound.bounded,oncePerIssue_of_answers hsound.lawful.log⟩
  intro put hput
  obtain ⟨now,hlog⟩ := hsound.answered put hput
  obtain ⟨hn,he⟩ := List.getElem?_eq_some_iff.mp hlog
  have hsplit : s.shared.registry.log = s.shared.registry.log.take put.release ++
      RegistryEvent.released (.read (put.command.presents put.session now) put.analysisId) ::
        s.shared.registry.log.drop (put.release + 1) := by
    rw [← he,← List.drop_eq_getElem_cons hn,List.take_append_drop]
  obtain ⟨row,hout,hentitled⟩ := hsound.lawful.log _ _ _ hsplit
  exact ⟨_,_,_,row,now,hsplit,List.length_take_of_le hn.le,rfl,hout,hentitled⟩

namespace OneRead

def token : Token := .filled 'r'

def prepared : PreparedLibraryReadIntent := ⟨token,⟨7,42,9,42⟩,5,1000⟩

def command : CommandPresentation := ⟨token.text,7,42,42⟩

def handles (i : ℕ) : List (Move ReadAction Call) :=
  [.own i (.begins command),.own i (.session (.ok ⟨"session",9⟩)),
    .own i (.capabilities (.ok [readCapability])),.own i (.resolves 500 none)]

/-- Two handlers present the command; the first request of the winner may have been lost. -/
def presentedTwice : List (Move ReadAction Call) :=
  ([.other (.issueLibraryReadIntent prepared 0)] : List (Move ReadAction Call)) ++ handles 0 ++
    handles 1 ++ ([.own 0 (.puts (.error .timeout)),.own 0 (.puts (.ok .read)),
      .own 0 (.replies 10 501 none),.own 1 (.replies 11 501 none)] : List (Move ReadAction Call))

theorem read_once : ∃ s, Runs presentedTwice s ∧ s.shared.count 1 = 2 ∧
    (∀ release, s.shared.count release ≤ readAttempts) := by
  obtain ⟨s,hs,hcount⟩ : ∃ s, Runs presentedTwice s ∧ s.shared.count 1 = 2 :=
    exists_run_of_replay (by decide +kernel)
  exact ⟨s,hs,hcount,(reads_authorized hs).2.1⟩

end OneRead

end LibraryReads

end RatatoskrTelegram
