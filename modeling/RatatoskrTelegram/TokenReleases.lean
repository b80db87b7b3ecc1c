import RatatoskrTelegram.TokenEffects

/-!
# Deep links and commands are released once

Three consumers share one table of tokens. Over every run each issued deep link
or command is released at most once, by the resolver of its own surface, to the
presentation it was recorded for.
-/

namespace RatatoskrTelegram

inductive Release
  | operation (p : TokenPresentation) (released : ReleasedToken)
  | read (p : LibraryReadPresentation) (analysisId : Uuid)
  deriving DecidableEq, Repr

def Release.text : Release → List Char
  | operation p _ => p.token
  | read p _ => p.token

inductive RegistryEvent
  | issued (row : InteractionToken)
  | released (release : Release)
  deriving DecidableEq, Repr

def RegistryEvent.text : RegistryEvent → List Char
  | issued row => row.token.text
  | released release => release.text

/-- The presentation is in the scope recorded for the row and early enough, and what is released
is what the row stores. -/
inductive Release.EntitledBy (row : InteractionToken) : Release → Prop
  | operation {p : TokenPresentation} {released : ReleasedToken} : row.surface = .deepLink →
      p.surface = .deepLink → row.action = .operationStatus → row.botId = p.scope.botId →
      row.telegramUserId = p.scope.telegramUserId → row.chatId = p.scope.chatId →
      p.now < row.expiresAt → row.operationId = some released.operationId →
      row.payload = some released.payload → EntitledBy row (.operation p released)
  | read {p : LibraryReadPresentation} {analysisId : Uuid} : row.surface = .command →
      row.action = .libraryRead → row.botId = p.scope.botId →
      row.telegramUserId = p.scope.telegramUserId →
      row.internalUserId = some p.scope.internalUserId → row.chatId = p.scope.chatId →
      p.now < row.expiresAt → row.analysisId = some analysisId → EntitledBy row (.read p analysisId)

/-- The token was issued as `row`, and nothing has been issued or released under its text since. -/
def Outstanding (row : InteractionToken) (text : List Char) (before : List RegistryEvent) : Prop :=
  ∃ earlier later, before = earlier ++ RegistryEvent.issued row :: later ∧ row.token.text = text ∧
    ∀ e ∈ later, e.text ≠ text

/-- A release answers the last issue of its token, which nothing has answered yet. -/
def AnswersIssue (before : List RegistryEvent) : RegistryEvent → Prop
  | .issued _ => True
  | .released release => ∃ row, Outstanding row release.text before ∧ release.EntitledBy row

namespace Call

def issues (c : Call) (db : Database) : List InteractionToken :=
  (c.apply db).interactionTokens.rows.filter fun t => db.interactionTokens.select t.token = none

def releases (db : Database) : Call → Option Release
  | consumeInteractionToken p =>
    match (RatatoskrTelegram.consumeInteractionToken p db).1 with
    | .ok (.ok released) => some (.operation p released)
    | _ => none
  | resolveOperationIntent p =>
    match (RatatoskrTelegram.resolveOperationIntent p db).1 with
    | .ok (.ok released) => some (.operation p released)
    | _ => none
  | resolveLibraryReadIntent p =>
    match (RatatoskrTelegram.resolveLibraryReadIntent p db).1 with
    | .ok (.ok analysisId) => some (.read p analysisId)
    | _ => none
  | _ => none

/-- A presentation to one of the resolvers of deep links and commands. -/
inductive Resolves : Call → Prop
  | consume (p : TokenPresentation) : Resolves (.consumeInteractionToken p)
  | operation (p : TokenPresentation) : Resolves (.resolveOperationIntent p)
  | read (p : LibraryReadPresentation) : Resolves (.resolveLibraryReadIntent p)

end Call

structure Registry where
  database : Database
  log : List RegistryEvent

namespace Registry

def initial : Registry := ⟨.fresh,[]⟩

def next (s : Registry) (c : Call) : Registry where
  database := c.apply s.database
  log := s.log ++ (c.issues s.database).map .issued ++
    ((c.releases s.database).map .released).toList

def Steps (s : Registry) (c : Call) (t : Registry) : Prop :=
  c.Promised ∧ s.next c = t

end Registry

namespace Call

theorem mem_issues {c : Call} {db : Database} {t : InteractionToken} :
    t ∈ c.issues db ↔ t ∈ (c.apply db).interactionTokens ∧
      db.interactionTokens.select t.token = none := by
  simp [issues,Table.mem_def]

theorem issues_split {c : Call} {db : Database} {t : InteractionToken} (ht : t ∈ c.issues db) :
    ∃ earlier later, c.issues db = earlier ++ t :: later ∧ ∀ u ∈ later, u.token ≠ t.token := by
  obtain ⟨earlier,later,hsplit⟩ := List.append_of_mem ht
  have hnodup : ((c.issues db).map fun u => u.token).Nodup :=
    (c.apply db).interactionTokens.unique.sublist (List.filter_sublist.map _)
  rw [hsplit,List.map_append,List.map_cons] at hnodup
  have hcons := (List.nodup_append.mp hnodup).2.1
  refine ⟨earlier,later,hsplit,?_⟩
  intro u hu he
  exact (List.nodup_cons.mp hcons).1 (List.mem_map.mpr ⟨u,hu,he⟩)

/-- A resolver releases the row stored under the presented text, or writes nothing. -/
inductive ReleaseStep (db : Database) : Option Release → Database → Prop
  | refused : ReleaseStep db none db
  | operation {p : TokenPresentation} {released : ReleasedToken} {t : InteractionToken} :
      t ∈ db.interactionTokens → ReleasesOperation p t released →
      ReleaseStep db (some (.operation p released))
        (releasedDatabase t p.scope.telegramUserId p.now db)
  | read {p : LibraryReadPresentation} {analysisId : Uuid} {t : InteractionToken} :
      t ∈ db.interactionTokens → ReleasesRead p t analysisId →
      ReleaseStep db (some (.read p analysisId)) (releasedDatabase t p.scope.telegramUserId p.now db)

theorem Resolves.step {c : Call} (h : c.Resolves) (db : Database) :
    ReleaseStep db (c.releases db) (c.apply db) := by
  cases h with
  | consume p =>
    obtain ⟨r,t,he,hstep⟩ := consumeInteractionToken_step p db
    simp only [releases,apply,he]
    cases hstep with
    | failed _ => exact .refused
    | refused _ => exact .refused
    | released hs hrel => exact .operation (Table.mem_of_select hs) hrel
  | operation p =>
    obtain ⟨r,t,he,hstep,_⟩ := resolveOperationIntent_step p db
    simp only [releases,apply,he]
    cases hstep with
    | failed _ => exact .refused
    | refused _ => exact .refused
    | released hs hrel => exact .operation (Table.mem_of_select hs) hrel
  | read p =>
    obtain ⟨r,t,he,hstep⟩ := resolveLibraryReadIntent_step p db
    simp only [releases,apply,he]
    cases hstep with
    | failed _ => exact .refused
    | refused _ => exact .refused
    | released hs hrel => exact .read (Table.mem_of_select hs) hrel

theorem resolves_of_releases {c : Call} {db : Database} {release : Release}
    (h : c.releases db = some release) : c.Resolves := by
  cases c with
  | consumeInteractionToken p => exact .consume p
  | resolveOperationIntent p => exact .operation p
  | resolveLibraryReadIntent p => exact .read p
  | _ => simp [releases] at h

theorem Resolves.issues_eq_nil {c : Call} (h : c.Resolves) (db : Database) : c.issues db = [] := by
  rw [List.eq_nil_iff_forall_not_mem]
  intro t ht
  obtain ⟨hm,hn⟩ := mem_issues.mp ht
  have hissued := (tokens_change c db).fresh hn (Table.select_of_mem hm)
  cases h <;> cases hissued

theorem Retokens.shaped {db : Database} {c : Call} {t t' : InteractionToken}
    (h : c.Retokens db t t') (hs : t.ShapeChecked) : t'.ShapeChecked := by
  cases h with
  | stamped _ _ _ hid _ _ =>
    rcases hs with hcallback | ⟨_,_,_,hd,_⟩ | ⟨_,_,_,hd,_⟩
    · exact Or.inl hcallback
    · simp [hd] at hid
    · simp [hd] at hid
  | _ => exact hs

theorem callbackAuthority_shaped (token : Token) {action : TokenAction} (dialogueId : Uuid)
    (scope : DialogueScope) (expectedVersion createdAt expiresAt : ℤ)
    (ha : InteractionToken.isCallbackAction action = true) :
    (callbackAuthority token action dialogueId scope expectedVersion createdAt
      expiresAt).ShapeChecked :=
  Or.inl ⟨rfl,ha,by simp [callbackAuthority],by simp [callbackAuthority],rfl,rfl,rfl,rfl⟩

theorem Issues.shaped {db : Database} {c : Call} {t : InteractionToken} (h : c.Issues db t) :
    t.ShapeChecked := by
  cases h with
  | @selection _ _ _ _ _ _ _ mode _ action _ _ _ ha =>
    refine callbackAuthority_shaped _ _ _ _ _ _ ?_
    cases mode with
    | unsupported => simp [selectionAction] at ha
    | _ =>
      obtain rfl := Option.some.inj ha
      rfl
  | confirmation _ _ _ ha =>
    refine callbackAuthority_shaped _ _ _ _ _ _ ?_
    rcases ha with ⟨_,rfl⟩ | ⟨_,rfl⟩ <;> rfl
  | captured hc => exact hc.2.2.2
  | delivered _ hc => exact hc.2.2.2
  | operation hc => exact hc.2.2.2
  | read hc => exact hc.2.2.2

end Call

theorem Outstanding.append {row : InteractionToken} {text : List Char}
    {before : List RegistryEvent} (h : Outstanding row text before) {events : List RegistryEvent}
    (he : ∀ e ∈ events, e.text ≠ text) : Outstanding row text (before ++ events) := by
  obtain ⟨earlier,later,rfl,htext,hlater⟩ := h
  refine ⟨earlier,later ++ events,by simp,htext,?_⟩
  intro e hm
  rcases List.mem_append.mp hm with hm | hm
  · exact hlater e hm
  · exact he e hm

namespace Registry

/-- Every stored token that is not consumed is outstanding, and the log is lawful. -/
structure Lawful (s : Registry) : Prop where
  shaped : ∀ t ∈ s.database.interactionTokens, t.ShapeChecked
  outstanding : ∀ t ∈ s.database.interactionTokens, t.consumedAt = none →
    ∃ row, Outstanding row t.token.text s.log ∧ Call.SameAuthority row t
  log : Throughout AnswersIssue s.log

namespace Lawful

variable {s : Registry} {c : Call}

theorem initial : Lawful initial where
  shaped t ht := absurd ht (Table.not_mem_empty t)
  outstanding t ht := absurd ht (Table.not_mem_empty t)
  log := .nil

theorem unconsumed_of_releases {db : Database} {release : Release} (h : c.releases db = some release)
    {t : InteractionToken} (ht : t ∈ (c.apply db).interactionTokens) (hn : t.consumedAt = none) :
    release.text ≠ t.token.text := by
  have hconsumed {row : InteractionToken} {actorId now : ℤ} {text : List Char}
      (hrow : row.token.text = text)
      (ht : t ∈ (releasedDatabase row actorId now db).interactionTokens) : text ≠ t.token.text := by
    rintro rfl
    obtain ⟨u,hu,rfl⟩ := Table.mem_update.mp ht
    by_cases hk : u.token = row.token
    · rw [if_pos hk] at hn
      simp [consumeToken] at hn
    · rw [if_neg hk] at hrow
      exact hk (Token.ext hrow.symm)
  have hstep := (Call.resolves_of_releases h).step db
  rw [h] at hstep
  generalize c.apply db = db' at ht hstep
  cases hstep with
  | operation _ hrel => exact hconsumed hrel.text ht
  | read _ hrel => exact hconsumed hrel.text ht

theorem outstanding_step (h : s.Lawful) : ∀ t ∈ (s.next c).database.interactionTokens,
    t.consumedAt = none →
    ∃ row, Outstanding row t.token.text (s.next c).log ∧ Call.SameAuthority row t := by
  intro t ht hn
  have hreleased : ∀ e ∈ ((c.releases s.database).map RegistryEvent.released).toList,
      e.text ≠ t.token.text := by
    intro e he
    obtain ⟨release,hr,rfl⟩ := Option.map_eq_some_iff.mp (Option.mem_toList.mp he)
    exact unconsumed_of_releases hr ht hn
  rcases (Call.tokens_change c s.database).origin (Table.select_of_mem ht) with
    ⟨u,hu,hre⟩ | ⟨hnone,hissued⟩
  · have hun : u.consumedAt = none := by
      by_contra hc
      exact hc (hre.of_consumed hc ▸ hn)
    obtain ⟨row,hout,hsame⟩ := h.outstanding u (Table.mem_of_select hu) hun
    refine ⟨row,?_,hsame.trans hre.same⟩
    rw [← hre.same.token] at hout
    refine (hout.append ?_).append hreleased
    intro e he
    obtain ⟨r,hr,rfl⟩ := List.mem_map.mp he
    intro htext
    have hkey : r.token = t.token := Token.ext htext
    have hrn := (Call.mem_issues.mp hr).2
    rw [hkey] at hrn
    exact absurd (hrn.symm.trans hu) (by simp)
  · obtain ⟨earlier,later,hsplit,hlater⟩ := Call.issues_split (Call.mem_issues.mpr ⟨ht,hnone⟩)
    refine ⟨t,?_,.refl t⟩
    have hout : Outstanding t t.token.text
        (s.log ++ (c.issues s.database).map RegistryEvent.issued) := by
      refine ⟨s.log ++ earlier.map .issued,later.map .issued,by simp [hsplit],rfl,?_⟩
      intro e he
      obtain ⟨u,hu,rfl⟩ := List.mem_map.mp he
      exact fun htext => hlater u hu (Token.ext htext)
    exact hout.append hreleased

theorem log_step (h : s.Lawful) : Throughout AnswersIssue (s.next c).log := by
  have hissued : Throughout AnswersIssue
      (s.log ++ (c.issues s.database).map RegistryEvent.issued) := by
    refine h.log.append_all ?_
    intro before e he
    obtain ⟨u,_,rfl⟩ := List.mem_map.mp he
    trivial
  show Throughout AnswersIssue (_ ++ _)
  cases hr : c.releases s.database with
  | none => simpa using hissued
  | some release =>
    refine hissued.append ?_
    have hc := Call.resolves_of_releases hr
    have hstep := hc.step s.database
    rw [hr] at hstep
    rw [hc.issues_eq_nil,List.map_nil,List.append_nil]
    generalize c.apply s.database = db at hstep
    cases hstep with
    | @operation p released t ht hrel =>
      obtain ⟨row,hout,hsame⟩ := h.outstanding t ht hrel.unconsumed
      have hsurface : t.surface = .deepLink := by
        rcases h.shaped t ht with ⟨_,ha,_⟩ | ⟨hs,_⟩ | ⟨_,ha,_⟩
        · simp [hrel.action,InteractionToken.isCallbackAction] at ha
        · exact hs
        · simp [hrel.action] at ha
      rw [hrel.text] at hout
      refine ⟨row,hout,.operation ?_ ?_ ?_ ?_ ?_ ?_ ?_ ?_ ?_⟩
      · exact hsame.surface.symm.trans hsurface
      · exact hrel.surface.symm.trans hsurface
      · exact hsame.action.symm.trans hrel.action
      · exact hsame.botId.symm.trans hrel.botId
      · exact hsame.telegramUserId.symm.trans hrel.telegramUserId
      · exact hsame.chatId.symm.trans hrel.chatId
      · exact hsame.expiresAt ▸ hrel.live
      · exact hsame.operationId.symm.trans hrel.operationId
      · exact hsame.payload.symm.trans hrel.payload
    | @read p analysisId t ht hrel =>
      obtain ⟨row,hout,hsame⟩ := h.outstanding t ht hrel.unconsumed
      rw [hrel.text] at hout
      refine ⟨row,hout,.read ?_ ?_ ?_ ?_ ?_ ?_ ?_ ?_⟩
      · exact hsame.surface.symm.trans hrel.surface
      · exact hsame.action.symm.trans hrel.action
      · exact hsame.botId.symm.trans hrel.botId
      · exact hsame.telegramUserId.symm.trans hrel.telegramUserId
      · exact hsame.internalUserId.symm.trans hrel.internalUserId
      · exact hsame.chatId.symm.trans hrel.chatId
      · exact hsame.expiresAt ▸ hrel.live
      · exact hsame.analysisId.symm.trans hrel.analysisId

theorem step (h : s.Lawful) : (s.next c).Lawful where
  shaped := by
    intro t ht
    rcases (Call.tokens_change c s.database).origin (Table.select_of_mem ht) with
      ⟨u,hu,hre⟩ | ⟨_,hissued⟩
    · exact hre.shaped (h.shaped u (Table.mem_of_select hu))
    · exact hissued.shaped
  outstanding := h.outstanding_step
  log := h.log_step

end Lawful

end Registry

/-- Between two releases of one token it is issued anew. -/
def OncePerIssue (log : List RegistryEvent) : Prop :=
  ∀ earlier release middle release' later,
    log = earlier ++ RegistryEvent.released release :: middle ++
      RegistryEvent.released release' :: later →
    release.text = release'.text →
    ∃ row : InteractionToken, RegistryEvent.issued row ∈ middle ∧ row.token.text = release.text

theorem oncePerIssue_of_answers {log : List RegistryEvent} (h : Throughout AnswersIssue log) :
    OncePerIssue log := by
  intro earlier release middle release' later hlog htext
  obtain ⟨row,⟨early,late,hbefore,hrow,hlate⟩,_⟩ := h _ _ _ hlog
  rcases List.append_eq_append_iff.mp hbefore with ⟨rest,rfl,hrest⟩ | ⟨rest,rfl,hrest⟩
  · cases rest with
    | nil => simp at hrest
    | cons e rest =>
      obtain ⟨_,rfl⟩ := List.cons_eq_cons.mp hrest
      exact ⟨row,by simp,hrow.trans htext.symm⟩
  · cases rest with
    | nil => simp at hrest
    | cons e rest =>
      obtain ⟨_,rfl⟩ := List.cons_eq_cons.mp hrest
      exact absurd htext (hlate (.released release) (by simp))

/-- A text that no callback token carries is refused by the callback consumption. -/
theorem callback_refuses {db : Database} {p : CallbackPresentation}
    (h : ∀ t ∈ db.interactionTokens, t.token.text = p.token → t.surface ≠ .callback)
    (confirmToken cancelToken : Token) (now : ℤ) :
    consumeRepositorySelection p confirmToken cancelToken now db = (.ok (.error .invalid),db) ∧
      consumeRepositoryDecision p now db = (.ok (.error .invalid),db) := by
  have hl : lockRepositoryCallback p.token db = none := by
    by_contra hsome
    obtain ⟨row,hrow⟩ := Option.ne_none_iff_exists'.mp hsome
    obtain ⟨hm,htext,hsurface,_⟩ := lockRepositoryCallback_eq_some hrow
    exact h row.token hm htext hsurface
  constructor
  · simp only [consumeRepositorySelection,transaction,hl]
  · simp only [consumeRepositoryDecision,transaction,hl]

/-- Deep links and commands are released once for each issue, by their own resolver and to their own
presentation; a presentation that releases nothing changes nothing. -/
theorem authority_released_once {tr : List Call} {s : Registry}
    (h : Run Registry.Steps .initial tr s) :
    OncePerIssue s.log ∧ Throughout AnswersIssue s.log ∧
      (∀ c : Call, c.Resolves → c.releases s.database = none → c.apply s.database = s.database) ∧
      ∀ p : CallbackPresentation,
        (∀ t ∈ s.database.interactionTokens, t.token.text = p.token → t.surface ≠ .callback) →
        ∀ confirmToken cancelToken now,
          consumeRepositorySelection p confirmToken cancelToken now s.database =
            (.ok (.error .invalid),s.database) ∧
          consumeRepositoryDecision p now s.database = (.ok (.error .invalid),s.database) := by
  have hinv : s.Lawful := by
    refine h.invariant Registry.Lawful.initial ?_
    rintro v c w hv ⟨_,rfl⟩
    exact hv.step
  refine ⟨oncePerIssue_of_answers hinv.log,hinv.log,?_,fun p hp => callback_refuses hp⟩
  intro c hc hnone
  have hstep := hc.step s.database
  rw [hnone] at hstep
  generalize c.apply s.database = db at hstep ⊢
  cases hstep with
  | refused => rfl

namespace Registry.DeepLink

def token : Token := .filled 'd'

def intent : NewOperationIntent := ⟨⟨7,42,42,none⟩,3,⟨some "https://example.test/",none⟩,1000⟩

def presentation : TokenPresentation := ⟨token.text,.deepLink,intent.scope,500⟩

/-- The link is presented to the library, as a callback, by its owner, again, and after a pass. -/
def presented : List Call :=
  [.issueOperationIntent token intent 0,
    .resolveLibraryReadIntent ⟨token.text,⟨7,42,9,42⟩,400⟩,
    .consumeInteractionToken {presentation with surface := .callback},
    .resolveOperationIntent presentation,.resolveOperationIntent presentation,
    .cleanupInteractions ∅ ∅ 600 0 10,.resolveOperationIntent presentation]

def final : Registry := presented.foldl next initial

theorem link_released_once : final.log =
      [.issued (intent.row token 0),.released (.operation presentation ⟨3,intent.payload⟩)] ∧
    OncePerIssue final.log := by
  have hrun : Run Steps initial presented final :=
    run_of_foldl (by simp [presented,Call.Promised]) initial
  exact ⟨by decide +kernel,(authority_released_once hrun).1⟩

end Registry.DeepLink

end RatatoskrTelegram
