import RatatoskrTelegram.AccessSteps

/-!
# What an admission rests on

Each statement of a pass answers for the store it meets, and the store changes between two of them.
An admission therefore rests on three facts of different moments: the sender was enabled when the
pass read the identity, the chat was enabled when it read the chat, and the chat is the sender's
from the binding on.
-/

namespace RatatoskrTelegram

namespace AccessStore

def IdentityEnabled (id : ℤ) (store : AccessStore) : Prop :=
  ∃ r, store.identities.select id = some r ∧ r.accessState = .enabled

def ChatEnabled (chatId : ℤ) (store : AccessStore) : Prop :=
  ∃ r, store.chats.select chatId = some r ∧ r.accessState = .enabled

variable {store after : AccessStore} {senderId chatId : ℤ}

theorem Owns.bound {sender chat : ℤ} (h : store.Owns senderId chatId) :
    (store.bound sender chat).Owns senderId chatId := by
  unfold AccessStore.bound Owns
  cases hi : store.privateChatBindings.insert ⟨sender,chat⟩ with
  | none => exact h
  | some bindings => exact Table.select_insert_of_some hi h

theorem Owns.writes {stage : GateStage} (h : store.Owns senderId chatId)
    (hw : stage.Writes store after) : after.Owns senderId chatId := by
  cases hw with
  | reads | inserted => exact h
  | bound => exact h.bound

theorem Owns.apply (h : store.Owns senderId chatId) (w : AccessWrite) :
    (w.apply store).Owns senderId chatId := by
  cases w <;> exact h

theorem Owns.unique {other : ℤ} (h : store.Owns senderId chatId) (k : store.Owns other chatId) :
    senderId = other :=
  congrArg PrivateChatBinding.telegramUserId (Option.some.inj (h.symm.trans k))

end AccessStore

namespace AccessSystem

variable {store : AccessStore} {tr ts : List AccessAction} {s t : AccessSystem} {a : AccessAction}
  {pass : ℕ} {body : UpdateBody} {senderId chatId : ℤ}

@[simp] theorem goes_store (s : AccessSystem) (pass : ℕ) (stage : GateStage) (store : AccessStore) :
    (s.goes pass stage store).store = store := rfl

theorem goes_self (s : AccessSystem) (pass : ℕ) (stage : GateStage) (store : AccessStore) :
    (s.goes pass stage store).passes pass = stage := by
  simp [goes]

theorem goes_other {other : ℕ} (h : other ≠ pass) (s : AccessSystem) (stage : GateStage)
    (store : AccessStore) : (s.goes pass stage store).passes other = s.passes other := by
  simp [goes,h]

theorem Moves.changes (h : Moves s a t) :
    (∃ pass, GateStage.Writes s.store (s.passes pass) t.store) ∨
      ∃ w, a = .writes w ∧ t.store = w.apply s.store := by
  cases h with
  | @began pass body => exact Or.inl ⟨pass,.reads⟩
  | @proceeded pass stage after hn => exact Or.inl ⟨pass,GateStage.next_writes hn⟩
  | @lost pass applied cause stage after hn =>
    cases applied with
    | true => exact Or.inl ⟨pass,GateStage.next_writes hn⟩
    | false => exact Or.inl ⟨pass,.reads⟩
  | @ended pass => exact Or.inl ⟨pass,.reads⟩
  | wrote => exact Or.inr ⟨_,rfl,rfl⟩

theorem owns_step (h : s.store.Owns senderId chatId) (hs : Steps s a t) :
    t.store.Owns senderId chatId := by
  rcases (moves_of_step hs).changes with ⟨stage,hw⟩ | ⟨w,-,hw⟩
  · exact h.writes hw
  · rw [hw]
    exact h.apply w

def Begins (pass : ℕ) (a : AccessAction) : Prop := ∃ body, a = .begins pass body

/-- The update the pass took last. -/
def Took (pass : ℕ) (body : UpdateBody) (tr : List AccessAction) : Prop :=
  ∃ before after, tr = before ++ AccessAction.begins pass body :: after ∧ ∀ a ∈ after, ¬ Begins pass a

theorem Took.now (pass : ℕ) (body : UpdateBody) (tr : List AccessAction) :
    Took pass body (tr ++ [AccessAction.begins pass body]) :=
  ⟨tr,[],rfl,by simp⟩

theorem Took.snoc (h : Took pass body tr) (ha : ¬ Begins pass a) : Took pass body (tr ++ [a]) := by
  obtain ⟨before,after,rfl,hfree⟩ := h
  refine ⟨before,after ++ [a],by simp,?_⟩
  intro b hb
  rcases List.mem_append.mp hb with hb | hb
  · exact hfree b hb
  · obtain rfl := List.mem_singleton.mp hb
    exact ha

/-- The update the pass took last comes from the sender, in that chat. -/
def Speaks (pass : ℕ) (senderId : ℤ) (chat : Option Chat) (tr : List AccessAction) : Prop :=
  ∃ body user, Took pass body tr ∧ body.principals = some (some user,chat) ∧
    user.senderId = some senderId

theorem Speaks.snoc {chat : Option Chat} (h : Speaks pass senderId chat tr) (ha : ¬ Begins pass a) :
    Speaks pass senderId chat (tr ++ [a]) := by
  obtain ⟨body,user,htook,h⟩ := h
  exact ⟨body,user,htook.snoc ha,h⟩

abbrev Seen (store : AccessStore) (pass : ℕ) (P : AccessStore → Prop) (tr : List AccessAction)
    (s : AccessSystem) : Prop :=
  Since Steps (Begins pass) (fun v => P v.store) (start store) tr s

/-- What an admission of the sender in the chat rests on. -/
structure Authorized (store : AccessStore) (tr : List AccessAction) (s : AccessSystem) (pass : ℕ)
    (senderId chatId : ℤ) : Prop where
  speaks : Speaks pass senderId (some ⟨chatId,.privateChat⟩) tr
  identity : Seen store pass (AccessStore.IdentityEnabled senderId) tr s
  chat : Seen store pass (AccessStore.ChatEnabled chatId) tr s
  owns : s.store.Owns senderId chatId

/-- What a pass has found out when it comes to a statement. -/
def Rests (store : AccessStore) (tr : List AccessAction) (s : AccessSystem) (pass : ℕ) :
    GateStage → Prop
  | .finding senderId chat => Speaks pass senderId chat tr
  | .inserting senderId chatId | .reading senderId chatId =>
    Speaks pass senderId (some ⟨chatId,.privateChat⟩) tr ∧
      Seen store pass (AccessStore.IdentityEnabled senderId) tr s
  | .binding senderId chatId =>
    Speaks pass senderId (some ⟨chatId,.privateChat⟩) tr ∧
      Seen store pass (AccessStore.IdentityEnabled senderId) tr s ∧
      Seen store pass (AccessStore.ChatEnabled chatId) tr s
  | .admitted senderId chatId => Authorized store tr s pass senderId chatId
  | _ => True

theorem Rests.snoc {stage : GateStage} (h : Rests store tr s pass stage) (hs : Steps s a t)
    (ha : ¬ Begins pass a) : Rests store (tr ++ [a]) t pass stage := by
  cases stage with
  | finding senderId chat => exact Speaks.snoc h ha
  | inserting senderId chatId | reading senderId chatId => exact ⟨h.1.snoc ha,h.2.snoc hs ha⟩
  | binding senderId chatId => exact ⟨h.1.snoc ha,h.2.1.snoc hs ha,h.2.2.snoc hs ha⟩
  | admitted senderId chatId =>
    exact ⟨h.speaks.snoc ha,h.identity.snoc hs ha,h.chat.snoc hs ha,owns_step h.owns hs⟩
  | _ => trivial

theorem Rests.begin (store : AccessStore) (tr : List AccessAction) (s : AccessSystem) (pass : ℕ)
    (body : UpdateBody) :
    Rests store (tr ++ [AccessAction.begins pass body]) s pass (.begin body) := by
  unfold GateStage.begin
  cases hp : body.principals with
  | none => trivial
  | some principals =>
    obtain ⟨sender,chat⟩ := principals
    dsimp only
    cases hs : sender.bind User.senderId with
    | none => trivial
    | some senderId =>
      obtain ⟨user,rfl,hid⟩ := Option.bind_eq_some_iff.mp hs
      exact ⟨body,user,Took.now pass body tr,hp,hid⟩

theorem Rests.identified {chat : Option Chat} (hrun : Runs store tr s)
    (h : Speaks pass senderId chat tr) (hs : Steps s a t) (ha : ¬ Begins pass a) :
    Rests store (tr ++ [a]) t pass
      (.identified senderId chat (s.store.findIdentity senderId)) := by
  unfold GateStage.identified
  cases hr : s.store.findIdentity senderId with
  | none => trivial
  | some r =>
    cases hstate : r.accessState with
    | disabled =>
      simp only [Option.map_some,hstate]
      trivial
    | enabled =>
      simp only [Option.map_some,hstate]
      cases chat with
      | none => trivial
      | some chat =>
        dsimp only
        split
        · trivial
        · rename_i hkind
          obtain ⟨id,kind⟩ := chat
          obtain rfl : kind = .privateChat := by simpa using hkind
          exact ⟨h.snoc ha,(Since.now hrun ⟨r,hr,hstate⟩).snoc hs ha⟩

theorem Rests.evaluated (hrun : Runs store tr s)
    (h : Rests store tr s pass (.reading senderId chatId)) (hs : Steps s a t)
    (ha : ¬ Begins pass a) :
    Rests store (tr ++ [a]) t pass (.evaluated senderId chatId (s.store.findChat chatId)) := by
  unfold GateStage.evaluated
  cases hr : s.store.findChat chatId with
  | none => trivial
  | some r =>
    dsimp only
    split
    · trivial
    · rename_i hstate
      have henabled : s.store.ChatEnabled chatId := ⟨r,hr,by simpa using hstate⟩
      exact ⟨h.1.snoc ha,h.2.snoc hs ha,(Since.now hrun henabled).snoc hs ha⟩

theorem Rests.next {stage stage' : GateStage} (hrun : Runs store tr s)
    (h : Rests store tr s pass stage) (hs : Steps s a t) (ha : ¬ Begins pass a)
    (hn : stage.next s.store = some (stage',t.store)) :
    Rests store (tr ++ [a]) t pass stage' := by
  unfold GateStage.next at hn
  cases stage with
  | finding senderId chat =>
    obtain ⟨rfl,-⟩ := Prod.mk.inj (Option.some.inj hn)
    exact Rests.identified hrun h hs ha
  | inserting senderId chatId =>
    obtain ⟨rfl,-⟩ := Prod.mk.inj (Option.some.inj hn)
    exact ⟨h.1.snoc ha,h.2.snoc hs ha⟩
  | reading senderId chatId =>
    obtain ⟨rfl,-⟩ := Prod.mk.inj (Option.some.inj hn)
    exact Rests.evaluated hrun h hs ha
  | binding senderId chatId =>
    rcases s.store.bindPrivateChat_cases senderId chatId with ⟨e,hb⟩ | ⟨hb,hfree,-⟩
    · simp only [hb] at hn
      obtain ⟨rfl,-⟩ := Prod.mk.inj (Option.some.inj hn)
      trivial
    · simp only [hb] at hn
      obtain ⟨rfl,ht⟩ := Prod.mk.inj (Option.some.inj hn)
      refine ⟨h.1.snoc ha,h.2.1.snoc hs ha,h.2.2.snoc hs ha,?_⟩
      rw [← ht]
      exact AccessStore.owns_bound hfree
  | _ => simp at hn

theorem rests_step (hrun : Runs store tr s) (h : ∀ pass, Rests store tr s pass (s.passes pass))
    (hs : Steps s a t) (pass : ℕ) : Rests store (tr ++ [a]) t pass (t.passes pass) := by
  cases moves_of_step hs with
  | @began other body hidle =>
    by_cases he : pass = other
    · subst he
      rw [goes_self]
      exact Rests.begin store tr _ pass body
    · rw [goes_other he]
      refine (h pass).snoc hs ?_
      rintro ⟨b,hb⟩
      exact he (AccessAction.begins.inj hb).1.symm
  | @proceeded other stage after hn =>
    by_cases he : pass = other
    · subst he
      rw [goes_self]
      exact (h pass).next hrun hs (by rintro ⟨b,hb⟩; simp at hb) hn
    · rw [goes_other he]
      exact (h pass).snoc hs (by rintro ⟨b,hb⟩; simp at hb)
  | @lost other applied cause stage after hn =>
    by_cases he : pass = other
    · subst he
      rw [goes_self]
      trivial
    · rw [goes_other he]
      exact (h pass).snoc hs (by rintro ⟨b,hb⟩; simp at hb)
  | @ended other =>
    by_cases he : pass = other
    · subst he
      rw [goes_self]
      trivial
    · rw [goes_other he]
      exact (h pass).snoc hs (by rintro ⟨b,hb⟩; simp at hb)
  | wrote => exact (h pass).snoc hs (by rintro ⟨b,hb⟩; simp at hb)

/-- Every pass of every run has found out what its stage says. -/
theorem rests_run (h : Runs store tr s) (pass : ℕ) : Rests store tr s pass (s.passes pass) := by
  induction h generalizing pass with
  | refl => trivial
  | snoc hrun hs ih => exact rests_step hrun ih hs pass

/-- In every run of any number of passes, however their statements fall between each other and
between the writes of the operator, an admission is of the sender of the update the pass took, in
its private chat; the sender and the chat have each been enabled since then; and the chat is the
sender's for the rest of the run, so that nobody else is ever admitted in it. -/
theorem admission_authorized (h : Runs store tr s)
    (hadmitted : s.passes pass = .admitted senderId chatId) :
    Authorized store tr s pass senderId chatId ∧
    ∀ {ts : List AccessAction} {t : AccessSystem}, Run Steps s ts t →
      t.store.Owns senderId chatId ∧
      ∀ (other : ℕ) (otherId : ℤ), t.passes other = .admitted otherId chatId →
        otherId = senderId := by
  have hrests := rests_run h pass
  rw [hadmitted] at hrests
  refine ⟨hrests,?_⟩
  intro ts t hrun
  have howns : t.store.Owns senderId chatId :=
    hrun.invariant hrests.owns fun v a w hv hstep => owns_step hv hstep
  refine ⟨howns,?_⟩
  intro other otherId hother
  have hrests' := rests_run (h.trans hrun) other
  rw [hother] at hrests'
  exact hrests'.owns.unique howns

/-- A barrier in the store: passes that begin behind it never come past it. -/
structure Barrier (Blocks : AccessStore → Prop) (Past : GateStage → Prop) : Prop where
  begin : ∀ body, ¬ Past (.begin body)
  failed : ∀ cause, ¬ Past (.failed cause)
  idle : ¬ Past .idle
  next : ∀ {store stage stage' after}, Blocks store → ¬ Past stage →
    GateStage.next store stage = some (stage',after) → ¬ Past stage'

/-- A pass that begins while the barrier stands has not come past it for as long as it stands. -/
theorem Barrier.run {Blocks : AccessStore → Prop} {Past : GateStage → Prop}
    (hb : Barrier Blocks Past) (h : Run Steps s ts t)
    (hstands : ∀ {before : List AccessAction} {v : AccessSystem}, before <+: ts →
      Run Steps s before v → Blocks v.store)
    (hbegan : ∃ body, .begins pass body ∈ ts) : ¬ Past (t.passes pass) := by
  induction h with
  | refl => simp at hbegan
  | @snoc tr v w a hrun hs ih =>
    have hblocks : Blocks v.store := hstands ⟨[a],rfl⟩ hrun
    have hbefore (h : ∃ body, .begins pass body ∈ tr) : ¬ Past (v.passes pass) :=
      ih (fun hp => hstands (hp.trans ⟨[a],rfl⟩)) h
    have hold (h : ¬ Begins pass a) : ¬ Past (v.passes pass) := by
      obtain ⟨body,hbody⟩ := hbegan
      rcases List.mem_append.mp hbody with hbody | hbody
      · exact hbefore ⟨body,hbody⟩
      · exact absurd ⟨body,(List.mem_singleton.mp hbody).symm⟩ h
    cases moves_of_step hs with
    | @began other body hidle =>
      by_cases he : pass = other
      · subst he
        rw [goes_self]
        exact hb.begin body
      · rw [goes_other he]
        exact hold (by rintro ⟨b,hb⟩; exact he (AccessAction.begins.inj hb).1.symm)
    | @proceeded other stage after hn =>
      by_cases he : pass = other
      · subst he
        rw [goes_self]
        exact hb.next hblocks (hold (by rintro ⟨b,hb⟩; simp at hb)) hn
      · rw [goes_other he]
        exact hold (by rintro ⟨b,hb⟩; simp at hb)
    | @lost other applied cause stage after hn =>
      by_cases he : pass = other
      · subst he
        rw [goes_self]
        exact hb.failed cause
      · rw [goes_other he]
        exact hold (by rintro ⟨b,hb⟩; simp at hb)
    | @ended other =>
      by_cases he : pass = other
      · subst he
        rw [goes_self]
        exact hb.idle
      · rw [goes_other he]
        exact hold (by rintro ⟨b,hb⟩; simp at hb)
    | wrote => exact hold (by rintro ⟨b,hb⟩; simp at hb)

end AccessSystem

namespace AccessStore

def standing (id : ℤ) (store : AccessStore) : Option (IdentityProfile × AccessState) :=
  (store.identities.select id).map fun r => (r.profile,r.accessState)

variable {store after : AccessStore} {id chatId : ℤ}

theorem identityEnabled_iff :
    store.IdentityEnabled id ↔ ∃ profile, store.standing id = some (profile,.enabled) := by
  unfold IdentityEnabled standing
  cases store.identities.select id <;> simp

theorem standing_writes {stage : GateStage} (h : stage.Writes store after) :
    after.standing id = store.standing id := by
  cases h with
  | reads | inserted | bound => rfl

theorem standing_apply {w : AccessWrite} (h : ¬ w.Governs id) :
    (w.apply store).standing id = store.standing id := by
  cases w with
  | bootstrap other profile =>
    have hne : id ≠ other := fun he => h he.symm
    simp only [AccessWrite.apply,insertIdentity,standing,Table.select_insert_getD,
      key_identityRecord,if_neg hne]
  | exchange other internal =>
    simp only [AccessWrite.apply,bindInternalUser,standing,Table.select_update,Option.map_map]
    refine congrArg (fun f => Option.map f _) ?_
    funext r
    simp only [Function.comp_apply]
    split <;> rfl
  | enroll identity =>
    have hne : id ≠ identity.telegramUserId := fun he => h he.symm
    simp only [AccessWrite.apply,standing,Table.select_insert_getD,key_identityRecord,if_neg hne]
  | setIdentity other state =>
    have hne : ¬ other = id := h
    simp only [AccessWrite.apply,standing,Table.select_update]
    cases hr : store.identities.select id with
    | none => rfl
    | some r =>
      have hkey : r.telegramUserId = id := Table.key_of_select hr
      have hother : ¬ r.telegramUserId = other := by
        rw [hkey]
        exact fun he => hne he.symm
      rw [Option.map_some,if_neg hother]
  | setChat => rfl

theorem chat_writes {stage : GateStage} {r : ChatRecord} (h : stage.Writes store after)
    (hr : store.chats.select chatId = some r) : after.chats.select chatId = some r := by
  cases h with
  | reads | bound => exact hr
  | inserted senderId other =>
    rw [select_insertChat]
    split
    · rename_i he
      rw [← he,hr]
      rfl
    · exact hr

theorem chat_apply {w : AccessWrite} {r : ChatRecord} (h : ∀ state, w ≠ .setChat chatId state)
    (hr : store.chats.select chatId = some r) : (w.apply store).chats.select chatId = some r := by
  cases w with
  | setChat other state =>
    have hkey : r.chatId = chatId := Table.key_of_select hr
    have hne : ¬ r.chatId = other := by
      rw [hkey]
      rintro rfl
      exact h state rfl
    simp only [AccessWrite.apply,Table.select_update,hr,Option.map_some,if_neg hne]
  | _ => exact hr

end AccessStore

namespace AccessSystem

variable {store : AccessStore} {tr ts : List AccessAction} {s t : AccessSystem} {a : AccessAction}
  {pass : ℕ} {senderId chatId : ℤ}

theorem standing_step (hs : Steps s a t) (h : ∀ w, a = .writes w → ¬ w.Governs senderId) :
    t.store.standing senderId = s.store.standing senderId := by
  rcases (moves_of_step hs).changes with ⟨stage,hw⟩ | ⟨w,ha,hw⟩
  · exact AccessStore.standing_writes hw
  · rw [hw]
    exact AccessStore.standing_apply (h w ha)

theorem standing_run (h : Run Steps s ts t) (hfree : ∀ w, .writes w ∈ ts → ¬ w.Governs senderId) :
    t.store.standing senderId = s.store.standing senderId := by
  refine h.invariant_of_labels
    (P := fun v => v.store.standing senderId = s.store.standing senderId) rfl ?_
  intro v a w ha hv hstep
  rw [← hv]
  refine standing_step hstep ?_
  rintro write rfl
  exact hfree write ha

theorem chat_run {r : ChatRecord} (h : Run Steps s ts t)
    (hfree : ∀ state, .writes (.setChat chatId state) ∉ ts)
    (hr : s.store.chats.select chatId = some r) : t.store.chats.select chatId = some r := by
  refine h.invariant_of_labels (P := fun v => v.store.chats.select chatId = some r) hr ?_
  intro v a w ha hv hstep
  rcases (moves_of_step hstep).changes with ⟨stage,hw⟩ | ⟨write,rfl,hw⟩
  · exact AccessStore.chat_writes hw hv
  · rw [hw]
    refine AccessStore.chat_apply ?_ hv
    rintro state rfl
    exact hfree state ha

def PastIdentity (senderId : ℤ) : GateStage → Prop
  | .inserting id _ | .reading id _ | .binding id _ | .admitted id _ => id = senderId
  | _ => False

def PastChat (chatId : ℤ) : GateStage → Prop
  | .binding _ id | .admitted _ id => id = chatId
  | _ => False

theorem begin_not_past (senderId chatId : ℤ) (body : UpdateBody) :
    ¬ PastIdentity senderId (.begin body) ∧ ¬ PastChat chatId (.begin body) := by
  unfold GateStage.begin
  cases body.principals with
  | none => exact ⟨id,id⟩
  | some principals =>
    dsimp only
    cases principals.1.bind User.senderId <;> exact ⟨id,id⟩

theorem identity_barrier (senderId : ℤ) :
    Barrier (fun store => ¬ store.IdentityEnabled senderId) (PastIdentity senderId) where
  begin body := (begin_not_past senderId 0 body).1
  failed _ := id
  idle := id
  next := by
    intro store stage stage' after hblocks hpast hn
    unfold GateStage.next at hn
    cases stage with
    | finding sender chat =>
      obtain ⟨rfl,-⟩ := Prod.mk.inj (Option.some.inj hn)
      unfold GateStage.identified
      cases hr : store.findIdentity sender with
      | none => exact id
      | some r =>
        cases hstate : r.accessState with
        | disabled =>
          simp only [Option.map_some,hstate]
          exact id
        | enabled =>
          simp only [Option.map_some,hstate]
          cases chat with
          | none => exact id
          | some chat =>
            dsimp only
            split
            · exact id
            · rintro rfl
              exact hblocks ⟨r,hr,hstate⟩
    | inserting sender chat =>
      obtain ⟨rfl,-⟩ := Prod.mk.inj (Option.some.inj hn)
      exact hpast
    | reading sender chat =>
      obtain ⟨rfl,-⟩ := Prod.mk.inj (Option.some.inj hn)
      unfold GateStage.evaluated
      split
      · exact id
      · split
        · exact id
        · exact hpast
    | binding sender chat =>
      dsimp only at hn
      split at hn
      · obtain ⟨rfl,-⟩ := Prod.mk.inj (Option.some.inj hn)
        exact hpast
      · obtain ⟨rfl,-⟩ := Prod.mk.inj (Option.some.inj hn)
        exact id
    | _ => simp at hn

theorem chat_barrier (chatId : ℤ) :
    Barrier (fun store => store.chats.select chatId = some ⟨chatId,.disabled⟩)
      (PastChat chatId) where
  begin body := (begin_not_past 0 chatId body).2
  failed _ := id
  idle := id
  next := by
    intro store stage stage' after hblocks hpast hn
    unfold GateStage.next at hn
    cases stage with
    | finding sender chat =>
      obtain ⟨rfl,-⟩ := Prod.mk.inj (Option.some.inj hn)
      unfold GateStage.identified
      split
      · exact id
      · exact id
      · split
        · exact id
        · split
          · exact id
          · exact id
    | inserting sender chat =>
      obtain ⟨rfl,-⟩ := Prod.mk.inj (Option.some.inj hn)
      exact id
    | reading sender chat =>
      obtain ⟨rfl,-⟩ := Prod.mk.inj (Option.some.inj hn)
      unfold GateStage.evaluated
      cases hr : store.findChat chat with
      | none => exact id
      | some r =>
        dsimp only
        split
        · exact id
        · rename_i hstate
          rintro rfl
          obtain rfl := Option.some.inj (hr.symm.trans hblocks)
          simp at hstate
    | binding sender chat =>
      dsimp only at hn
      split at hn
      · obtain ⟨rfl,-⟩ := Prod.mk.inj (Option.some.inj hn)
        exact hpast
      · obtain ⟨rfl,-⟩ := Prod.mk.inj (Option.some.inj hn)
        exact id
    | _ => simp at hn

/-- From any state on, a sender who is unknown or disabled there is admitted by no pass that begins
later, until the bootstrap or the operator writes that identity; and nobody is admitted in a chat
that is disabled there, until the operator writes that chat. -/
theorem denial_lasts (h : Run Steps s ts t) (hbegan : ∃ body, .begins pass body ∈ ts) :
    (¬ s.store.IdentityEnabled senderId → (∀ w, .writes w ∈ ts → ¬ w.Governs senderId) →
      ∀ id, t.passes pass ≠ .admitted senderId id) ∧
    (s.store.chats.select chatId = some ⟨chatId,.disabled⟩ →
      (∀ state, .writes (.setChat chatId state) ∉ ts) →
      ∀ id, t.passes pass ≠ .admitted id chatId) := by
  constructor
  · intro hdenied hfree id hadmitted
    have hpast := (identity_barrier senderId).run h ?_ hbegan
    · rw [hadmitted] at hpast
      exact hpast rfl
    · rintro before v ⟨rest,rfl⟩ hv
      rw [AccessStore.identityEnabled_iff,standing_run hv,← AccessStore.identityEnabled_iff]
      · exact hdenied
      · intro w hw
        exact hfree w (List.mem_append_left rest hw)
  · intro hdenied hfree id hadmitted
    have hpast := (chat_barrier chatId).run h ?_ hbegan
    · rw [hadmitted] at hpast
      exact hpast rfl
    · rintro before v ⟨rest,rfl⟩ hv
      refine chat_run hv ?_ hdenied
      intro state hw
      exact hfree state (List.mem_append_left rest hw)

end AccessSystem

namespace AccessStore

variable {store after : AccessStore} {senderId chatId : ℤ}

theorem closed_writes {stage : GateStage} (h : store.Closed) (hw : stage.Writes store after) :
    after.Closed := by
  cases hw with
  | reads => exact h
  | inserted _ chat => exact closed_insertChat h chat
  | bound sender chat hfree hkeys =>
    rcases hkeys with howns | ⟨hidentity,hchat⟩
    · have hmem := Table.mem_of_select howns
      exact closed_bound h hfree (h.owner _ hmem) (h.chat _ hmem)
    · exact closed_bound h hfree hidentity hchat

theorem closed_apply (h : store.Closed) (w : AccessWrite) : (w.apply store).Closed := by
  have hidentities {id : ℤ} (hr : ∃ r, store.identities.select id = some r) :
      ∃ r, (w.apply store).identities.select id = some r := by
    obtain ⟨r,hr⟩ := hr
    cases w with
    | bootstrap other profile =>
      simp only [AccessWrite.apply,insertIdentity,Table.select_insert_getD,hr]
      split <;> exact ⟨_,rfl⟩
    | enroll identity =>
      simp only [AccessWrite.apply,Table.select_insert_getD,hr]
      split <;> exact ⟨_,rfl⟩
    | exchange other internal =>
      simp only [AccessWrite.apply,bindInternalUser,Table.select_update,hr]
      exact ⟨_,rfl⟩
    | setIdentity other state =>
      simp only [AccessWrite.apply,Table.select_update,hr]
      exact ⟨_,rfl⟩
    | setChat => exact ⟨r,hr⟩
  have hchats {id : ℤ} (hr : ∃ r, store.chats.select id = some r) :
      ∃ r, (w.apply store).chats.select id = some r := by
    obtain ⟨r,hr⟩ := hr
    cases w with
    | setChat other state =>
      simp only [AccessWrite.apply,Table.select_update,hr]
      exact ⟨_,rfl⟩
    | _ => exact ⟨r,hr⟩
  have hbindings : (w.apply store).privateChatBindings = store.privateChatBindings := by
    cases w <;> rfl
  have hpreferences : (w.apply store).notificationPreferences = store.notificationPreferences := by
    cases w <;> rfl
  refine ⟨?_,?_,?_,?_⟩
  · rw [hbindings]
    exact fun b hb => hidentities (h.owner b hb)
  · rw [hbindings]
    exact fun b hb => hchats (h.chat b hb)
  · rw [hbindings,hpreferences]
    exact h.bound
  · rw [hbindings,hpreferences]
    exact h.preferred

theorem reads_writes {stage : GateStage} {key : ℤ × ℤ} {p : NotificationPreferences}
    (h : RatatoskrTelegram.notificationPreferences key store.preferences = .ok (some p))
    (hw : stage.Writes store after) :
    RatatoskrTelegram.notificationPreferences key after.preferences = .ok (some p) := by
  cases hw with
  | reads | inserted => exact h
  | bound sender chat =>
    obtain ⟨row,hrow,hsnap⟩ := notificationPreferences_eq.mp h
    exact notificationPreferences_eq.mpr ⟨row,insertDefaults_select sender chat hrow,hsnap⟩

theorem reads_apply {key : ℤ × ℤ} {p : NotificationPreferences}
    (h : RatatoskrTelegram.notificationPreferences key store.preferences = .ok (some p))
    (w : AccessWrite) :
    RatatoskrTelegram.notificationPreferences key (w.apply store).preferences = .ok (some p) := by
  obtain ⟨row,hrow,hsnap⟩ := notificationPreferences_eq.mp h
  refine notificationPreferences_eq.mpr ⟨row,?_,?_⟩
  · cases w <;> exact hrow
  · cases w <;> exact hsnap

end AccessStore

namespace AccessSystem

variable {store : AccessStore} {tr : List AccessAction} {s t : AccessSystem} {a : AccessAction}
  {pass : ℕ} {senderId chatId : ℤ}

def Spoken (senderId chatId : ℤ) (tr : List AccessAction) : Prop :=
  ∃ pass body user, .begins pass body ∈ tr ∧
    body.principals = some (some user,some ⟨chatId,.privateChat⟩) ∧ user.senderId = some senderId

theorem Speaks.spoken (h : Speaks pass senderId (some ⟨chatId,.privateChat⟩) tr) :
    Spoken senderId chatId tr := by
  obtain ⟨body,user,⟨before,after,rfl,-⟩,h⟩ := h
  exact ⟨pass,body,user,by simp,h⟩

theorem Spoken.snoc (h : Spoken senderId chatId tr) (a : AccessAction) :
    Spoken senderId chatId (tr ++ [a]) := by
  obtain ⟨pass,body,user,hmem,h⟩ := h
  exact ⟨pass,body,user,List.mem_append_left _ hmem,h⟩

theorem chat_origin (h : Runs store tr s) {r : ChatRecord}
    (hr : s.store.chats.select chatId = some r) :
    (∃ r, store.chats.select chatId = some r) ∨ ∃ senderId, Spoken senderId chatId tr := by
  induction h generalizing r with
  | refl => exact Or.inl ⟨r,hr⟩
  | @snoc tr s t a hrun hs ih =>
    have hold {r : ChatRecord} (hr : s.store.chats.select chatId = some r) :
        (∃ r, store.chats.select chatId = some r) ∨ ∃ senderId, Spoken senderId chatId (tr ++ [a]) :=
      (ih hr).imp_right fun ⟨senderId,h⟩ => ⟨senderId,h.snoc a⟩
    rcases (moves_of_step hs).changes with ⟨pass,hw⟩ | ⟨w,-,hw⟩
    · have hrests := rests_run hrun pass
      revert hr
      generalize t.store = after at hw
      intro hr
      generalize hstage : s.passes pass = stage at hw
      cases hw with
      | reads | bound => exact hold hr
      | inserted senderId chat =>
        rw [AccessStore.select_insertChat] at hr
        split at hr
        · rename_i he
          rw [hstage] at hrests
          subst he
          exact Or.inr ⟨senderId,hrests.1.spoken.snoc a⟩
        · exact hold hr
    · rw [hw] at hr
      cases w with
      | setChat other state =>
        simp only [AccessWrite.apply,Table.select_update] at hr
        obtain ⟨r,hr,-⟩ := Option.map_eq_some_iff.mp hr
        exact hold hr
      | _ => exact hold hr

theorem owner_origin (h : Runs store tr s) (howns : s.store.Owns senderId chatId) :
    store.Owns senderId chatId ∨ Spoken senderId chatId tr := by
  induction h with
  | refl => exact Or.inl howns
  | @snoc tr s t a hrun hs ih =>
    have hold (howns : s.store.Owns senderId chatId) :
        store.Owns senderId chatId ∨ Spoken senderId chatId (tr ++ [a]) :=
      (ih howns).imp_right fun h => h.snoc a
    rcases (moves_of_step hs).changes with ⟨pass,hw⟩ | ⟨w,-,hw⟩
    · have hrests := rests_run hrun pass
      revert howns
      generalize t.store = after at hw
      intro howns
      generalize hstage : s.passes pass = stage at hw
      cases hw with
      | reads | inserted => exact hold howns
      | bound sender chat =>
        unfold AccessStore.bound AccessStore.Owns at howns
        cases hi : s.store.privateChatBindings.insert ⟨sender,chat⟩ with
        | none =>
          rw [hi] at howns
          exact hold howns
        | some bindings =>
          rw [hi,Option.getD_some,Table.select_insert hi] at howns
          split at howns
          · rw [hstage] at hrests
            obtain ⟨rfl,rfl⟩ := PrivateChatBinding.mk.inj (Option.some.inj howns)
            exact Or.inr (hrests.1.spoken.snoc a)
          · exact hold howns
    · rw [hw] at howns
      refine hold ?_
      cases w <;> exact howns

/-- Over any run from a store with its foreign keys, whatever fails or is lost between two
statements, the gate keeps the foreign keys, enrolls nobody and disables nobody, and changes no
preference that is read; a chat gets its row only from an update sent there, and its owner only
from an update that owner sent there. -/
theorem gate_frame (h : Runs store tr s) (hclosed : store.Closed) :
    s.store.Closed ∧
    (∀ id, (∀ w, .writes w ∈ tr → ¬ w.Governs id) →
      s.store.standing id = store.standing id) ∧
    (∀ key p, notificationPreferences key store.preferences = .ok (some p) →
      notificationPreferences key s.store.preferences = .ok (some p)) ∧
    (∀ chatId r, s.store.chats.select chatId = some r →
      (∃ r, store.chats.select chatId = some r) ∨ ∃ senderId, Spoken senderId chatId tr) ∧
    (∀ senderId chatId, s.store.Owns senderId chatId →
      store.Owns senderId chatId ∨ Spoken senderId chatId tr) := by
  refine ⟨?_,fun id => standing_run h,?_,fun chatId r => chat_origin h,
    fun senderId chatId => owner_origin h⟩
  · refine h.invariant (P := fun v => v.store.Closed) hclosed ?_
    intro v a w hv hstep
    rcases (moves_of_step hstep).changes with ⟨pass,hw⟩ | ⟨write,-,hw⟩
    · exact AccessStore.closed_writes hv hw
    · rw [hw]
      exact AccessStore.closed_apply hv write
  · intro key p hp
    refine h.invariant
      (P := fun v => notificationPreferences key v.store.preferences = .ok (some p)) hp ?_
    intro v a w hv hstep
    rcases (moves_of_step hstep).changes with ⟨pass,hw⟩ | ⟨write,-,hw⟩
    · exact AccessStore.reads_writes hv hw
    · rw [hw]
      exact AccessStore.reads_apply hv write

end AccessSystem

namespace FirstContact

open AccessSystem

def statements : List AccessAction :=
  [.begins 0 body,.proceeds 0,.proceeds 0,.proceeds 0,.proceeds 0]

theorem statements_run :
    ∃ t, Runs store statements t ∧ t.passes 0 = .admitted 42 42 :=
  exists_run_of_replay (by decide)

theorem owner_authorized : ∃ t, Runs store statements t ∧ Authorized store statements t 0 42 42 := by
  obtain ⟨t,hrun,hadmitted⟩ := statements_run
  exact ⟨t,hrun,(admission_authorized hrun hadmitted).1⟩

theorem owner_framed : ∃ t, Runs store statements t ∧ t.store.Closed ∧
    t.store.standing 42 = store.standing 42 := by
  obtain ⟨t,hrun,-⟩ := statements_run
  have hframe := gate_frame hrun closed
  exact ⟨t,hrun,hframe.1,hframe.2.1 42 (by intro w hw; simp [statements] at hw)⟩

def withdrawn : AccessSystem := start (AccessWrite.apply store (.setIdentity 42 .disabled))

theorem withdrawn_denied : ∃ t, Run Steps withdrawn [.begins 0 body,.proceeds 0] t ∧
    t.passes 0 = .refused .disabledIdentity ∧ ∀ id, t.passes 0 ≠ .admitted 42 id := by
  obtain ⟨t,hrun,hrefused⟩ : ∃ t, Run Steps withdrawn [.begins 0 body,.proceeds 0] t ∧
      t.passes 0 = .refused .disabledIdentity :=
    exists_run_of_replay (by decide)
  have hdenied : ¬ withdrawn.store.IdentityEnabled 42 := by
    rintro ⟨r,hr,hstate⟩
    obtain rfl : r = ⟨42,none,⟨none,none,none⟩,.disabled⟩ := (Option.some.inj hr).symm
    simp at hstate
  obtain ⟨hidentity,-⟩ : (_ → _ → ∀ id, t.passes 0 ≠ .admitted 42 id) ∧
      (_ → _ → ∀ id, t.passes 0 ≠ .admitted id 42) :=
    denial_lasts hrun ⟨body,List.mem_cons_self⟩
  refine ⟨t,hrun,hrefused,hidentity hdenied ?_⟩
  intro w hw
  simp at hw

end FirstContact

end RatatoskrTelegram
