import RatatoskrTelegram.BlobStore

/-!
# What a stored reference is worth

A reference is accepted exactly when the sidecar under its digest is the one its own call
would have written. Only two steps break this: meeting content that is described as something
else, and failing to describe content that has just been linked.
-/

namespace RatatoskrTelegram

open BlobStore

variable {sha256 : List UInt8 → DigestHex}

namespace BlobDisk

/-- Content lies under its digest, and a sidecar lies beside content and states its length. -/
structure Consistent (sha256 : List UInt8 → DigestHex) (disk : BlobDisk) : Prop where
  digest : ∀ hex bytes, disk.content hex = some bytes → sha256 bytes = hex
  beside : ∀ hex, disk.sidecar hex ≠ none → disk.content hex ≠ none
  states : ∀ hex sidecar bytes, disk.sidecar hex = some (some sidecar) →
    disk.content hex = some bytes → sidecar.lengthBytes = bytes.length

theorem verify_congr {d e : BlobDisk} {blob : BlobRef} (hc : d.content blob.hex = e.content blob.hex)
    (hs : d.sidecar blob.hex = e.sidecar blob.hex) : d.verify sha256 blob = e.verify sha256 blob := by
  simp only [verify,hc,hs]

theorem verify_storedRef {disk : BlobDisk} (h : disk.Consistent sha256) (mediaType : String)
    (staged : List UInt8) : disk.verify sha256 (storedRef sha256 mediaType staged) = .ok () ↔
      disk.sidecar (sha256 staged) = some (some (storedMeta mediaType staged)) := by
  constructor
  · intro hv
    cases hs : disk.sidecar (sha256 staged) with
    | none => simp [verify,storedRef,hs] at hv
    | some written =>
      cases written with
      | none => simp [verify,storedRef,hs] at hv
      | some sidecar =>
        by_cases ho : sidecar.ownerService = ownerService
        · by_cases hm : sidecar.mediaType = mediaType
          · by_cases hl : sidecar.lengthBytes = staged.length
            · cases sidecar
              simp_all [storedMeta]
            · simp [verify,storedRef,hs,ho,hm,hl] at hv
          · simp [verify,storedRef,hs,ho,hm] at hv
        · simp [verify,storedRef,hs,ho] at hv
  · intro hs
    cases hc : disk.content (sha256 staged) with
    | none => exact absurd hc (h.beside _ (by simp [hs]))
    | some bytes =>
      have hl : staged.length = bytes.length := h.states _ _ _ hs hc
      have hd : sha256 bytes = sha256 staged := h.digest _ _ hc
      simp [verify,storedRef,hs,hc,hl,hd,storedMeta]

theorem Consistent.link {disk : BlobDisk} (h : disk.Consistent sha256) {bytes : List UInt8}
    (hnone : disk.content (sha256 bytes) = none) :
    (disk.link (sha256 bytes) bytes).Consistent sha256 := by
  have hside : disk.sidecar (sha256 bytes) = none := by
    by_contra hs
    exact h.beside _ hs hnone
  constructor
  · intro hex found hf
    by_cases hx : hex = sha256 bytes
    · subst hx
      obtain rfl : bytes = found := by simpa [BlobDisk.link] using hf
      rfl
    · exact h.digest hex found (by simpa [BlobDisk.link,hx] using hf)
  · intro hex hs
    by_cases hx : hex = sha256 bytes
    · simp [BlobDisk.link,hx]
    · simpa [BlobDisk.link,hx] using h.beside hex hs
  · intro hex sidecar found hs hf
    by_cases hx : hex = sha256 bytes
    · subst hx
      simp [BlobDisk.link,hside] at hs
    · exact h.states hex sidecar found hs (by simpa [BlobDisk.link,hx] using hf)

theorem Consistent.describe {disk : BlobDisk} (h : disk.Consistent sha256) {hex : DigestHex}
    {bytes : List UInt8} (hc : disk.content hex = some bytes) {sidecar : Option StoreMeta}
    (hl : ∀ written, sidecar = some written → written.lengthBytes = bytes.length) :
    (disk.describe hex sidecar).Consistent sha256 := by
  constructor
  · exact h.digest
  · intro other hs
    by_cases hx : other = hex
    · subst hx
      simp [BlobDisk.describe,hc]
    · exact h.beside other (by simpa [BlobDisk.describe,hx] using hs)
  · intro other written found hs hf
    by_cases hx : other = hex
    · subst hx
      obtain rfl : bytes = found := Option.some.inj (hc.symm.trans hf)
      exact hl written (by simpa [BlobDisk.describe] using hs)
    · exact h.states other written found (by simpa [BlobDisk.describe,hx] using hs) hf

theorem Consistent.describeLeft {disk : BlobDisk} (h : disk.Consistent sha256)
    {staged : List UInt8} (hc : disk.content (sha256 staged) = some staged) (mediaType : String)
    (left : SidecarLeft) :
    (disk.describeLeft (sha256 staged) (storedMeta mediaType staged) left).Consistent sha256 := by
  cases left with
  | untouched => exact h
  | torn => exact h.describe hc (by simp)
  | whole => exact h.describe hc (by simp [storedMeta])

@[simp] theorem describeLeft_content (disk : BlobDisk) (hex : DigestHex) (sidecar : StoreMeta)
    (left : SidecarLeft) : (disk.describeLeft hex sidecar left).content = disk.content := by
  cases left <;> rfl

theorem describeLeft_sidecar (disk : BlobDisk) {hex other : DigestHex} (h : other ≠ hex)
    (sidecar : StoreMeta) (left : SidecarLeft) :
    (disk.describeLeft hex sidecar left).sidecar other = disk.sidecar other := by
  cases left <;> simp [BlobDisk.describeLeft,BlobDisk.describe,h]

end BlobDisk

def StoreStage.isLinked : StoreStage → Bool
  | .linked _ _ => true
  | _ => false

def StoreOutcome.publishes (hex : DigestHex) : StoreOutcome → Bool
  | .returned _ => false
  | .failed _ before after => (after hex).isSome && (before hex).isNone

namespace BlobStore

def Waiting (v : BlobStore) (call : StoreCall) : Prop :=
  v.call = none ∧ call.before = v.disk.content ∨ v.call = some call ∧ call.stage.isLinked = false

/-- The steps, by what they leave; all that is asked about sidecars is said where it arises. -/
inductive Moves (sha256 : List UInt8 → DigestHex) (v : BlobStore) (a : StoreAction) :
    BlobStore → Prop
  | works {call : StoreCall} {stage : StoreStage} : Waiting v call → stage.isLinked = false →
      Described sha256 v a → Moves sha256 v a (v.goes v.disk call stage)
  | fails {call : StoreCall} {error : BlobStoreError} : Waiting v call → Described sha256 v a →
      Moves sha256 v a (v.fails v.disk call error)
  | meets {call : StoreCall} {mediaType : String} {staged : List UInt8} :
      v.call = some call → call.stage = .copied mediaType staged →
      v.disk.content (sha256 staged) ≠ none →
      (Described sha256 v a ↔
        v.disk.sidecar (sha256 staged) = some (some (storedMeta mediaType staged))) →
      Moves sha256 v a (v.returns v.disk (storedRef sha256 mediaType staged))
  | links {call : StoreCall} {mediaType : String} {staged : List UInt8} :
      v.call = some call → call.stage = .copied mediaType staged →
      v.disk.content (sha256 staged) = none → Described sha256 v a →
      Moves sha256 v a (v.goes (v.disk.link (sha256 staged) staged) call (.linked mediaType staged))
  | describes {call : StoreCall} {mediaType : String} {staged : List UInt8} :
      v.call = some call → call.stage = .linked mediaType staged → Described sha256 v a →
      Moves sha256 v a (v.returns
        (v.disk.describe (sha256 staged) (some (storedMeta mediaType staged)))
        (storedRef sha256 mediaType staged))
  | describeFails {call : StoreCall} {mediaType : String} {staged : List UInt8}
      {left : SidecarLeft} : v.call = some call → call.stage = .linked mediaType staged →
      ¬ Described sha256 v a →
      Moves sha256 v a (v.fails
        (v.disk.describeLeft (sha256 staged) (storedMeta mediaType staged) left) call .io)
  | crashes {call : StoreCall} : v.call = some call → call.stage.isLinked = false →
      Described sha256 v a → Moves sha256 v a {v with call := none}
  | crashesLinked {call : StoreCall} {mediaType : String} {staged : List UInt8}
      {left : SidecarLeft} : v.call = some call → call.stage = .linked mediaType staged →
      Described sha256 v a →
      Moves sha256 v a {v with
        disk := v.disk.describeLeft (sha256 staged) (storedMeta mediaType staged) left
        call := none}

theorem moves_of_read {v w : BlobStore} {bytes : List UInt8} {written : Bool}
    (h : next sha256 v (.read bytes written) = some w) : Moves sha256 v (.read bytes written) w := by
  rcases hcall : v.call with _ | ⟨stage,before⟩
  · simp [next,hcall] at h
  · cases stage with
    | copied => simp [next,hcall] at h
    | linked => simp [next,hcall] at h
    | copying mediaType budget staged =>
      have hwait : Waiting v ⟨.copying mediaType budget staged,before⟩ := Or.inr ⟨hcall,rfl⟩
      by_cases hb : bytes = []
      · simp [next,hcall,hb] at h
      · cases written with
        | true =>
          cases budget with
          | none =>
            obtain rfl := by simpa [next,hcall,hb] using h
            exact .works hwait rfl trivial
          | some limit =>
            by_cases hl : limit < staged.length + bytes.length
            · obtain rfl := by simpa [next,hcall,hb,hl] using h
              exact .fails hwait trivial
            · obtain rfl := by simpa [next,hcall,hb,hl] using h
              exact .works hwait rfl trivial
        | false =>
          cases budget with
          | none =>
            obtain rfl := by simpa [next,hcall,hb] using h
            exact .fails hwait trivial
          | some limit =>
            by_cases hl : limit < staged.length + bytes.length
            · obtain rfl := by simpa [next,hcall,hb,hl] using h
              exact .fails hwait trivial
            · obtain rfl := by simpa [next,hcall,hb,hl] using h
              exact .fails hwait trivial

theorem moves_of_publish {v w : BlobStore} {directories linked renamed : Bool}
    (h : next sha256 v (.publish directories linked renamed) = some w) :
    Moves sha256 v (.publish directories linked renamed) w := by
  rcases hcall : v.call with _ | ⟨stage,before⟩
  · simp [next,hcall] at h
  · cases stage with
    | copying => simp [next,hcall] at h
    | linked => simp [next,hcall] at h
    | copied mediaType staged =>
      have hwait : Waiting v ⟨.copied mediaType staged,before⟩ := Or.inr ⟨hcall,rfl⟩
      by_cases hc : v.disk.content (sha256 staged) = none
      · have hd : Described sha256 v (.publish directories linked renamed) := by
          simp [Described,hcall,hc]
        by_cases hp : directories = true ∧ (linked = true ∨ renamed = true)
        · obtain rfl := by simpa [next,hcall,hc,hp] using h
          exact .links hcall rfl hc hd
        · obtain rfl := by simpa [next,hcall,hc,hp] using h
          exact .fails hwait hd
      · obtain rfl := by simpa [next,hcall,hc] using h
        exact .meets hcall rfl hc (by simp [Described,hcall,hc])

theorem moves_of_next {v w : BlobStore} {a : StoreAction} (h : next sha256 v a = some w) :
    Moves sha256 v a w := by
  cases a with
  | begin mediaType budget created =>
    cases hcall : v.call with
    | some call => simp [next,hcall] at h
    | none =>
      cases created with
      | true =>
        obtain rfl := by simpa [next,hcall] using h
        exact .works (Or.inl ⟨hcall,rfl⟩) rfl trivial
      | false =>
        obtain rfl := by simpa [next,hcall] using h
        exact .fails (Or.inl ⟨hcall,rfl⟩) trivial
  | read bytes written => exact moves_of_read h
  | readFailed =>
    rcases hcall : v.call with _ | ⟨stage,before⟩
    · simp [next,hcall] at h
    · cases stage with
      | copied => simp [next,hcall] at h
      | linked => simp [next,hcall] at h
      | copying mediaType budget staged =>
        obtain rfl := by simpa [next,hcall] using h
        exact .fails (Or.inr ⟨hcall,rfl⟩) trivial
  | finish flushed =>
    rcases hcall : v.call with _ | ⟨stage,before⟩
    · simp [next,hcall] at h
    · cases stage with
      | copied => simp [next,hcall] at h
      | linked => simp [next,hcall] at h
      | copying mediaType budget staged =>
        cases flushed with
        | true =>
          obtain rfl := by simpa [next,hcall] using h
          exact .works (Or.inr ⟨hcall,rfl⟩) rfl trivial
        | false =>
          obtain rfl := by simpa [next,hcall] using h
          exact .fails (Or.inr ⟨hcall,rfl⟩) trivial
  | publish directories linked renamed => exact moves_of_publish h
  | describe =>
    rcases hcall : v.call with _ | ⟨stage,before⟩
    · simp [next,hcall] at h
    · cases stage with
      | copying => simp [next,hcall] at h
      | copied => simp [next,hcall] at h
      | linked mediaType staged =>
        obtain rfl := by simpa [next,hcall] using h
        exact .describes hcall rfl trivial
  | describeFailed left =>
    rcases hcall : v.call with _ | ⟨stage,before⟩
    · simp [next,hcall] at h
    · cases stage with
      | copying => simp [next,hcall] at h
      | copied => simp [next,hcall] at h
      | linked mediaType staged =>
        obtain rfl := by simpa [next,hcall] using h
        exact .describeFails hcall rfl (by simp [Described])
  | crash left =>
    rcases hcall : v.call with _ | ⟨stage,before⟩
    · simp [next,hcall] at h
    · cases stage with
      | copying mediaType budget staged =>
        obtain rfl := by simpa [next,hcall] using h
        exact .crashes hcall rfl trivial
      | copied mediaType staged =>
        obtain rfl := by simpa [next,hcall] using h
        exact .crashes hcall rfl trivial
      | linked mediaType staged =>
        obtain rfl := by simpa [next,hcall] using h
        exact .crashesLinked hcall rfl trivial

/-- What a store in use is like. The content a linked call has published is its own, was not there
before, and no reference to it has been returned yet. -/
structure Sane (sha256 : List UInt8 → DigestHex) (v : BlobStore) : Prop where
  disk : v.disk.Consistent sha256
  waiting : ∀ call, v.call = some call → call.stage.isLinked = false → call.before = v.disk.content
  linked : ∀ call mediaType staged, v.call = some call → call.stage = .linked mediaType staged →
    v.disk.content (sha256 staged) = some staged ∧ call.before (sha256 staged) = none ∧
      ∀ blob, .returned blob ∈ v.outcomes → blob.hex ≠ sha256 staged
  returned : ∀ blob, .returned blob ∈ v.outcomes → v.disk.content blob.hex ≠ none

theorem sane_initial : Sane sha256 initial := by
  constructor
  · constructor <;> simp [initial]
  · simp [initial]
  · simp [initial]
  · simp [initial]

theorem Waiting.before {v : BlobStore} {call : StoreCall} (h : Waiting v call)
    (hv : Sane sha256 v) : call.before = v.disk.content := by
  cases h with
  | inl h => exact h.2
  | inr h => exact hv.waiting call h.1 h.2

/-- With no call under way, only the disk and the references returned matter. -/
theorem sane_of_idle {w : BlobStore} (hcall : w.call = none) (hdisk : w.disk.Consistent sha256)
    (hreturned : ∀ blob, .returned blob ∈ w.outcomes → w.disk.content blob.hex ≠ none) :
    Sane sha256 w := by
  constructor
  · exact hdisk
  · intro call hc
    simp [hcall] at hc
  · intro call mediaType staged hc
    simp [hcall] at hc
  · exact hreturned

theorem sane_of_moves {v w : BlobStore} {a : StoreAction} (hv : Sane sha256 v)
    (h : Moves sha256 v a w) : Sane sha256 w := by
  cases h with
  | @works call stage hwait hstage _ =>
    constructor
    · exact hv.disk
    · intro other ho _
      obtain rfl : {call with stage := stage} = other := by simpa [goes] using ho
      exact hwait.before hv
    · intro other mediaType staged ho hs
      obtain rfl : {call with stage := stage} = other := by simpa [goes] using ho
      simp_all [StoreStage.isLinked]
    · exact hv.returned
  | fails hwait _ =>
    refine sane_of_idle rfl hv.disk ?_
    intro blob hb
    exact hv.returned blob (by simpa [BlobStore.fails] using hb)
  | @meets call mediaType staged _ _ hmet _ =>
    refine sane_of_idle rfl hv.disk ?_
    intro blob hb
    rcases (by simpa [returns] using hb :
      .returned blob ∈ v.outcomes ∨ blob = storedRef sha256 mediaType staged) with ho | rfl
    · exact hv.returned blob ho
    · exact hmet
  | @links call mediaType staged hcall hstage hnone _ =>
    have hfresh : ∀ blob, .returned blob ∈ v.outcomes → blob.hex ≠ sha256 staged := by
      intro blob hb he
      exact hv.returned blob hb (he ▸ hnone)
    constructor
    · exact hv.disk.link hnone
    · intro other ho hs
      obtain rfl : {call with stage := .linked mediaType staged} = other := by
        simpa [goes] using ho
      simp [StoreStage.isLinked] at hs
    · intro other m bytes ho hs
      obtain rfl : {call with stage := .linked mediaType staged} = other := by
        simpa [goes] using ho
      obtain ⟨rfl,rfl⟩ : mediaType = m ∧ staged = bytes := by simpa using hs
      have hbefore : call.before = v.disk.content :=
        hv.waiting call hcall (by simp [hstage,StoreStage.isLinked])
      exact ⟨by simp [goes,BlobDisk.link],by simpa [hbefore] using hnone,hfresh⟩
    · intro blob hb
      have hne : blob.hex ≠ sha256 staged := hfresh blob hb
      simpa [goes,BlobDisk.link,hne] using hv.returned blob hb
  | @describes call mediaType staged hcall hstage _ =>
    obtain ⟨hc,-,-⟩ := hv.linked call mediaType staged hcall hstage
    refine sane_of_idle rfl (hv.disk.describe hc (by simp [storedMeta])) ?_
    intro blob hb
    rcases (by simpa [returns] using hb :
      .returned blob ∈ v.outcomes ∨ blob = storedRef sha256 mediaType staged) with ho | rfl
    · exact hv.returned blob ho
    · simp [returns,BlobDisk.describe,storedRef,hc]
  | @describeFails call mediaType staged left hcall hstage _ =>
    obtain ⟨hc,-,-⟩ := hv.linked call mediaType staged hcall hstage
    refine sane_of_idle rfl (hv.disk.describeLeft hc mediaType left) ?_
    intro blob hb
    have ho : .returned blob ∈ v.outcomes := by simpa [BlobStore.fails] using hb
    simpa [BlobStore.fails] using hv.returned blob ho
  | crashes => exact sane_of_idle rfl hv.disk hv.returned
  | @crashesLinked call mediaType staged left hcall hstage _ =>
    obtain ⟨hc,-,-⟩ := hv.linked call mediaType staged hcall hstage
    refine sane_of_idle rfl (hv.disk.describeLeft hc mediaType left) ?_
    intro blob hb
    simpa using hv.returned blob hb

theorem sound_append {v : BlobStore} {disk : BlobDisk} {call : Option StoreCall}
    (extra : List StoreOutcome) (h : ∀ blob, .returned blob ∈ v.outcomes →
      disk.verify sha256 blob = v.disk.verify sha256 blob) :
    Sound sha256 ⟨disk,call,v.outcomes ++ extra⟩ ↔
      Sound sha256 v ∧ ∀ outcome ∈ extra, outcome.Holds sha256 disk := by
  have hold : ∀ outcome ∈ v.outcomes,
      (outcome.Holds sha256 disk ↔ outcome.Holds sha256 v.disk) := by
    intro outcome ho
    cases outcome with
    | returned blob => simp [StoreOutcome.Holds,h blob ho]
    | failed error before after => exact Iff.rfl
  simp only [Sound,List.mem_append,or_imp,forall_and]
  exact and_congr_left' (forall₂_congr hold)

theorem sound_of_same {v : BlobStore} {disk : BlobDisk} {call : Option StoreCall}
    (h : ∀ blob, .returned blob ∈ v.outcomes →
      disk.verify sha256 blob = v.disk.verify sha256 blob) :
    Sound sha256 ⟨disk,call,v.outcomes⟩ ↔ Sound sha256 v := by
  have hnothing := @sound_append sha256 v disk call [] h
  simpa using hnothing

theorem sound_of_moves {v w : BlobStore} {a : StoreAction} (hv : Sane sha256 v)
    (h : Moves sha256 v a w) : Sound sha256 w ↔ Sound sha256 v ∧ Described sha256 v a := by
  cases h with
  | works _ _ hd =>
    simp only [hd,and_true]
    exact sound_of_same fun _ _ => rfl
  | @fails call error hwait hd =>
    have hbefore : call.before = v.disk.content := hwait.before hv
    refine (sound_append _ fun _ _ => rfl).trans (and_congr_right' ?_)
    simp [StoreOutcome.Holds,hbefore,hd]
  | @meets call mediaType staged _ _ _ hd =>
    refine (sound_append _ fun _ _ => rfl).trans (and_congr_right' ?_)
    simp [StoreOutcome.Holds,BlobDisk.verify_storedRef hv.disk,hd]
  | @links call mediaType staged _ _ hnone hd =>
    simp only [hd,and_true]
    refine sound_of_same fun blob hb => ?_
    have hne : blob.hex ≠ sha256 staged := fun he => hv.returned blob hb (he ▸ hnone)
    exact BlobDisk.verify_congr (by simp [BlobDisk.link,hne]) rfl
  | @describes call mediaType staged hcall hstage hd =>
    obtain ⟨hc,-,hfresh⟩ := hv.linked call mediaType staged hcall hstage
    have hdisk : (v.disk.describe (sha256 staged)
        (some (storedMeta mediaType staged))).Consistent sha256 :=
      hv.disk.describe hc (by simp [storedMeta])
    have hverify := (BlobDisk.verify_storedRef hdisk mediaType staged).mpr
      (by simp [BlobDisk.describe])
    refine (sound_append _ fun blob hb => ?_).trans (and_congr_right' ?_)
    · exact BlobDisk.verify_congr rfl (by simp [BlobDisk.describe,hfresh blob hb])
    · simp [StoreOutcome.Holds,hverify,hd]
  | @describeFails call mediaType staged left hcall hstage hd =>
    obtain ⟨hc,hbefore,hfresh⟩ := hv.linked call mediaType staged hcall hstage
    refine (sound_append _ fun blob hb => ?_).trans (and_congr_right' ?_)
    · exact BlobDisk.verify_congr (by simp)
        (BlobDisk.describeLeft_sidecar _ (hfresh blob hb) _ left)
    · -- The content is there now and was not when the call began.
      simp only [hd,iff_false]
      intro hholds
      have hpublished := hholds _ List.mem_cons_self (sha256 staged) (by simp [hc])
      exact hpublished hbefore
  | crashes _ _ hd =>
    simp only [hd,and_true]
    exact sound_of_same fun _ _ => rfl
  | @crashesLinked call mediaType staged left hcall hstage hd =>
    obtain ⟨-,-,hfresh⟩ := hv.linked call mediaType staged hcall hstage
    simp only [hd,and_true]
    refine sound_of_same fun blob hb => ?_
    exact BlobDisk.verify_congr (by simp)
      (BlobDisk.describeLeft_sidecar _ (hfresh blob hb) _ left)

theorem run_sane {tr : List StoreAction} {s : BlobStore}
    (h : Run (fun v a w => next sha256 v a = some w) initial tr s) : Sane sha256 s :=
  h.invariant sane_initial fun _ _ _ hv ha => sane_of_moves hv (moves_of_next ha)

/-- Every reference verifies and no failed call has published, just when every step that meets
content finds it described as its own and none fails to describe what it has linked. -/
theorem stored_blobs_verify {tr : List StoreAction} {s : BlobStore}
    (h : Run (fun v a w => next sha256 v a = some w) initial tr s) :
    Sound sha256 s ↔
      Run (fun v a w => next sha256 v a = some w ∧ Described sha256 v a) initial tr s := by
  constructor
  · induction h with
    | refl => exact fun _ => Run.refl
    | snoc hr ha ih =>
      intro hs
      obtain ⟨hv,hd⟩ := (sound_of_moves (run_sane hr) (moves_of_next ha)).mp hs
      exact Run.snoc (ih hv) ⟨ha,hd⟩
  · intro hdescribed
    have hboth := hdescribed.invariant
      (P := fun v => Sane sha256 v ∧ Sound sha256 v) ⟨sane_initial,by simp [Sound,initial]⟩ (by
        rintro v a w ⟨hv,hs⟩ ⟨ha,hd⟩
        have hm := moves_of_next ha
        exact ⟨sane_of_moves hv hm,(sound_of_moves hv hm).mpr ⟨hs,hd⟩⟩)
    exact hboth.2

def references (s : BlobStore) : List BlobRef :=
  s.outcomes.filterMap fun
    | .returned blob => some blob
    | .failed _ _ _ => none

theorem mem_references {s : BlobStore} {blob : BlobRef} :
    blob ∈ s.references ↔ .returned blob ∈ s.outcomes := by
  simp only [references,List.mem_filterMap]
  constructor
  · rintro ⟨outcome,ho,hb⟩
    cases outcome with
    | returned other =>
      obtain rfl : other = blob := by simpa using hb
      exact ho
    | failed => simp at hb
  · exact fun hb => ⟨.returned blob,hb,rfl⟩

/-- SHA-256 on `abc`, and on nothing. -/
def abcSha256 (bytes : List UInt8) : DigestHex :=
  if bytes = [97,98,99] then
    ⟨"ba7816bf8f01cfea".toList ++ "414140de5dae2223".toList ++ "b00361a396177a9c".toList ++
      "b410ff61f20015ad".toList,by decide +kernel⟩
  else
    ⟨"e3b0c44298fc1c14".toList ++ "9afbf4c8996fb924".toList ++ "27ae41e4649b934c".toList ++
      "a495991b7852b855".toList,by decide +kernel⟩

def storeAbc (mediaType : String) : List StoreAction :=
  [.begin mediaType (some 10) true,.read [97,98] true,.read [99] true,.finish true,
    .publish true true true]

instance (v : BlobStore) (a : StoreAction) : Decidable (Described sha256 v a) := by
  unfold Described
  split
  · split <;> infer_instance
  · infer_instance
  · infer_instance

theorem stored_blobs_verify_twice : ∃ tr s,
    Run (fun v a w => next abcSha256 v a = some w ∧ Described abcSha256 v a) initial tr s ∧
      s.references.length = 2 ∧ Sound abcSha256 s := by
  obtain ⟨s,hr,hp⟩ := @exists_run_of_guarded _ _ (next abcSha256) (Described abcSha256) _ initial
    (storeAbc "application/pdf" ++ [.describe] ++ storeAbc "application/pdf")
    (fun s => s.references.length = 2) _ (by decide +kernel)
  exact ⟨_,s,hr,hp,(stored_blobs_verify (hr.mono fun _ _ _ ha => ha.1)).mpr hr⟩

/-- The same bytes under a second media type yield a reference that is refused; a sidecar that
cannot be written leaves the content of a failed call in place. -/
theorem second_media_type_refused :
    (∃ tr s, Run (fun v a w => next abcSha256 v a = some w) initial tr s ∧
      (∃ blob ∈ s.references, blob.mediaType = "text/plain" ∧
        s.disk.verify abcSha256 blob = .error (.mismatch "stored media type disagrees")) ∧
      ¬ Sound abcSha256 s) ∧
    ∃ tr s, Run (fun v a w => next abcSha256 v a = some w) initial tr s ∧
      s.references = [] ∧ s.disk.content (abcSha256 [97,98,99]) = some [97,98,99] ∧
      ¬ Sound abcSha256 s := by
  constructor
  · obtain ⟨s,hr,blob,hb,hm,hv⟩ := @exists_run_of_replay _ _ (next abcSha256) initial
      (storeAbc "application/pdf" ++ [.describe] ++ storeAbc "text/plain")
      (fun s => ∃ blob ∈ s.references, blob.mediaType = "text/plain" ∧
        s.disk.verify abcSha256 blob = .error (.mismatch "stored media type disagrees"))
      _ (by decide +kernel)
    refine ⟨_,s,hr,⟨blob,hb,hm,hv⟩,?_⟩
    intro hs
    have hok : s.disk.verify abcSha256 blob = .ok () := hs _ (mem_references.mp hb)
    simp [hok] at hv
  · obtain ⟨s,hr,hnone,hc,hfailed⟩ := @exists_run_of_replay _ _ (next abcSha256) initial
      (storeAbc "application/pdf" ++ [.describeFailed .untouched])
      (fun s => s.references = [] ∧ s.disk.content (abcSha256 [97,98,99]) = some [97,98,99] ∧
        ∃ outcome ∈ s.outcomes, outcome.publishes (abcSha256 [97,98,99]) = true)
      _ (by decide +kernel)
    refine ⟨_,s,hr,hnone,hc,?_⟩
    intro hs
    obtain ⟨outcome,ho,hp⟩ := hfailed
    cases outcome with
    | returned blob => simp [StoreOutcome.publishes] at hp
    | failed error before after =>
      obtain ⟨hafter,hbefore⟩ := by simpa [StoreOutcome.publishes] using hp
      exact hs _ ho _ (Option.isSome_iff_ne_none.mp hafter) hbefore

end BlobStore

end RatatoskrTelegram
