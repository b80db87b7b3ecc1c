import Mathlib.Algebra.Order.Group.Nat
import Mathlib.Data.Nat.Notation
import RatatoskrTelegram.BlobStore

/-!
# The stream of a downloaded file

The chunks of a response are handed over one by one and read through buffers of other
sizes. Reading nothing into a buffer that has room is how the end of the file is told.
-/

namespace RatatoskrTelegram

/-- A chunk of the body, or the fault that stands in its place. -/
inductive DownloadFault
  | transferFailed
  deriving DecidableEq, Repr

inductive BodyEnding
  | complete | fault
  deriving DecidableEq, Repr

/-- What `Response::chunk` yields, up to the end of the body or the error that cuts it off. -/
structure ResponseBody where
  chunks : List (List UInt8)
  ending : BodyEnding
  deriving DecidableEq, Repr

/-- `stream_response_body`: what is sent before the channel closes. -/
def streamResponseBody (ending : BodyEnding) :
    List (List UInt8) → List (Except DownloadFault (List UInt8))
  | [] =>
    match ending with
    | .complete => []
    | .fault => [.error .transferFailed]
  | chunk :: chunks => .ok chunk :: streamResponseBody ending chunks

theorem streamResponseBody_eq_nil {ending : BodyEnding} {chunks : List (List UInt8)} :
    streamResponseBody ending chunks = [] ↔ chunks = [] ∧ ending = .complete := by
  cases chunks with
  | nil => cases ending <;> simp [streamResponseBody]
  | cons chunk chunks => simp [streamResponseBody]

structure DownloadStream where
  receiver : List (Except DownloadFault (List UInt8))
  active : Option (List UInt8)
  deriving DecidableEq

namespace DownloadStream

/-- Hand out of the active chunk what the buffer has room for. -/
def drain (this : DownloadStream) (remaining : ℕ) : List UInt8 × DownloadStream :=
  match this.active with
  | some active =>
    let take := min active.length remaining
    (active.take take,{ this with active := some (active.drop take) })
  | none => ([],this)

/-- `poll_read`, once it is ready, into a buffer with room for `remaining` bytes. -/
def pollRead (this : DownloadStream) (remaining : ℕ) :
    Except DownloadFault (List UInt8) × DownloadStream :=
  if this.active.all List.isEmpty then
    match this.receiver with
    | .ok chunk :: rest =>
      let read := drain ⟨rest,some chunk⟩ remaining
      (.ok read.1,read.2)
    | .error error :: rest => (.error error,{ this with receiver := rest })
    | [] => (.ok [],this)
  else
    let read := drain this remaining
    (.ok read.1,read.2)

def download (body : ResponseBody) : DownloadStream :=
  ⟨streamResponseBody body.ending body.chunks,none⟩

end DownloadStream

open DownloadStream

inductive ReadEnd
  | eof | failed (error : DownloadFault) | unfinished
  deriving DecidableEq

/-- What a reader has obtained, how it stopped, and the stream it leaves. -/
structure Reading where
  bytes : List UInt8
  stop : ReadEnd
  stream : DownloadStream
  deriving DecidableEq

def Reading.after (bytes : List UInt8) (r : Reading) : Reading := { r with bytes := bytes ++ r.bytes }

/-- Read through buffers of the given sizes, up to the end of the file or an error. -/
def readUntilEof (stream : DownloadStream) : List ℕ → Reading
  | [] => ⟨[],.unfinished,stream⟩
  | size :: sizes =>
    match stream.pollRead size with
    | (.error error,rest) => ⟨[],.failed error,rest⟩
    | (.ok bytes,rest) =>
      if bytes = [] ∧ 0 < size then ⟨[],.eof,rest⟩
      else (readUntilEof rest sizes).after bytes

/-- Stopped at the end of the file, it has every byte and nothing is left to come; stopped at
an error, the body was cut off; and it never has a byte the body has not. -/
structure Reading.Faithful (r : Reading) (bytes : List UInt8) (ending : BodyEnding) : Prop where
  eof : r.stop = .eof → r.bytes = bytes ∧ ending = .complete ∧ r.stream.receiver = []
  failed : ∀ error, r.stop = .failed error → r.bytes = bytes ∧ ending = .fault
  served : r.bytes <+: bytes

/-- As many reads into buffers with room as one byte, one chunk or the end may each take. -/
def ResponseBody.reads (body : ResponseBody) : ℕ :=
  body.chunks.flatten.length + body.chunks.length + 1

structure Delivered (body : ResponseBody) (sizes : List ℕ) : Prop where
  faithful : (readUntilEof (download body) sizes).Faithful body.chunks.flatten body.ending
  ends : body.reads ≤ sizes.countP (0 < ·) →
    (readUntilEof (download body) sizes).stop ≠ .unfinished

def emptyOnlyLast (ending : BodyEnding) : List (List UInt8) → Bool
  | [] => true
  | chunk :: chunks =>
    (!chunk.isEmpty || chunks.isEmpty && ending = .complete) && emptyOnlyLast ending chunks

def streamOf (active : Option (List UInt8)) (ending : BodyEnding) (chunks : List (List UInt8)) :
    DownloadStream :=
  ⟨streamResponseBody ending chunks,active⟩

section Reads

variable {active : Option (List UInt8)} {ending : BodyEnding} {chunks : List (List UInt8)}

theorem pollRead_active {bytes : List UInt8} (size : ℕ) (h : bytes ≠ []) :
    (streamOf (some bytes) ending chunks).pollRead size =
      (.ok (bytes.take size),streamOf (some (bytes.drop size)) ending chunks) := by
  have hall : (some bytes).all List.isEmpty = false := by simpa using h
  have htake : bytes.take (min bytes.length size) = bytes.take size := by
    rw [Nat.min_comm,← List.take_take,List.take_length]
  have hdrop : bytes.drop (min bytes.length size) = bytes.drop size := by
    rcases Nat.le_total bytes.length size with hle | hle <;> simp [hle]
  simp [pollRead,streamOf,hall,drain,htake,hdrop]

theorem pollRead_chunk {chunk : List UInt8} (size : ℕ) (h : active.getD [] = []) :
    (streamOf active ending (chunk :: chunks)).pollRead size =
      (.ok (chunk.take size),streamOf (some (chunk.drop size)) ending chunks) := by
  have hall : active.all List.isEmpty = true := by cases active <;> simp_all
  have htake : chunk.take (min chunk.length size) = chunk.take size := by
    rw [Nat.min_comm,← List.take_take,List.take_length]
  have hdrop : chunk.drop (min chunk.length size) = chunk.drop size := by
    rcases Nat.le_total chunk.length size with hle | hle <;> simp [hle]
  simp [pollRead,streamOf,streamResponseBody,hall,drain,htake,hdrop]

theorem pollRead_complete (size : ℕ) (h : active.getD [] = []) :
    (streamOf active .complete []).pollRead size = (.ok [],streamOf active .complete []) := by
  have hall : active.all List.isEmpty = true := by cases active <;> simp_all
  simp [pollRead,streamOf,streamResponseBody,hall]

theorem pollRead_fault (size : ℕ) (h : active.getD [] = []) :
    (streamOf active .fault []).pollRead size = (.error .transferFailed,⟨[],active⟩) := by
  have hall : active.all List.isEmpty = true := by cases active <;> simp_all
  simp [pollRead,streamOf,streamResponseBody,hall]

theorem readUntilEof_active {bytes : List UInt8} (size : ℕ) (sizes : List ℕ) (h : bytes ≠ []) :
    readUntilEof (streamOf (some bytes) ending chunks) (size :: sizes) =
      (readUntilEof (streamOf (some (bytes.drop size)) ending chunks) sizes).after
        (bytes.take size) := by
  have hgo : ¬ (bytes.take size = [] ∧ 0 < size) := by
    rintro ⟨htake,hsize⟩
    rcases List.take_eq_nil_iff.mp htake with hzero | hbytes
    · omega
    · exact h hbytes
  simp only [readUntilEof,pollRead_active size h,if_neg hgo]

theorem readUntilEof_chunk {chunk : List UInt8} (size : ℕ) (sizes : List ℕ)
    (h : active.getD [] = []) (hgo : chunk ≠ [] ∨ size = 0) :
    readUntilEof (streamOf active ending (chunk :: chunks)) (size :: sizes) =
      (readUntilEof (streamOf (some (chunk.drop size)) ending chunks) sizes).after
        (chunk.take size) := by
  have hgo : ¬ (chunk.take size = [] ∧ 0 < size) := by
    rintro ⟨htake,hsize⟩
    rcases List.take_eq_nil_iff.mp htake with hzero | hbytes
    · omega
    · exact hgo.elim (fun hne => hne hbytes) (fun hzero => by omega)
  simp only [readUntilEof,pollRead_chunk size h,if_neg hgo]

theorem readUntilEof_empty {size : ℕ} (sizes : List ℕ) (h : active.getD [] = [])
    (hsize : 0 < size) :
    readUntilEof (streamOf active ending ([] :: chunks)) (size :: sizes) =
      ⟨[],.eof,streamOf (some []) ending chunks⟩ := by
  simp [readUntilEof,pollRead_chunk size h,hsize]

theorem readUntilEof_complete {size : ℕ} (sizes : List ℕ) (h : active.getD [] = [])
    (hsize : 0 < size) :
    readUntilEof (streamOf active .complete []) (size :: sizes) =
      ⟨[],.eof,streamOf active .complete []⟩ := by
  simp [readUntilEof,pollRead_complete size h,hsize]

theorem readUntilEof_complete_zero (sizes : List ℕ) (h : active.getD [] = []) :
    readUntilEof (streamOf active .complete []) (0 :: sizes) =
      readUntilEof (streamOf active .complete []) sizes := by
  simp [readUntilEof,pollRead_complete 0 h,Reading.after]

theorem readUntilEof_fault (size : ℕ) (sizes : List ℕ) (h : active.getD [] = []) :
    readUntilEof (streamOf active .fault []) (size :: sizes) =
      ⟨[],.failed .transferFailed,⟨[],active⟩⟩ := by
  simp [readUntilEof,pollRead_fault size h]

end Reads

theorem Reading.Faithful.after {r : Reading} {bytes : List UInt8} {ending : BodyEnding}
    (h : r.Faithful bytes ending) (before : List UInt8) :
    (r.after before).Faithful (before ++ bytes) ending where
  eof hstop := by
    have hwhole := h.eof hstop
    simpa [Reading.after] using hwhole
  failed error hstop := by
    have hwhole := h.failed error hstop
    simpa [Reading.after] using hwhole
  served := (List.prefix_append_right_inj before).mpr h.served

/-- Induction on the buffers: each read takes from the active chunk, or fetches the next. -/
@[elab_as_elim]
theorem reads_induction {ending : BodyEnding}
    {motive : List ℕ → Option (List UInt8) → List (List UInt8) → Prop}
    (unread : ∀ active chunks, motive [] active chunks)
    (rest : ∀ size sizes bytes chunks, bytes ≠ [] →
      motive sizes (some (bytes.drop size)) chunks → motive (size :: sizes) (some bytes) chunks)
    (chunk : ∀ size sizes active chunk chunks, active.getD [] = [] → chunk ≠ [] ∨ size = 0 →
      motive sizes (some (chunk.drop size)) chunks →
      motive (size :: sizes) active (chunk :: chunks))
    (empty : ∀ size sizes active chunks, active.getD [] = [] → 0 < size →
      motive (size :: sizes) active ([] :: chunks))
    (fault : ∀ size sizes active, active.getD [] = [] → ending = .fault →
      motive (size :: sizes) active [])
    (roomless : ∀ sizes active, active.getD [] = [] → ending = .complete →
      motive sizes active [] → motive (0 :: sizes) active [])
    (complete : ∀ size sizes active, active.getD [] = [] → ending = .complete → 0 < size →
      motive (size :: sizes) active [])
    (sizes : List ℕ) (active : Option (List UInt8)) (chunks : List (List UInt8)) :
    motive sizes active chunks := by
  induction sizes generalizing active chunks with
  | nil => exact unread active chunks
  | cons size sizes ih =>
    by_cases hactive : active.getD [] = []
    · cases chunks with
      | nil =>
        cases hending : ending with
        | fault => exact fault size sizes active hactive hending
        | complete =>
          rcases Nat.eq_zero_or_pos size with hsize | hsize
          · subst hsize
            exact roomless sizes active hactive hending (ih active [])
          · exact complete size sizes active hactive hending hsize
      | cons next chunks =>
        by_cases hgo : next ≠ [] ∨ size = 0
        · exact chunk size sizes active next chunks hactive hgo (ih _ chunks)
        · obtain ⟨hempty,hsize⟩ := not_or.mp hgo
          rw [not_not.mp hempty]
          exact empty size sizes active chunks hactive (Nat.pos_of_ne_zero hsize)
    · cases active with
      | none => simp at hactive
      | some bytes => exact rest size sizes bytes chunks hactive (ih _ chunks)

theorem readUntilEof_faithful (sizes : List ℕ) (active : Option (List UInt8))
    (ending : BodyEnding) (chunks : List (List UInt8)) (h : emptyOnlyLast ending chunks) :
    (readUntilEof (streamOf active ending chunks) sizes).Faithful
      (active.getD [] ++ chunks.flatten) ending := by
  induction sizes, active, chunks using @reads_induction ending with
  | unread active chunks =>
    exact ⟨by simp [readUntilEof],by simp [readUntilEof],by simp [readUntilEof]⟩
  | rest size sizes bytes chunks hbytes ih =>
    rw [readUntilEof_active size sizes hbytes]
    have hrest := (ih h).after (bytes.take size)
    simpa [← List.append_assoc] using hrest
  | chunk size sizes active chunk chunks hactive hgo ih =>
    have hlater : emptyOnlyLast ending chunks = true := by
      simp only [emptyOnlyLast,Bool.and_eq_true] at h
      exact h.2
    rw [readUntilEof_chunk size sizes hactive hgo]
    have hrest := (ih hlater).after (chunk.take size)
    simpa [hactive,← List.append_assoc] using hrest
  | empty size sizes active chunks hactive hsize =>
    -- An empty chunk that may be served is the last of a whole body.
    have hend : (chunks = [] ∧ ending = .complete) ∧ emptyOnlyLast ending chunks = true := by
      simpa [emptyOnlyLast] using h
    rw [readUntilEof_empty sizes hactive hsize,hend.1.1,hend.1.2,hactive]
    exact ⟨by simp [streamOf,streamResponseBody],by simp,by simp⟩
  | fault size sizes active hactive hending =>
    rw [hending,readUntilEof_fault size sizes hactive,hactive]
    exact ⟨by simp,by simp,by simp⟩
  | roomless sizes active hactive hending ih =>
    rw [hending,readUntilEof_complete_zero sizes hactive]
    simpa [hending] using ih h
  | complete size sizes active hactive hending hsize =>
    rw [hending,readUntilEof_complete sizes hactive hsize,hactive]
    exact ⟨by simp [streamOf,streamResponseBody],by simp,by simp⟩

theorem readUntilEof_ends (sizes : List ℕ) (active : Option (List UInt8)) (ending : BodyEnding)
    (chunks : List (List UInt8))
    (h : (active.getD []).length + chunks.flatten.length + chunks.length + 1 ≤
      sizes.countP (0 < ·)) :
    (readUntilEof (streamOf active ending chunks) sizes).stop ≠ .unfinished := by
  induction sizes, active, chunks using @reads_induction ending with
  | unread active chunks => simp at h
  | rest size sizes bytes chunks hbytes ih =>
    have hlength : 0 < bytes.length := List.length_pos_iff.mpr hbytes
    rw [readUntilEof_active size sizes hbytes]
    refine ih ?_
    simp only [List.countP_cons,Option.getD_some,List.length_drop,decide_eq_true_eq] at h ⊢
    split at h <;> omega
  | chunk size sizes active chunk chunks hactive hgo ih =>
    rw [readUntilEof_chunk size sizes hactive hgo]
    refine ih ?_
    simp only [List.countP_cons,List.flatten_cons,List.length_append,List.length_cons,
      Option.getD_some,List.length_drop,decide_eq_true_eq] at h ⊢
    split at h <;> omega
  | empty size sizes active chunks hactive hsize =>
    simp [readUntilEof_empty sizes hactive hsize]
  | fault size sizes active hactive hending =>
    rw [hending]
    simp [readUntilEof_fault size sizes hactive]
  | roomless sizes active hactive hending ih =>
    rw [hending,readUntilEof_complete_zero sizes hactive,← hending]
    exact ih (by simpa using h)
  | complete size sizes active hactive hending hsize =>
    rw [hending]
    simp [readUntilEof_complete sizes hactive hsize]

/-- Where an empty chunk is not the last, a reader whose buffers have room stops at one, with
something still to come. -/
theorem readUntilEof_early (sizes : List ℕ) (active : Option (List UInt8)) (ending : BodyEnding)
    (chunks : List (List UInt8)) (h : emptyOnlyLast ending chunks = false)
    (hsizes : ∀ size ∈ sizes, 0 < size)
    (hreads : (active.getD []).length + chunks.flatten.length + chunks.length + 1 ≤ sizes.length) :
    (readUntilEof (streamOf active ending chunks) sizes).stop = .eof ∧
      (readUntilEof (streamOf active ending chunks) sizes).stream.receiver ≠ [] := by
  induction sizes, active, chunks using @reads_induction ending with
  | unread active chunks => simp at hreads
  | rest size sizes bytes chunks hbytes ih =>
    have hsize : 0 < size := hsizes size List.mem_cons_self
    have hlength : 0 < bytes.length := List.length_pos_iff.mpr hbytes
    rw [readUntilEof_active size sizes hbytes]
    refine ih h (fun n hn => hsizes n (List.mem_cons_of_mem size hn)) ?_
    simp only [Option.getD_some,List.length_drop,List.length_cons] at hreads ⊢
    omega
  | chunk size sizes active chunk chunks hactive hgo ih =>
    have hsize : 0 < size := hsizes size List.mem_cons_self
    have hchunk : chunk ≠ [] := hgo.resolve_right hsize.ne'
    have hlater : emptyOnlyLast ending chunks = false := by
      simpa [emptyOnlyLast,hchunk] using h
    rw [readUntilEof_chunk size sizes hactive hgo]
    refine ih hlater (fun n hn => hsizes n (List.mem_cons_of_mem size hn)) ?_
    simp only [List.flatten_cons,List.length_append,List.length_cons,Option.getD_some,
      List.length_drop] at hreads ⊢
    omega
  | empty size sizes active chunks hactive hsize =>
    rw [readUntilEof_empty sizes hactive hsize]
    refine ⟨rfl,fun hnil => ?_⟩
    have hend := streamResponseBody_eq_nil.mp hnil
    simp [emptyOnlyLast,hend.1,hend.2] at h
  | fault size sizes active hactive hending => simp [emptyOnlyLast] at h
  | roomless sizes active hactive hending ih => simp [emptyOnlyLast] at h
  | complete size sizes active hactive hending hsize => simp [emptyOnlyLast] at h

theorem delivered_of_emptyOnlyLast {body : ResponseBody}
    (h : emptyOnlyLast body.ending body.chunks) (sizes : List ℕ) : Delivered body sizes where
  faithful := by
    have hwhole := readUntilEof_faithful sizes none body.ending body.chunks h
    simpa [streamOf,download] using hwhole
  ends hreads := readUntilEof_ends sizes none body.ending body.chunks
    (by simpa [ResponseBody.reads] using hreads)

theorem emptyOnlyLast_of_delivered {body : ResponseBody} {sizes : List ℕ}
    (hsizes : ∀ size ∈ sizes, 0 < size) (hreads : body.reads ≤ sizes.length)
    (h : Delivered body sizes) : emptyOnlyLast body.ending body.chunks := by
  by_contra hearly
  have hstop := readUntilEof_early sizes none body.ending body.chunks (by simpa using hearly)
    hsizes (by simpa [ResponseBody.reads] using hreads)
  exact hstop.2 (h.faithful.eof hstop.1).2.2

/-- A download is read whole through buffers of all sizes exactly where no chunk is empty but
the last; where one is, every reader whose buffers have room is told of an end too early. -/
theorem delivered_iff (body : ResponseBody) :
    ((∀ sizes, Delivered body sizes) ↔ emptyOnlyLast body.ending body.chunks = true) ∧
      ∀ sizes : List ℕ, (∀ size ∈ sizes, 0 < size) → body.reads ≤ sizes.length →
        (Delivered body sizes ↔ emptyOnlyLast body.ending body.chunks = true) := by
  have hexact : ∀ sizes : List ℕ, (∀ size ∈ sizes, 0 < size) → body.reads ≤ sizes.length →
      (Delivered body sizes ↔ emptyOnlyLast body.ending body.chunks = true) :=
    fun sizes hsizes hreads =>
      ⟨emptyOnlyLast_of_delivered hsizes hreads,fun h => delivered_of_emptyOnlyLast h sizes⟩
  refine ⟨⟨fun h => ?_,fun h sizes => delivered_of_emptyOnlyLast h sizes⟩,hexact⟩
  have hsizes : ∀ size ∈ List.replicate body.reads 1, 0 < size := by
    intro size hmem
    rw [List.eq_of_mem_replicate hmem]
    exact Nat.one_pos
  exact (hexact _ hsizes (by simp)).mp (h _)

/-- Of `ab`, nothing, and `c`, a reader obtains `ab` and is told that this is all. -/
theorem delivered_stops_at_empty :
    ¬ ∀ (body : ResponseBody) (sizes : List ℕ), Delivered body sizes := by
  intro h
  have hstop := (h ⟨[[97,98],[],[99]],.complete⟩ [8,8]).faithful.eof (by decide)
  exact absurd hstop.1 (by decide)

def chunkBytes : ℕ := 64 * 1024

/-- The loop of `store` that stages what it reads, for as many reads as there is fuel. -/
def copyFrom (budget : Option ℕ) (staged : List UInt8) (stream : DownloadStream) :
    ℕ → Option (Except BlobStoreError (List UInt8))
  | 0 => none
  | fuel + 1 =>
    match stream.pollRead chunkBytes with
    | (.error _,_) => some (.error .io)
    | (.ok bytes,rest) =>
      if bytes = [] then some (.ok staged)
      else if budget.any (· < staged.length + bytes.length) then
        some (.error (.budgetExceeded (budget.getD 0)))
      else copyFrom budget (staged ++ bytes) rest fuel

theorem copyFrom_eq (budget : Option ℕ) (fuel : ℕ) (staged : List UInt8) (stream : DownloadStream)
    (h : ∀ limit ∈ budget, staged.length +
      (readUntilEof stream (List.replicate fuel chunkBytes)).bytes.length ≤ limit) :
    copyFrom budget staged stream fuel =
      match (readUntilEof stream (List.replicate fuel chunkBytes)).stop with
      | .eof => some (.ok (staged ++
          (readUntilEof stream (List.replicate fuel chunkBytes)).bytes))
      | .failed _ => some (.error .io)
      | .unfinished => none := by
  induction fuel generalizing staged stream with
  | zero => rfl
  | succ fuel ih =>
    rw [List.replicate_succ] at h ⊢
    simp only [copyFrom,readUntilEof] at h ⊢
    have hroom : 0 < chunkBytes := by decide
    cases hpoll : stream.pollRead chunkBytes with
    | mk result rest =>
      cases result with
      | error error => rfl
      | ok bytes =>
        by_cases hempty : bytes = []
        · simp [hempty,hroom]
        · simp only [hpoll,hempty,false_and,if_false,Reading.after,List.length_append] at h ⊢
          have hbudget : budget.any (· < staged.length + bytes.length) = false := by
            cases budget with
            | none => rfl
            | some limit =>
              have hlimit := h limit rfl
              simp only [Option.any_some,decide_eq_false_iff_not]
              omega
          rw [hbudget,ih (staged ++ bytes) rest ?_]
          · simp
          · intro limit hlimit
            have hwithin := h limit hlimit
            simp only [List.length_append]
            omega

/-- A body whose chunks are not empty, but the last, is staged whole, or not at all where it
is cut off. -/
theorem copyFrom_download {body : ResponseBody} {budget : Option ℕ} {fuel : ℕ}
    (h : emptyOnlyLast body.ending body.chunks) (hfuel : body.reads ≤ fuel)
    (hbudget : ∀ limit ∈ budget, body.chunks.flatten.length ≤ limit) :
    copyFrom budget [] (download body) fuel =
      match body.ending with
      | .complete => some (.ok body.chunks.flatten)
      | .fault => some (.error .io) := by
  have hread := delivered_of_emptyOnlyLast h (List.replicate fuel chunkBytes)
  have hends := hread.ends (by simpa [chunkBytes,List.countP_replicate] using hfuel)
  rw [copyFrom_eq]
  · cases hstop : (readUntilEof (download body) (List.replicate fuel chunkBytes)).stop with
    | eof =>
      have hwhole := hread.faithful.eof hstop
      simp [hwhole.1,hwhole.2.1]
    | failed error =>
      have hwhole := hread.faithful.failed error hstop
      simp [hwhole.2]
    | unfinished => exact absurd hstop hends
  · intro limit hlimit
    have hserved := hread.faithful.served.length_le
    have hwithin := hbudget limit hlimit
    simp only [List.length_nil]
    omega

end RatatoskrTelegram
