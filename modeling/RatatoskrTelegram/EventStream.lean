import RatatoskrTelegram.LossyText
import RatatoskrTelegram.ProgressStream

/-!
# The event stream

The chunks of a response are decoded as they come and kept as text, from which the
events are cut one after another. What a stream yields is what its text says.
-/

namespace RatatoskrTelegram

open LossyText

/-- What follows a blank-line terminator that begins here. -/
def terminator : List Char → Option (List Char)
  | c :: d :: rest =>
    if c = '\n' ∧ d = '\n' then some rest
    else if c = '\n' ∧ d = '\r' ∧ rest.head? = some '\n' then some rest.tail
    else none
  | _ => none

/-- `complete_event`: the text before the first terminator, and the text after it. -/
def completeEvent : List Char → Option (List Char × List Char)
  | [] => none
  | c :: text =>
    match terminator (c :: text) with
    | some rest => some ([],rest)
    | none => (completeEvent text).map fun split => (c :: split.1,split.2)

theorem terminator_append {text rest : List Char} (more : List Char)
    (h : terminator text = some rest) :
    terminator (text ++ more) = some (rest ++ more) ∧ rest.length + 2 ≤ text.length := by
  match text with
  | [] => simp [terminator] at h
  | [c] => simp [terminator] at h
  | c :: d :: tail =>
    simp only [terminator,List.cons_append] at h ⊢
    split at h
    · rename_i hlf
      obtain rfl := Option.some.inj h
      simp [hlf]
    · split at h
      · rename_i hlf hcrlf
        obtain rfl := Option.some.inj h
        obtain ⟨hc,hd,hhead⟩ := hcrlf
        cases tail with
        | nil => simp at hhead
        | cons e tail =>
          obtain rfl : e = '\n' := by simpa using hhead
          simp [hc,hd]
      · simp at h

/-- Three characters decide whether a terminator begins. -/
theorem terminator_append_none {text : List Char} (more : List Char) (h : terminator text = none)
    (hlength : 3 ≤ text.length) : terminator (text ++ more) = none := by
  match text with
  | [] => simp at hlength
  | [_] => simp at hlength
  | [_,_] => simp at hlength
  | c :: d :: e :: tail =>
    simp only [terminator,List.cons_append,List.head?_cons] at h ⊢
    by_cases hlf : c = '\n' ∧ d = '\n'
    · simp [hlf] at h
    · by_cases hcrlf : c = '\n' ∧ d = '\r' ∧ some e = some '\n'
      · simp [hcrlf] at h
      · rw [if_neg hlf]
        exact if_neg hcrlf

theorem completeEvent_append {text event rest : List Char} (more : List Char)
    (h : completeEvent text = some (event,rest)) :
    completeEvent (text ++ more) = some (event,rest ++ more) ∧ rest.length + 2 ≤ text.length := by
  induction text generalizing event with
  | nil => simp [completeEvent] at h
  | cons c text ih =>
    cases ht : terminator (c :: text) with
    | some after =>
      obtain ⟨htmore,hle⟩ := terminator_append more ht
      simp only [completeEvent,ht] at h
      obtain ⟨rfl,rfl⟩ := Prod.mk.inj (Option.some.inj h)
      rw [List.cons_append] at htmore
      exact ⟨by simp [completeEvent,htmore],hle⟩
    | none =>
      simp only [completeEvent,ht] at h
      obtain ⟨⟨later,rest'⟩,hlater,hsplit⟩ := Option.map_eq_some_iff.mp h
      obtain ⟨rfl,rfl⟩ := Prod.mk.inj hsplit
      obtain ⟨hmore,hle⟩ := ih hlater
      have htmore : terminator (c :: (text ++ more)) = none :=
        terminator_append_none more ht (by simp; omega)
      refine ⟨by simp [completeEvent,htmore,hmore],?_⟩
      simp only [List.length_cons] at hle ⊢
      omega

theorem terminator_concat {text rest : List Char} {c : Char} (hc : c ≠ '\n')
    (h : terminator (text ++ [c]) = some rest) :
    ∃ rest', terminator text = some rest' ∧ rest = rest' ++ [c] := by
  match text with
  | [] => simp [terminator] at h
  | [_] => simp [terminator,hc] at h
  | d :: e :: tail =>
    simp only [terminator,List.cons_append] at h ⊢
    by_cases hlf : d = '\n' ∧ e = '\n'
    · rw [if_pos hlf] at h ⊢
      exact ⟨tail,rfl,(Option.some.inj h).symm⟩
    · rw [if_neg hlf] at h ⊢
      cases tail with
      | nil => simp [hc] at h
      | cons f tail =>
        by_cases hcrlf : d = '\n' ∧ e = '\r' ∧ some f = some '\n'
        · exact ⟨tail,if_pos hcrlf,(Option.some.inj ((if_pos hcrlf).symm.trans h)).symm⟩
        · cases (if_neg hcrlf).symm.trans h

theorem completeEvent_concat {text event rest : List Char} {c : Char} (hc : c ≠ '\n')
    (h : completeEvent (text ++ [c]) = some (event,rest)) :
    ∃ rest', completeEvent text = some (event,rest') ∧ rest = rest' ++ [c] := by
  induction text generalizing event with
  | nil => simp [completeEvent,terminator] at h
  | cons d text ih =>
    cases ht : terminator (d :: text) with
    | some after =>
      have hmore := (terminator_append [c] ht).1
      rw [List.cons_append] at h hmore
      simp only [completeEvent,hmore,ht] at h ⊢
      obtain ⟨rfl,rfl⟩ := Prod.mk.inj (Option.some.inj h)
      exact ⟨after,rfl,rfl⟩
    | none =>
      have hmore : terminator (d :: (text ++ [c])) = none := by
        cases hsome : terminator (d :: (text ++ [c])) with
        | none => rfl
        | some after =>
          have hprior : ∃ rest', terminator (d :: text) = some rest' ∧ after = rest' ++ [c] :=
            terminator_concat hc hsome
          obtain ⟨_,hafter,_⟩ := hprior
          rw [ht] at hafter
          cases hafter
      rw [List.cons_append] at h
      simp only [completeEvent,hmore,ht] at h ⊢
      obtain ⟨⟨later,rest'⟩,hlater,hsplit⟩ := Option.map_eq_some_iff.mp h
      obtain ⟨rfl,rfl⟩ := Prod.mk.inj hsplit
      obtain ⟨rest,hrest,rfl⟩ := ih hlater
      exact ⟨rest,by rw [hrest]; rfl,rfl⟩

/-- What is read of a text, event by event: its frames up to the first terminal one, or up to the
first event that is no event. -/
inductive Reads (codec : StreamCodec) :
    List Char → List ProgressFrame → Option PlatformError → Prop
  | ended {text : List Char} : completeEvent text = none → Reads codec text [] none
  | malformed {text event rest : List Char} {e : PlatformError} :
      completeEvent text = some (event,rest) → codec.parseSseEvent event = .error e →
      Reads codec text [] (some e)
  | skipped {text event rest : List Char} {frames : List ProgressFrame}
      {last : Option PlatformError} : completeEvent text = some (event,rest) →
      codec.parseSseEvent event = .ok none → Reads codec rest frames last →
      Reads codec text frames last
  | terminal {text event rest : List Char} {frame : ProgressFrame} :
      completeEvent text = some (event,rest) → codec.parseSseEvent event = .ok (some frame) →
      frame.status.isTerminal = true → Reads codec text [frame] none
  | frame {text event rest : List Char} {frame : ProgressFrame} {frames : List ProgressFrame}
      {last : Option PlatformError} : completeEvent text = some (event,rest) →
      codec.parseSseEvent event = .ok (some frame) → frame.status.isTerminal = false →
      Reads codec rest frames last → Reads codec text (frame :: frames) last

theorem exists_reads (codec : StreamCodec) (text : List Char) :
    ∃ frames last, Reads codec text frames last := by
  induction hn : text.length using Nat.strong_induction_on generalizing text with
  | _ n ih =>
    cases hc : completeEvent text with
    | none => exact ⟨[],none,.ended hc⟩
    | some split =>
      obtain ⟨event,rest⟩ := split
      have hle := (completeEvent_append [] hc).2
      obtain ⟨frames,last,hrest⟩ := ih rest.length (by omega) rest rfl
      cases hp : codec.parseSseEvent event with
      | error e => exact ⟨[],some e,.malformed hc hp⟩
      | ok parsed =>
        cases parsed with
        | none => exact ⟨frames,last,.skipped hc hp hrest⟩
        | some frame =>
          cases ht : frame.status.isTerminal with
          | true => exact ⟨[frame],none,.terminal hc hp ht⟩
          | false => exact ⟨frame :: frames,last,.frame hc hp ht hrest⟩

theorem Reads.first {codec : StreamCodec} {text event rest : List Char}
    {frames : List ProgressFrame} {last : Option PlatformError} (h : Reads codec text frames last)
    (hc : completeEvent text = some (event,rest)) :
    (∃ e, codec.parseSseEvent event = .error e ∧ frames = [] ∧ last = some e) ∨
    (codec.parseSseEvent event = .ok none ∧ Reads codec rest frames last) ∨
    ∃ frame, codec.parseSseEvent event = .ok (some frame) ∧
      ((frame.status.isTerminal = true ∧ frames = [frame] ∧ last = none) ∨
        frame.status.isTerminal = false ∧ ∃ later, frames = frame :: later ∧
          Reads codec rest later last) := by
  cases h with
  | ended hnone => simp [hc] at hnone
  | malformed hc' hp =>
    obtain ⟨rfl,rfl⟩ := Prod.mk.inj (Option.some.inj (hc.symm.trans hc'))
    exact Or.inl ⟨_,hp,rfl,rfl⟩
  | skipped hc' hp hrest =>
    obtain ⟨rfl,rfl⟩ := Prod.mk.inj (Option.some.inj (hc.symm.trans hc'))
    exact Or.inr (Or.inl ⟨hp,hrest⟩)
  | terminal hc' hp ht =>
    obtain ⟨rfl,rfl⟩ := Prod.mk.inj (Option.some.inj (hc.symm.trans hc'))
    exact Or.inr (Or.inr ⟨_,hp,Or.inl ⟨ht,rfl,rfl⟩⟩)
  | frame hc' hp ht hrest =>
    obtain ⟨rfl,rfl⟩ := Prod.mk.inj (Option.some.inj (hc.symm.trans hc'))
    exact Or.inr (Or.inr ⟨_,hp,Or.inr ⟨ht,_,rfl,hrest⟩⟩)

theorem Reads.nothing {codec : StreamCodec} {text : List Char} {frames : List ProgressFrame}
    {last : Option PlatformError} (h : Reads codec text frames last)
    (hc : completeEvent text = none) : frames = [] ∧ last = none := by
  cases h <;> simp_all

/-- Nothing is read past a terminal frame. -/
theorem Reads.terminal_last {codec : StreamCodec} {text : List Char}
    {frames : List ProgressFrame} {last : Option PlatformError} (h : Reads codec text frames last) :
    ∀ earlier frame later, frames = earlier ++ frame :: later → frame.status.isTerminal = true →
      later = [] ∧ last = none := by
  induction h with
  | ended _ => simp
  | malformed _ _ => simp
  | skipped _ _ _ ih => exact ih
  | terminal _ _ _ =>
    intro earlier frame later hsplit _
    cases earlier with
    | nil => exact ⟨(List.cons.inj hsplit).2.symm,rfl⟩
    | cons f earlier => simp at hsplit
  | frame _ _ hfalse _ ih =>
    intro earlier frame later hsplit hterminal
    cases earlier with
    | nil =>
      obtain ⟨rfl,_⟩ := List.cons.inj hsplit
      simp [hfalse] at hterminal
    | cons f earlier => exact ih earlier frame later (List.cons.inj hsplit).2 hterminal

/-- Within so many events the text holds a terminal frame or an event that is no event. -/
def stopsWithin (codec : StreamCodec) : ℕ → List Char → Bool
  | 0, _ => false
  | fuel + 1, text =>
    match completeEvent text with
    | none => false
    | some (event,rest) =>
      match codec.parseSseEvent event with
      | .error _ => true
      | .ok (some frame) => frame.status.isTerminal || stopsWithin codec fuel rest
      | .ok none => stopsWithin codec fuel rest

def stops (codec : StreamCodec) (text : List Char) : Bool := stopsWithin codec text.length text

theorem Reads.append_of_stops {codec : StreamCodec} {fuel : ℕ} {text : List Char}
    {frames : List ProgressFrame} {last : Option PlatformError} (more : List Char)
    (h : Reads codec text frames last) (hstops : stopsWithin codec fuel text = true) :
    Reads codec (text ++ more) frames last := by
  induction fuel generalizing text frames with
  | zero => simp [stopsWithin] at hstops
  | succ fuel ih =>
    cases hc : completeEvent text with
    | none => simp [stopsWithin,hc] at hstops
    | some split =>
      obtain ⟨event,rest⟩ := split
      have hmore := (completeEvent_append more hc).1
      rcases h.first hc with ⟨e,hp,rfl,rfl⟩ | ⟨hp,hrest⟩ |
        ⟨frame,hp,⟨hterminal,rfl,rfl⟩ | ⟨hfalse,later,rfl,hrest⟩⟩
      · exact .malformed hmore hp
      · simp only [stopsWithin,hc,hp] at hstops
        exact .skipped hmore hp (ih hrest hstops)
      · exact .terminal hmore hp hterminal
      · simp only [stopsWithin,hc,hp,hfalse,Bool.false_or] at hstops
        exact .frame hmore hp hfalse (ih hrest hstops)

theorem stopsWithin_of_concat {codec : StreamCodec} {fuel : ℕ} {text : List Char} {c : Char}
    (hc : c ≠ '\n') (h : stopsWithin codec fuel (text ++ [c]) = true) :
    stopsWithin codec fuel text = true := by
  induction fuel generalizing text with
  | zero => simp [stopsWithin] at h
  | succ fuel ih =>
    cases hce : completeEvent (text ++ [c]) with
    | none => simp [stopsWithin,hce] at h
    | some split =>
      obtain ⟨event,rest⟩ := split
      obtain ⟨rest,hrest,rfl⟩ := completeEvent_concat hc hce
      simp only [stopsWithin,hce,hrest] at h ⊢
      cases hp : codec.parseSseEvent event with
      | error e => rfl
      | ok parsed =>
        rw [hp] at h
        cases parsed with
        | none => exact ih h
        | some frame =>
          cases ht : frame.status.isTerminal with
          | true => simp [ht]
          | false =>
            simp only [ht,Bool.false_or] at h ⊢
            exact ih h

/-- A byte string whose text stops the stream reads alike however it goes on. -/
theorem reads_of_stops {codec : StreamCodec} {fuel : ℕ} {bytes : List UInt8}
    (h : stopsWithin codec fuel (fromUtf8Lossy bytes) = true) :
    ∃ frames last, (∀ more, Reads codec (fromUtf8Lossy bytes ++ more) frames last) ∧
      ∀ more, Reads codec (fromUtf8Lossy (bytes ++ more)) frames last := by
  have hdecided : stopsWithin codec fuel (scan .between bytes).1 = true := by
    unfold fromUtf8Lossy at h
    cases hq : (scan .between bytes).2 with
    | between => simpa [hq,Position.close] using h
    | inside owed low high value =>
      rw [hq] at h
      exact stopsWithin_of_concat (by decide) h
  obtain ⟨frames,last,hreads⟩ := exists_reads codec (scan .between bytes).1
  refine ⟨frames,last,fun more => ?_,fun more => ?_⟩
  · rw [fromUtf8Lossy,List.append_assoc]
    exact hreads.append_of_stops _ hdecided
  · rw [fromUtf8Lossy,scan_append,List.append_assoc]
    exact hreads.append_of_stops _ hdecided

abbrev Chunk := Except PlatformError (List UInt8)

/-- `response` are the chunks still to come; it is gone once the response has ended. -/
structure EventStream where
  response : Option (List Chunk)
  buffer : List Char
  terminalSeen : Bool

namespace EventStream

def new (chunks : List Chunk) : EventStream := ⟨some chunks,[],false⟩

/-- `next_progress_frame`, over at most so many events. -/
def cutFrame (codec : StreamCodec) : ℕ → List Char →
    Except PlatformError (Option ProgressFrame) × List Char
  | 0, buffer => (.ok none,buffer)
  | fuel + 1, buffer =>
    match completeEvent buffer with
    | none => (.ok none,buffer)
    | some (event,rest) =>
      match codec.parseSseEvent event with
      | .error e => (.error e,rest)
      | .ok (some frame) => (.ok (some frame),rest)
      | .ok none => cutFrame codec fuel rest

/-- An event has two characters at least, so that the text bounds the events. -/
def nextProgressFrame (codec : StreamCodec) (buffer : List Char) :
    Except PlatformError (Option ProgressFrame) × List Char :=
  cutFrame codec buffer.length buffer

/-- What cutting a frame from the buffer makes of the frames and the error still to be read, when
`more` is to come. -/
inductive Cut (codec : StreamCodec) (more : List Char) (frames : List ProgressFrame)
    (last : Option PlatformError) :
    Except PlatformError (Option ProgressFrame) → List Char → Prop
  | failed {e : PlatformError} {rest : List Char} : frames = [] → last = some e →
      Cut codec more frames last (.error e) rest
  | spent {rest : List Char} : completeEvent rest = none →
      Reads codec (rest ++ more) frames last → Cut codec more frames last (.ok none) rest
  | terminal {frame : ProgressFrame} {rest : List Char} : frame.status.isTerminal = true →
      frames = [frame] → last = none → Cut codec more frames last (.ok (some frame)) rest
  | frame {frame : ProgressFrame} {later : List ProgressFrame} {rest : List Char} :
      frame.status.isTerminal = false → frames = frame :: later →
      Reads codec (rest ++ more) later last → Cut codec more frames last (.ok (some frame)) rest

theorem cutFrame_cut {codec : StreamCodec} {more : List Char} {frames : List ProgressFrame}
    {last : Option PlatformError} {fuel : ℕ} {buffer : List Char} (hfuel : buffer.length ≤ fuel)
    (h : Reads codec (buffer ++ more) frames last) :
    Cut codec more frames last (cutFrame codec fuel buffer).1 (cutFrame codec fuel buffer).2 := by
  induction fuel generalizing buffer with
  | zero =>
    obtain rfl : buffer = [] := List.eq_nil_of_length_eq_zero (by omega)
    exact .spent rfl h
  | succ fuel ih =>
    cases hc : completeEvent buffer with
    | none =>
      simp only [cutFrame,hc]
      exact .spent hc h
    | some split =>
      obtain ⟨event,rest⟩ := split
      obtain ⟨hmore,hle⟩ := completeEvent_append more hc
      rcases h.first hmore with ⟨e,hp,hframes,hlast⟩ | ⟨hp,hrest⟩ |
        ⟨frame,hp,⟨hterminal,hframes,hlast⟩ | ⟨hfalse,later,hframes,hrest⟩⟩
      · simp only [cutFrame,hc,hp]
        exact .failed hframes hlast
      · simp only [cutFrame,hc,hp]
        exact ih (by omega) hrest
      · simp only [cutFrame,hc,hp]
        exact .terminal hterminal hframes hlast
      · simp only [cutFrame,hc,hp]
        exact .frame hfalse hframes hrest

theorem nextProgressFrame_cut {codec : StreamCodec} {more : List Char}
    {frames : List ProgressFrame} {last : Option PlatformError} {buffer : List Char}
    (h : Reads codec (buffer ++ more) frames last) :
    Cut codec more frames last (nextProgressFrame codec buffer).1
      (nextProgressFrame codec buffer).2 :=
  cutFrame_cut le_rfl h

/-- `next_frame` while the response lasts: a frame, or else the next chunk. -/
def pull (codec : StreamCodec) (buffer : List Char) (chunks : List Chunk) :
    Except PlatformError (Option ProgressFrame) × EventStream :=
  match nextProgressFrame codec buffer with
  | (.error e,rest) => (.error e,⟨some chunks,rest,false⟩)
  | (.ok (some frame),rest) => (.ok (some frame),⟨some chunks,rest,frame.status.isTerminal⟩)
  | (.ok none,rest) =>
    match chunks with
    | [] => (.ok none,⟨none,rest,false⟩)
    | .error e :: more => (.error e,⟨some more,rest,false⟩)
    | .ok bytes :: more => pull codec (rest ++ fromUtf8Lossy bytes) more

def nextFrame (codec : StreamCodec) (s : EventStream) :
    Except PlatformError (Option ProgressFrame) × EventStream :=
  if s.terminalSeen = true then (.ok none,s)
  else
    match s.response with
    | some chunks => pull codec s.buffer chunks
    | none =>
      match nextProgressFrame codec s.buffer with
      | (.error e,rest) => (.error e,⟨none,rest,false⟩)
      | (.ok (some frame),rest) => (.ok (some frame),⟨none,rest,frame.status.isTerminal⟩)
      | (.ok none,rest) => (.ok none,⟨none,rest,false⟩)

/-- What the caller gets who asks for frames up to the first `None` or error. -/
inductive Yields (codec : StreamCodec) :
    EventStream → List ProgressFrame → Option PlatformError → Prop
  | ended {s : EventStream} : (s.nextFrame codec).1 = .ok none → Yields codec s [] none
  | failed {s : EventStream} {e : PlatformError} :
      (s.nextFrame codec).1 = .error e → Yields codec s [] (some e)
  | frame {s : EventStream} {frame : ProgressFrame} {frames : List ProgressFrame}
      {last : Option PlatformError} : (s.nextFrame codec).1 = .ok (some frame) →
      Yields codec (s.nextFrame codec).2 frames last → Yields codec s (frame :: frames) last

def pieceText (pieces : List (List UInt8)) : List Char := (pieces.map fromUtf8Lossy).flatten

/-- The chunks up to the one whose text, behind that of those before it, stops the stream. -/
def chunksRead (codec : StreamCodec) (buffer : List Char) : List (List UInt8) → List (List UInt8)
  | [] => []
  | piece :: pieces =>
    if stops codec buffer = true then []
    else piece :: chunksRead codec (buffer ++ fromUtf8Lossy piece) pieces

theorem chunksRead_cases (codec : StreamCodec) (buffer : List Char) (pieces : List (List UInt8)) :
    chunksRead codec buffer pieces = pieces ∨
      ∃ rest, pieces = chunksRead codec buffer pieces ++ rest ∧
        stops codec (buffer ++ pieceText (chunksRead codec buffer pieces)) = true := by
  induction pieces generalizing buffer with
  | nil => exact Or.inl rfl
  | cons piece pieces ih =>
    unfold chunksRead
    split
    · rename_i hstops
      exact Or.inr ⟨piece :: pieces,rfl,by simpa [pieceText] using hstops⟩
    · rcases ih (buffer ++ fromUtf8Lossy piece) with hall | ⟨rest,hrest,hstops⟩
      · exact Or.inl (by rw [hall])
      · refine Or.inr ⟨rest,by rw [List.cons_append,← hrest],?_⟩
        simpa [pieceText] using hstops

/-- What one call makes of the frames and the error still to be read. -/
inductive Next (codec : StreamCodec) (frames : List ProgressFrame) (last : Option PlatformError) :
    Except PlatformError (Option ProgressFrame) × EventStream → Prop
  | ended {t : EventStream} : frames = [] → last = none → Next codec frames last (.ok none,t)
  | failed {t : EventStream} {e : PlatformError} : frames = [] → last = some e →
      Next codec frames last (.error e,t)
  | terminal {t : EventStream} {frame : ProgressFrame} : t.terminalSeen = true →
      frames = [frame] → last = none → Next codec frames last (.ok (some frame),t)
  | frame {frame : ProgressFrame} {later : List ProgressFrame} {rest : List Char}
      {pieces : List (List UInt8)} : frames = frame :: later →
      Reads codec (rest ++ pieceText pieces) later last →
      Next codec frames last (.ok (some frame),⟨some (pieces.map .ok),rest,false⟩)

theorem pull_next {codec : StreamCodec} {pieces : List (List UInt8)} {buffer : List Char}
    {frames : List ProgressFrame} {last : Option PlatformError}
    (h : Reads codec (buffer ++ pieceText pieces) frames last) :
    Next codec frames last (pull codec buffer (pieces.map .ok)) := by
  induction pieces generalizing buffer with
  | nil =>
    have hcut := nextProgressFrame_cut h
    unfold pull
    generalize nextProgressFrame codec buffer = cut at hcut ⊢
    obtain ⟨answer,rest⟩ := cut
    cases hcut with
    | failed hframes hlast => exact .failed hframes hlast
    | spent hnone hrest =>
      obtain ⟨hframes,hlast⟩ := hrest.nothing (by simpa [pieceText] using hnone)
      exact .ended hframes hlast
    | terminal hterminal hframes hlast => exact .terminal hterminal hframes hlast
    | frame hfalse hframes hrest =>
      dsimp only
      rw [hfalse]
      exact .frame hframes hrest
  | cons bytes pieces ih =>
    have hcut := nextProgressFrame_cut h
    unfold pull
    generalize nextProgressFrame codec buffer = cut at hcut ⊢
    obtain ⟨answer,rest⟩ := cut
    cases hcut with
    | failed hframes hlast => exact .failed hframes hlast
    | spent hnone hrest =>
      refine ih ?_
      simpa [pieceText] using hrest
    | terminal hterminal hframes hlast => exact .terminal hterminal hframes hlast
    | frame hfalse hframes hrest =>
      dsimp only
      rw [hfalse]
      exact .frame hframes hrest

/-- A stream yields what its text reads as. -/
theorem yields_of_reads {codec : StreamCodec} {pieces : List (List UInt8)} {buffer : List Char}
    {frames : List ProgressFrame} {last : Option PlatformError}
    (h : Reads codec (buffer ++ pieceText pieces) frames last) :
    Yields codec ⟨some (pieces.map .ok),buffer,false⟩ frames last := by
  induction frames generalizing buffer pieces with
  | nil =>
    have hnext := pull_next h
    have hcall : EventStream.nextFrame codec ⟨some (pieces.map .ok),buffer,false⟩ =
        pull codec buffer (pieces.map .ok) := rfl
    generalize pull codec buffer (pieces.map .ok) = r at hnext hcall
    cases hnext with
    | ended _ hlast =>
      rw [hlast]
      exact .ended (by rw [hcall])
    | failed _ hlast =>
      rw [hlast]
      exact .failed (by rw [hcall])
    | terminal _ hframes _ => simp at hframes
    | frame hframes _ => simp at hframes
  | cons f frames ih =>
    have hnext := pull_next h
    have hcall : EventStream.nextFrame codec ⟨some (pieces.map .ok),buffer,false⟩ =
        pull codec buffer (pieces.map .ok) := rfl
    generalize pull codec buffer (pieces.map .ok) = r at hnext hcall
    cases hnext with
    | ended hframes _ => simp at hframes
    | failed hframes _ => simp at hframes
    | terminal hseen hframes hlast =>
      obtain ⟨rfl,rfl⟩ := List.cons.inj hframes
      rw [hlast]
      refine .frame (by rw [hcall]) (.ended ?_)
      rw [hcall]
      simp [nextFrame,hseen]
    | frame hframes hrest =>
      obtain ⟨rfl,rfl⟩ := List.cons.inj hframes
      refine .frame (by rw [hcall]) ?_
      rw [hcall]
      exact ih hrest

theorem Yields.unique {codec : StreamCodec} {s : EventStream} {frames frames' : List ProgressFrame}
    {last last' : Option PlatformError} (h : Yields codec s frames last)
    (h' : Yields codec s frames' last') : frames = frames' ∧ last = last' := by
  induction h generalizing frames' with
  | ended hcall => cases h' <;> simp_all
  | failed hcall => cases h' <;> simp_all
  | frame hcall _ ih =>
    cases h' with
    | ended hcall' => simp [hcall] at hcall'
    | failed hcall' => simp [hcall] at hcall'
    | frame hcall' hrest =>
      obtain ⟨rfl⟩ : _ = _ := Option.some.inj (Except.ok.inj (hcall.symm.trans hcall'))
      obtain ⟨rfl,rfl⟩ := ih hrest
      exact ⟨rfl,rfl⟩

theorem exists_yields (codec : StreamCodec) (pieces : List (List UInt8)) :
    ∃ frames last, Reads codec (pieceText pieces) frames last ∧
      Yields codec (new (pieces.map .ok)) frames last := by
  obtain ⟨frames,last,hreads⟩ := exists_reads codec (pieceText pieces)
  exact ⟨frames,last,hreads,@yields_of_reads codec pieces [] frames last hreads⟩

/-- Chunks that are read unbroken read as the whole byte string does. -/
theorem reads_whole {codec : StreamCodec} {pieces : List (List UInt8)}
    (h : Unbroken (chunksRead codec [] pieces)) :
    ∃ frames last, Reads codec (pieceText pieces) frames last ∧
      Reads codec (fromUtf8Lossy pieces.flatten) frames last := by
  have htext : pieceText (chunksRead codec [] pieces) =
      fromUtf8Lossy (chunksRead codec [] pieces).flatten := (pieces_eq_whole_iff _).mpr h
  rcases chunksRead_cases codec [] pieces with hall | ⟨rest,hrest,hstops⟩
  · rw [hall] at htext
    obtain ⟨frames,last,hreads⟩ := exists_reads codec (pieceText pieces)
    exact ⟨frames,last,hreads,htext ▸ hreads⟩
  · rw [List.nil_append,htext] at hstops
    obtain ⟨frames,last,happart,hwhole⟩ := reads_of_stops hstops
    refine ⟨frames,last,?_,?_⟩
    · rw [hrest,pieceText,List.map_append,List.flatten_append]
      show Reads codec (pieceText (chunksRead codec [] pieces) ++ _) frames last
      rw [htext]
      exact happart _
    · rw [hrest,List.flatten_append]
      exact hwhole _

/-- The chunks a stream reads are decoded to the text of their bytes exactly if none of them ends
within a character that the next one goes on with. Then the stream yields the frames and the first
error of the response in a single chunk. Nothing follows a terminal frame. -/
theorem chunking_immaterial (codec : StreamCodec) (pieces : List (List UInt8)) :
    (pieceText (chunksRead codec [] pieces) = fromUtf8Lossy (chunksRead codec [] pieces).flatten ↔
      Unbroken (chunksRead codec [] pieces)) ∧
    (Unbroken (chunksRead codec [] pieces) → ∀ frames last,
      Yields codec (new (pieces.map .ok)) frames last ↔
        Yields codec (new [.ok pieces.flatten]) frames last) ∧
    (∃ frames last, Yields codec (new (pieces.map .ok)) frames last) ∧
    ∀ frames last, Yields codec (new (pieces.map .ok)) frames last →
      ∀ earlier frame later, frames = earlier ++ frame :: later →
        frame.status.isTerminal = true → later = [] ∧ last = none := by
  refine ⟨pieces_eq_whole_iff _,fun hunbroken frames last => ?_,?_,?_⟩
  · obtain ⟨read,err,hapart,hreads⟩ := reads_whole hunbroken
    have hpieces : Yields codec (new (pieces.map .ok)) read err :=
      @yields_of_reads codec pieces [] read err hapart
    have hwhole : Yields codec (new [.ok pieces.flatten]) read err :=
      @yields_of_reads codec [pieces.flatten] [] read err (by simpa [pieceText] using hreads)
    constructor
    · intro h
      obtain ⟨rfl,rfl⟩ := h.unique hpieces
      exact hwhole
    · intro h
      obtain ⟨rfl,rfl⟩ := h.unique hwhole
      exact hpieces
  · obtain ⟨frames,last,_,h⟩ := exists_yields codec pieces
    exact ⟨frames,last,h⟩
  · intro frames last h
    obtain ⟨read,err,hreads,hpieces⟩ := exists_yields codec pieces
    obtain ⟨rfl,rfl⟩ := h.unique hpieces
    exact hreads.terminal_last

namespace BrokenCharacter

def ascii (text : String) : List UInt8 := text.toList.map fun c => UInt8.ofNat c.toNat

def observedAt : List Char := "2026-08-17".toList ++ "T10:00:00Z".toList

def data (message : List Char) : List Char :=
  "\x7b\"status\":\"running\"".toList ++ ",\"message\":\"".toList ++ message ++
    "\",\"observed_at\":\"".toList ++ observedAt ++ "\"\x7d".toList

def eventId : List Char := "018f0000-0000-".toList ++ "7000-8000-".toList ++ "00000000aaa1".toList

def sent : List Char := "caf".toList ++ [Char.ofNat 0xE9]
def garbled : List Char := "caf".toList ++ [replacement,replacement]

/-- The texts below, each with what it denotes. -/
def codec : StreamCodec where
  json text := ([sent,garbled].find? fun message => data message = text).map fun message =>
    ⟨"running".toList,none,none,some message,observedAt⟩
  uuid text := if text = eventId then some 0x018f000000007000800000000000aaa1 else none
  timestamp text := if text = observedAt then some 1786960800000000000 else none

def frame (message : List Char) : ProgressFrame :=
  ⟨0x018f000000007000800000000000aaa1,.running,none,none,some message,1786960800⟩

/-- The two bytes of the last character come in two chunks. -/
def pieces : List (List UInt8) :=
  [ascii "id: 018f0000-0000-" ++ ascii "7000-8000-" ++ ascii "00000000aaa1\n" ++
      ascii "event: progress\n" ++ ascii "data: \x7b\"status\":" ++ ascii "\"running\"," ++
      ascii "\"message\":\"caf" ++ [0xC3],
    [0xA9] ++ ascii "\",\"observed_at\":" ++ ascii "\"2026-08-17" ++ ascii "T10:00:00Z\"\x7d\n\n"]

theorem message_garbled :
    Yields codec (new (pieces.map .ok)) [frame garbled] none ∧
      Yields codec (new [.ok pieces.flatten]) [frame sent] none ∧ frame garbled ≠ frame sent := by
  refine ⟨.frame (by decide +kernel) (.ended (by decide +kernel)),
    .frame (by decide +kernel) (.ended (by decide +kernel)),by decide⟩

end BrokenCharacter

namespace FinishedStream

open BrokenCharacter

def finished : List Char :=
  "\x7b\"status\":\"succeeded\"".toList ++ ",\"observed_at\":\"".toList ++ observedAt ++
    "\"\x7d".toList

def codec : StreamCodec where
  json text :=
    if text = finished then some ⟨"succeeded".toList,none,none,none,observedAt⟩ else none
  uuid := BrokenCharacter.codec.uuid
  timestamp := BrokenCharacter.codec.timestamp

def frame : ProgressFrame :=
  ⟨0x018f000000007000800000000000aaa1,.succeeded,none,none,none,1786960800⟩

/-- A whole terminal event, and behind it a character in two chunks. -/
def pieces : List (List UInt8) :=
  [ascii "id: 018f0000-0000-" ++ ascii "7000-8000-" ++ ascii "00000000aaa1\n" ++
      ascii "event: progress\n" ++ ascii "data: " ++
      finished.map (fun c => UInt8.ofNat c.toNat) ++ ascii "\n\n",[0xC3],[0xA9]]

theorem frames_kept :
    ¬ Unbroken pieces ∧ Yields codec (new (pieces.map .ok)) [frame] none ∧
      Yields codec (new [.ok pieces.flatten]) [frame] none := by
  have hpieces : Yields codec (new (pieces.map .ok)) [frame] none :=
    .frame (by decide +kernel) (.ended (by decide +kernel))
  have hread : Unbroken (chunksRead codec [] pieces) := by decide +kernel
  exact ⟨by decide +kernel,hpieces,
    ((chunking_immaterial codec pieces).2.1 hread [frame] none).mp hpieces⟩

end FinishedStream

end EventStream

end RatatoskrTelegram
