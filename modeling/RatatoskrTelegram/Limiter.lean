import Mathlib.Algebra.Group.Int.Defs
import Mathlib.Algebra.Group.Nat.Defs
import Mathlib.Data.Int.Order.Basic
import Mathlib.Logic.Function.Basic

/-!
# The outbound rate gate

One token for all chats, a minimum gap for each chat, and the pause the provider
has asked a chat to keep. Instants are whole seconds of the injected clock.
-/

namespace RatatoskrTelegram

def i64Min : ℤ := -(2 ^ 63)

def i64Max : ℤ := 2 ^ 63 - 1

def u64Max : ℕ := 2 ^ 64 - 1

def u32Max : ℕ := 2 ^ 32 - 1

/-- `n.clamp(i64::MIN, i64::MAX)`, the end of every saturating operation. -/
def saturated (n : ℤ) : ℤ := max i64Min (min i64Max n)

/-- `u64::try_from(secs).unwrap_or(0).saturating_mul(1000)`. -/
def wholeMillis (secs : ℤ) : ℕ := min u64Max (secs.toNat * 1000)

def oneTokenMilli : ℕ := 1000

inductive RateDecision
  | proceed
  | globalWait (afterMs : ℕ)
  | chatWait (afterMs : ℕ)
  deriving DecidableEq, Repr

def RateDecision.afterMs : RateDecision → Option ℕ
  | proceed => none
  | globalWait afterMs | chatWait afterMs => some afterMs

structure RateBudget where
  globalPerSecond : ℕ
  perChatMinIntervalMs : ℕ
  deriving DecidableEq, Repr

structure LimiterState where
  tokensMilli : ℕ
  lastRefillSecs : Option ℤ
  lastProceedByChat : ℤ → Option ℤ
  penaltyUntilByChat : ℤ → Option ℤ

namespace LimiterState

/-- The bucket starts with its one token. -/
def new : LimiterState := ⟨oneTokenMilli,none,fun _ => none,fun _ => none⟩

/-- Any elapsed second, whichever way the clock went, fills the bucket. -/
def refill (now : ℤ) (globalPerSecond : ℕ) (s : LimiterState) : LimiterState :=
  match s.lastRefillSecs with
  | none => {s with lastRefillSecs := some now}
  | some last =>
    if saturated (now - last) = 0 then s
    else {s with
      tokensMilli := if 0 < globalPerSecond then oneTokenMilli else s.tokensMilli
      lastRefillSecs := some now}

def penaltyDenial (s : LimiterState) (chatId now : ℤ) : Option RateDecision :=
  (s.penaltyUntilByChat chatId).bind fun untilSecs =>
    if untilSecs ≤ now then none else some (.chatWait (wholeMillis (untilSecs - now)))

def chatDenial (s : LimiterState) (chatId now : ℤ) (intervalMs : ℕ) : Option RateDecision :=
  if intervalMs = 0 then none
  else
    (s.lastProceedByChat chatId).bind fun last =>
      let elapsedMs := wholeMillis (saturated (now - last))
      if elapsedMs < intervalMs then some (.chatWait (intervalMs - elapsedMs)) else none

/-- `1000u64.div_ceil(global_per_second.max(1))`. -/
def millisForOneToken (globalPerSecond : ℕ) : ℕ :=
  (1000 + max globalPerSecond 1 - 1) / max globalPerSecond 1

/-- The two gates, once the bucket is refilled: the pause first, then the chat, then the token. -/
def gate (budget : RateBudget) (now chatId : ℤ) (s : LimiterState) : RateDecision × LimiterState :=
  match s.penaltyDenial chatId now with
  | some denial => (denial,s)
  | none =>
    match s.chatDenial chatId now budget.perChatMinIntervalMs with
    | some denial => (denial,s)
    | none =>
      if s.tokensMilli < oneTokenMilli then
        (.globalWait (millisForOneToken budget.globalPerSecond),s)
      else
        (.proceed,{s with
          tokensMilli := s.tokensMilli - oneTokenMilli
          lastProceedByChat := Function.update s.lastProceedByChat chatId (some now)})

def tryAcquire (budget : RateBudget) (now chatId : ℤ) (s : LimiterState) :
    RateDecision × LimiterState :=
  (s.refill now budget.globalPerSecond).gate budget now chatId

/-- A later deadline wins, an earlier one changes nothing. -/
def penalize (chatId untilSecs : ℤ) (s : LimiterState) : LimiterState :=
  let deadline := (s.penaltyUntilByChat chatId).elim untilSecs fun current => max current untilSecs
  {s with penaltyUntilByChat := Function.update s.penaltyUntilByChat chatId (some deadline)}

theorem wholeMillis_pos {secs : ℤ} (h : 0 < secs) : 0 < wholeMillis secs := by
  have hn : 0 < secs.toNat := by omega
  have hmax : 0 < u64Max := by decide
  unfold wholeMillis
  omega

theorem penaltyDenial_pos {s : LimiterState} {chatId now : ℤ} {denial : RateDecision}
    (h : s.penaltyDenial chatId now = some denial) : ∃ ms, denial.afterMs = some ms ∧ 0 < ms := by
  obtain ⟨untilSecs,_,hd⟩ := Option.bind_eq_some_iff.mp h
  split at hd
  · simp at hd
  · rename_i hlt
    obtain rfl := Option.some.inj hd
    exact ⟨_,rfl,wholeMillis_pos (by omega)⟩

theorem chatDenial_pos {s : LimiterState} {chatId now : ℤ} {intervalMs : ℕ}
    {denial : RateDecision} (h : s.chatDenial chatId now intervalMs = some denial) :
    ∃ ms, denial.afterMs = some ms ∧ 0 < ms := by
  unfold chatDenial at h
  split at h
  · simp at h
  · obtain ⟨last,_,hd⟩ := Option.bind_eq_some_iff.mp h
    dsimp only at hd
    split at hd
    · rename_i hlt
      obtain rfl := Option.some.inj hd
      exact ⟨_,rfl,Nat.sub_pos_of_lt hlt⟩
    · simp at hd

theorem millisForOneToken_pos (globalPerSecond : ℕ) : 0 < millisForOneToken globalPerSecond := by
  have hpos : 0 < max globalPerSecond 1 := by omega
  refine Nat.div_pos ?_ hpos
  omega

/-- A delivery proceeds, or is told to wait for some milliseconds. -/
theorem tryAcquire_wait (budget : RateBudget) (now chatId : ℤ) (s : LimiterState) :
    (s.tryAcquire budget now chatId).1 = .proceed ∨
      ∃ ms, (s.tryAcquire budget now chatId).1.afterMs = some ms ∧ 0 < ms := by
  unfold tryAcquire gate
  split
  · rename_i denial hd
    exact Or.inr (penaltyDenial_pos hd)
  · split
    · rename_i denial hd
      exact Or.inr (chatDenial_pos hd)
    · split
      · exact Or.inr ⟨_,rfl,millisForOneToken_pos _⟩
      · exact Or.inl rfl

end LimiterState

end RatatoskrTelegram
