import Mathlib.Data.List.Basic

/-!
# Programs over requests

A program asks one request after another and goes on with the answers, which may be any. What it
may ask and what it comes to is judged by the exchanges so far: a program is safe where every
request is allowed behind the exchanges that lead to it, and its value is right behind all of them.
-/

namespace RatatoskrTelegram

inductive Program (Q : Type) (A : Q → Type) (α : Type)
  | done (value : α)
  | ask (q : Q) (next : A q → Program Q A α)

structure Exchange (Q : Type) (A : Q → Type) where
  request : Q
  answer : A request

namespace Program

variable {Q : Type} {A : Q → Type} {α β : Type}

def bind : Program Q A α → (α → Program Q A β) → Program Q A β
  | done value, f => f value
  | ask q next, f => ask q fun answer => (next answer).bind f

instance : Monad (Program Q A) where
  pure := done
  bind := bind

def request (q : Q) : Program Q A (A q) := ask q done

theorem pure_eq (value : α) : (pure value : Program Q A α) = done value := rfl

theorem done_bind (value : α) (f : α → Program Q A β) : (done value >>= f) = f value := rfl

theorem request_bind (q : Q) (f : A q → Program Q A β) : (request q >>= f) = ask q f := rfl

variable {allowed allowed' : List (Exchange Q A) → Q → Prop}
  {post post' : List (Exchange Q A) → α → Prop} {history : List (Exchange Q A)}

/-- Behind the exchanges every request is allowed, and so is the value. -/
def Safe (allowed : List (Exchange Q A) → Q → Prop) (post : List (Exchange Q A) → α → Prop) :
    List (Exchange Q A) → Program Q A α → Prop
  | history, done value => post history value
  | history, ask q next =>
    allowed history q ∧ ∀ answer, Safe allowed post (history ++ [⟨q,answer⟩]) (next answer)

theorem safe_done {value : α} (h : post history value) : Safe allowed post history (done value) := h

theorem safe_pure {value : α} (h : post history value) :
    Safe allowed post history (pure value) := h

theorem safe_ask {q : Q} {next : A q → Program Q A α} (hq : allowed history q)
    (h : ∀ answer, Safe allowed post (history ++ [⟨q,answer⟩]) (next answer)) :
    Safe allowed post history (request q >>= next) :=
  ⟨hq,h⟩

theorem Safe.mono {p : Program Q A α} (h : Safe allowed post history p)
    (hallowed : ∀ history q, allowed history q → allowed' history q)
    (hpost : ∀ history value, post history value → post' history value) :
    Safe allowed' post' history p := by
  induction p generalizing history with
  | done value => exact hpost history value h
  | ask q next ih => exact ⟨hallowed history q h.1,fun answer => ih answer (h.2 answer)⟩

/-- The end of the first part is what the second relies upon; no exchange is forgotten. -/
theorem Safe.bind {p : Program Q A α} {f : α → Program Q A β}
    {end' : List (Exchange Q A) → β → Prop} (h : Safe allowed post history p)
    (hf : ∀ more value, post (history ++ more) value →
      Safe allowed end' (history ++ more) (f value)) :
    Safe allowed end' history (p >>= f) := by
  induction p generalizing history with
  | done value =>
    have hvalue : post (history ++ []) value := by
      rw [List.append_nil]
      exact h
    have hnext := hf [] value hvalue
    rw [List.append_nil] at hnext
    exact hnext
  | ask q next ih =>
    refine ⟨h.1,fun answer => ih answer (h.2 answer) ?_⟩
    intro more value hvalue
    rw [List.append_assoc] at hvalue ⊢
    exact hf _ value hvalue

theorem safe_any (p : Program Q A α) : Safe (fun _ _ => True) (fun _ _ => True) history p := by
  induction p generalizing history with
  | done value => exact trivial
  | ask q next ih => exact ⟨trivial,fun answer => ih answer⟩

theorem Safe.bind_congr {p : Program Q A α} {f g : α → Program Q A β}
    (h : Safe allowed post history p) (hfg : ∀ more value, post more value → f value = g value) :
    (p >>= f) = (p >>= g) := by
  induction p generalizing history with
  | done value => exact hfg history value h
  | ask q next ih =>
    have hnext : (fun answer => (next answer).bind f) = fun answer => (next answer).bind g := by
      funext answer
      exact ih answer (h.2 answer)
    exact congrArg (ask q) hnext

/-- The program comes to the value while the world answers as `answers` says. -/
inductive Comes {W : Type} (answers : W → (q : Q) → A q → W → Prop) :
    Program Q A α → W → α → W → Prop
  | done {value : α} {w : W} : Comes answers (done value) w value w
  | ask {q : Q} {next : A q → Program Q A α} {w v u : W} {answer : A q} {value : α} :
      answers w q answer v → Comes answers (next answer) v value u →
      Comes answers (ask q next) w value u

theorem Comes.bind {W : Type} {answers : W → (q : Q) → A q → W → Prop} {p : Program Q A α}
    {f : α → Program Q A β} {w v u : W} {value : α} {result : β}
    (h : Comes answers p w value v) (hf : Comes answers (f value) v result u) :
    Comes answers (p >>= f) w result u := by
  induction h with
  | done => exact hf
  | ask hq _ ih => exact .ask hq (ih hf)

end Program

end RatatoskrTelegram
