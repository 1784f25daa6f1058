import Purse.Service.Program

/-!
# Transcripts

What a program asks of its collaborators, call by call, and what it is answered. Collaborators may
answer anything, and have a state of their own, so what is said of all of them is said of every
sequence of answers. A program `Meets` a statement about its transcript and its result if it does so
over all collaborators.

## Definitions

* `Program.transcript`: the calls of a program, with their answers.
* `Program.Meets`: what holds of transcript and result over all collaborators.
* `Program.Asked`: what a program under way has asked, and what is left of it.

## Results

* `transcript_bind`, `run_bind`: one program and then another.
* `Meets.bind`, `Meets.ask_bind`, `Meets.attempt`, `Meets.attempt_ask_bind`: what a program meets, by
  its parts.
* `Meets.after`: what a program meets, seen from the midst of it.
-/

namespace Purse

/-- A call that was made, and what it was answered. -/
structure Exchange where
  call : Call
  answer : Result call.Answer

/-- The error that a call was answered with. -/
def Exchange.error? (x : Exchange) : Option LedgerError :=
  match x.answer with
  | .ok _ => none
  | .error e => some e

namespace Program

variable {α β σ : Type}

/-- The calls that a program makes over collaborators, with their answers. -/
def transcript (answer : Collaborators σ) : Program α → σ → List Exchange
  | done _, _ => []
  | call c next, s =>
    ⟨c, (answer c s).1⟩ :: (next (answer c s).1).transcript answer (answer c s).2

/-- What a program goes on with after another one, if that one succeeds. -/
def continued (answer : Collaborators σ) (f : α → Program β) : Result α × σ → List Exchange
  | (.ok a, s) => (f a).transcript answer s
  | (.error _, _) => []

theorem transcript_bind (answer : Collaborators σ) (p : Program α) (f : α → Program β) (s : σ) :
    (p.bind f).transcript answer s =
      p.transcript answer s ++ continued answer f (p.run answer s) := by
  -- on the program: both sides are answered alike, and go on from where the answer left them
  induction p generalizing s with
  | done result =>
    cases result with
    | ok a => exact (List.nil_append _).symm
    | error e => rfl
  | call c next ih =>
    show _ :: ((next (answer c s).1).bind f).transcript answer (answer c s).2 = _
    rw [ih]
    rfl

theorem run_bind (answer : Collaborators σ) (p : Program α) (f : α → Program β) (s : σ) :
    (p.bind f).run answer s =
      match p.run answer s with
      | (.ok a, s) => (f a).run answer s
      | (.error e, s) => (.error e, s) := by
  induction p generalizing s with
  | done result => cases result <;> rfl
  | call c next ih => exact ih (answer c s).1 (answer c s).2

/-- To look at a program's error is not to ask anything more. -/
theorem transcript_attempt (answer : Collaborators σ) (p : Program α) (s : σ) :
    p.attempt.transcript answer s = p.transcript answer s := by
  induction p generalizing s with
  | done result => rfl
  | call c next ih => exact congrArg (_ :: ·) (ih (answer c s).1 (answer c s).2)

theorem run_attempt (answer : Collaborators σ) (p : Program α) (s : σ) :
    p.attempt.run answer s = (.ok (p.run answer s).1, (p.run answer s).2) := by
  induction p generalizing s with
  | done result => rfl
  | call c next ih => exact ih (answer c s).1 (answer c s).2

/-- A program's transcript and result are as stated, whatever its collaborators answer. -/
def Meets (p : Program α) (Q : List Exchange → Result α → Prop) : Prop :=
  ∀ (σ : Type) (answer : Collaborators σ) (s : σ), Q (p.transcript answer s) (p.run answer s).1

namespace Meets

variable {p : Program α} {f : α → Program β} {P Q : List Exchange → Result α → Prop}
  {R : List Exchange → Result β → Prop}

theorem done {result : Result α} (hDone : Q [] result) : (Program.done result).Meets Q :=
  fun _ _ _ => hDone

theorem ask {c : Call} {Q : List Exchange → Result c.Answer → Prop}
    (hAsk : ∀ answer, Q [⟨c, answer⟩] answer) : (Program.ask c).Meets Q :=
  fun _ answer s => hAsk (answer c s).1

theorem attempt {Q : List Exchange → Result (Result α) → Prop}
    (hMeets : p.Meets fun log result => Q log (.ok result)) : p.attempt.Meets Q := by
  intro σ answer s
  rw [transcript_attempt, run_attempt]
  exact hMeets σ answer s

theorem mono (hMeets : p.Meets P) (hImp : ∀ {log result}, P log result → Q log result) :
    p.Meets Q :=
  fun σ answer s => hImp (hMeets σ answer s)

/-- What comes after a program is asked after what the program has asked, and not at all after an
error. -/
theorem bind (hFirst : p.Meets P)
    (hOk : ∀ {log a}, P log (.ok a) → (f a).Meets fun log' result => R (log ++ log') result)
    (hError : ∀ {log e}, P log (.error e) → R log (.error e)) : (p.bind f).Meets R := by
  intro σ answer s
  have hMeets := hFirst σ answer s
  rw [transcript_bind, run_bind]
  rcases hRun : p.run answer s with ⟨e | a, s'⟩
  · rw [hRun] at hMeets
    simpa only [continued, List.append_nil] using hError hMeets
  · rw [hRun] at hMeets
    exact hOk hMeets σ answer s'

/-- What comes after a call, by what the call is answered. -/
theorem ask_bind {c : Call} {f : c.Answer → Program β}
    (hOk : ∀ a, (f a).Meets fun log result => R (⟨c, .ok a⟩ :: log) result)
    (hError : ∀ e, R [⟨c, .error e⟩] (.error e)) : ((Program.ask c).bind f).Meets R := by
  have hAsk : Meets (Program.ask c) fun log result => log = [⟨c, result⟩] :=
    ask (Q := fun log result => log = [⟨c, result⟩]) fun _ => rfl
  refine bind hAsk ?_ ?_
  · rintro log a rfl
    exact hOk a
  · rintro log e rfl
    exact hError e

/-- What comes after a call whose error, if it has one, is not looked at. -/
theorem attempt_ask_bind {c : Call} {f : Result c.Answer → Program β}
    (hAny : ∀ answer, (f answer).Meets fun log result => R (⟨c, answer⟩ :: log) result) :
    ((Program.ask c).attempt.bind f).Meets R := by
  have hAsk : (Program.ask c).attempt.Meets fun log result =>
      ∃ answer, log = [⟨c, answer⟩] ∧ result = .ok answer :=
    attempt (ask fun answer => ⟨answer, rfl, rfl⟩)
  refine bind hAsk ?_ ?_
  · rintro log a ⟨_, rfl, hAnswer⟩
    obtain rfl := Except.ok.inj hAnswer
    exact hAny a
  · rintro log e ⟨_, -, ⟨⟩⟩

end Meets

-- ---------------------------------------------------------------------------
-- Programs under way
-- ---------------------------------------------------------------------------

/-- What a program has asked so far, and what is left of it. -/
inductive Asked (p : Program α) : List Exchange → Program α → Prop where
  | nothing : Asked p [] p
  | next {log : List Exchange} {c : Call} {next : Result c.Answer → Program α}
      (hAsked : Asked p log (call c next)) (answer : Result c.Answer) :
      Asked p (log ++ [⟨c, answer⟩]) (next answer)

/-- Collaborators that give one answer and leave all others to somebody else. -/
def answerFirst (c : Call) (answer : Result c.Answer) (others : Collaborators σ) (s : σ) :
    Collaborators (Option σ)
  | c', none => if hSame : c = c' then (hSame ▸ answer, some s) else (.error .cancelled, none)
  | c', some s' => ((others c' s').1, some (others c' s').2)

theorem transcript_answerFirst {c : Call} {answer : Result c.Answer} {others : Collaborators σ}
    {s : σ} (p : Program α) (s' : σ) :
    p.transcript (answerFirst c answer others s) (some s') = p.transcript others s' := by
  induction p generalizing s' with
  | done result => rfl
  | call c' next ih => exact congrArg (_ :: ·) (ih (others c' s').1 (others c' s').2)

theorem run_answerFirst {c : Call} {answer : Result c.Answer} {others : Collaborators σ}
    {s : σ} (p : Program α) (s' : σ) :
    (p.run (answerFirst c answer others s) (some s')).1 = (p.run others s').1 := by
  induction p generalizing s' with
  | done result => rfl
  | call c' next ih => exact ih (others c' s').1 (others c' s').2

/-- Whatever a program under way comes to, there are collaborators over which the whole program comes
to it. -/
theorem Asked.completed {p p' : Program α} {log : List Exchange} (hAsked : Asked p log p') :
    ∀ {σ : Type} (answer : Collaborators σ) (s : σ),
      ∃ (τ : Type) (answer' : Collaborators τ) (t : τ),
        p.transcript answer' t = log ++ p'.transcript answer s ∧
          (p.run answer' t).1 = (p'.run answer s).1 := by
  induction hAsked with
  | nothing => exact fun answer s => ⟨_, answer, s, rfl, rfl⟩
  | @next log c next hAsked given ih =>
    intro σ answer s
    obtain ⟨τ, answer', t, hLog, hRun⟩ := ih (answerFirst c given answer s) none
    have hFirst : answerFirst c given answer s c none = (given, some s) := by
      simp [answerFirst]
    refine ⟨τ, answer', t, ?_, ?_⟩
    · rw [hLog, transcript, hFirst, transcript_answerFirst, List.append_assoc]
      rfl
    · rw [hRun, run, hFirst, run_answerFirst]

/-- What a program meets is met by what it has asked and what is left of it together. -/
theorem Meets.after {p p' : Program α} {log : List Exchange} {Q : List Exchange → Result α → Prop}
    (hMeets : p.Meets Q) (hAsked : Asked p log p') :
    p'.Meets fun rest result => Q (log ++ rest) result := by
  intro σ answer s
  obtain ⟨τ, answer', t, hLog, hRun⟩ := hAsked.completed answer s
  rw [← hLog, ← hRun]
  exact hMeets τ answer' t

end Program

end Purse
