import Mathlib.Logic.Relation
import Purse.Remote.WalletTable
import Purse.Proofs.Result
import Purse.Proofs.Crowd.Play
import Purse.Proofs.Service.TransferCalls

/-!
# Transfers by round trips

A transfer over a database that is reached by round trips: each statement is sent, takes effect at some
moment, and is answered at a later one. Meanwhile other connections do what they like, and the deadline
may pass at any moment at which an answer is awaited: the connection is then dropped, which undoes the
open transaction, and the transfer is answered that it was cancelled. Up to the moment at which the
commit takes effect nothing has been published and nothing will be. From that moment on until its
answer is there, the transfer can still be cancelled, although all of it has been published.

## Definitions

* `Server`, `Server.Transactional`: a database as one connection sees it, and what is relied on.
* `Phase`, `Trip`: where a command is in its round trips, and how it goes on.
* `Server.Unpublished`: what is committed has been changed by other connections alone.

## Results

* `Inquiry.failsOnly`: no answer of a database is taken for a passed deadline.
* `Trip.standing`: what has been published, by the statements that have taken effect.
* `Trip.unpublished_or_committing`: a cancelled transfer has published nothing, unless its commit had
  taken effect and the answer to it was still awaited.
* `Trip.exists_cancelled`: every transfer that succeeds could as well have been cancelled then.
-/

namespace Purse.Remote

open Program

variable {σ β : Type}

-- ---------------------------------------------------------------------------
-- Servers
-- ---------------------------------------------------------------------------

/-- A database as one of its connections sees it. -/
structure Server (σ β : Type) where
  /-- What a statement is answered with when it takes effect, and the state after it. -/
  database : Database σ
  /-- The state after the connection has been dropped. -/
  hangUp : σ → σ
  /-- What other connections may do. -/
  elsewhere : σ → σ → Prop
  /-- The connection has a transaction open. -/
  isOpen : σ → Prop
  /-- What is committed, for everybody to see. -/
  committed : σ → β

/-- The statement is one of those that a transfer sends within its transaction. -/
def Statement.IsInner : Statement → Prop
  | .lock _ _ | .add _ _ => True
  | .begin | .commit | .rollback | .insert _ | .get _ | .list _ => False

namespace Server

variable (server : Server σ β)

/-- What is relied on. A transaction is of this connection alone: what other connections do neither
opens nor ends it. While it is open, the statements within it publish nothing, and neither does its
undoing. What a commit does is left open. -/
structure Transactional : Prop where
  begin_committed {s : σ} (hIdle : ¬ server.isOpen s) :
    server.committed (server.database .begin s).2 = server.committed s
  begin_isOpen {s : σ} (hIdle : ¬ server.isOpen s) (hOk : (server.database .begin s).1 = .ok ()) :
    server.isOpen (server.database .begin s).2
  inner_committed {s : σ} {statement : Statement} (hInner : statement.IsInner)
    (hOpen : server.isOpen s) :
    server.committed (server.database statement s).2 = server.committed s
  inner_isOpen {s : σ} {statement : Statement} (hInner : statement.IsInner)
    (hOpen : server.isOpen s) : server.isOpen (server.database statement s).2
  rollback_committed {s : σ} (hOpen : server.isOpen s) :
    server.committed (server.database .rollback s).2 = server.committed s
  hangUp_committed (s : σ) : server.committed (server.hangUp s) = server.committed s
  hangUp_isOpen (s : σ) : ¬ server.isOpen (server.hangUp s)
  elsewhere_isOpen {s s' : σ} (hElse : server.elsewhere s s') : server.isOpen s' ↔ server.isOpen s

/-- What other connections may make of what is committed. -/
def Moves (v v' : β) : Prop :=
  ∃ s s', server.elsewhere s s' ∧ server.committed s = v ∧ server.committed s' = v'

/-- Between two states nothing was published but by other connections. -/
def Unpublished (s s' : σ) : Prop :=
  Relation.ReflTransGen server.Moves (server.committed s) (server.committed s')

/-- What the database makes of a call, if it is for the database. -/
def served? (c : Call) (s : σ) : Option (Result c.Answer × σ) :=
  (inquiry? c).map fun i =>
    (i.result (server.database i.statement s).1, (server.database i.statement s).2)

variable {server} {s s' t : σ}

theorem Unpublished.refl : server.Unpublished s s := Relation.ReflTransGen.refl

theorem Unpublished.congr (hSame : server.committed s' = server.committed t)
    (hUnpublished : server.Unpublished s t) : server.Unpublished s s' := by
  unfold Unpublished
  rw [hSame]
  exact hUnpublished

theorem Unpublished.elsewhere (hUnpublished : server.Unpublished s t)
    (hElse : server.elsewhere t s') : server.Unpublished s s' :=
  Relation.ReflTransGen.tail hUnpublished ⟨t, s', hElse, rfl, rfl⟩

end Server

-- ---------------------------------------------------------------------------
-- Round trips
-- ---------------------------------------------------------------------------

/-- Where a command is in its round trips. -/
inductive Phase where
  /-- The next statement of the program is sent, if there is one, and has not taken effect. -/
  | sent (p : Program Unit)
  /-- A statement has taken effect, and its answer is on the way. -/
  | answered (c : Call) (answer : Result c.Answer) (next : Result c.Answer → Program Unit)
  /-- The command is over. -/
  | ended (result : Result Unit)

/-- The command awaits the answer to a statement. -/
def Phase.Waits : Phase → Prop
  | .sent (.call _ _) | .answered _ _ _ => True
  | .sent (.done _) | .ended _ => False

/-- How a command gets along, with the statements that have taken effect and their answers. -/
inductive Trip (server : Server σ β) (p : Program Unit) (s₀ : σ) :
    List Exchange → Phase → σ → Prop where
  | start : Trip server p s₀ [] (.sent p) s₀
  | effect {log : List Exchange} {c : Call} {next : Result c.Answer → Program Unit} {s s' : σ}
      {answer : Result c.Answer} (hTrip : Trip server p s₀ log (.sent (.call c next)) s)
      (hServed : server.served? c s = some (answer, s')) :
      Trip server p s₀ (log ++ [⟨c, answer⟩]) (.answered c answer next) s'
  | receive {log : List Exchange} {c : Call} {next : Result c.Answer → Program Unit} {s : σ}
      {answer : Result c.Answer} (hTrip : Trip server p s₀ log (.answered c answer next) s) :
      Trip server p s₀ log (.sent (next answer)) s
  | finish {log : List Exchange} {result : Result Unit} {s : σ}
      (hTrip : Trip server p s₀ log (.sent (.done result)) s) :
      Trip server p s₀ log (.ended result) s
  /-- The deadline passes. -/
  | elapse {log : List Exchange} {phase : Phase} {s : σ} (hTrip : Trip server p s₀ log phase s)
      (hWaits : phase.Waits) : Trip server p s₀ log (.ended (.error .cancelled)) (server.hangUp s)
  | elsewhere {log : List Exchange} {phase : Phase} {s s' : σ}
      (hTrip : Trip server p s₀ log phase s) (hElse : server.elsewhere s s') :
      Trip server p s₀ log phase s'

-- ---------------------------------------------------------------------------
-- No answer of a database is taken for a passed deadline
-- ---------------------------------------------------------------------------

/-- The error does not say that the deadline has passed. -/
def IsTimely (e : LedgerError) : Prop := e ≠ .cancelled

theorem DatabaseFault.isTimely (fault : DatabaseFault) : IsTimely fault.toError := by
  unfold IsTimely toError
  repeat' split
  all_goals nofun

theorem Record.failsOnly (r : Record) : FailsOnly IsTimely r.toWallet := by
  have hNeed : ∀ {α : Type} (column : String) (x : Option α), FailsOnly IsTimely (need column x) := by
    intro α column x
    cases x with
    | none => exact FailsOnly.error (DatabaseFault.isTimely _)
    | some a => exact FailsOnly.ok a
  have hId : ∀ text, FailsOnly IsTimely (readId text) := by
    intro text
    unfold readId
    split
    · exact FailsOnly.ok _
    · exact FailsOnly.error nofun
  have hBalance : ∀ n, FailsOnly IsTimely (readBalance n) := by
    intro n
    unfold readBalance
    split
    · exact FailsOnly.ok _
    · exact FailsOnly.error (DatabaseFault.isTimely _)
  unfold toWallet
  exact (hNeed _ _).bind fun text => (hId text).bind fun id => (hNeed _ _).bind fun userId =>
    (hNeed _ _).bind fun n => (hBalance n).bind fun balance => (hNeed _ _).bind fun createdAt =>
      (hNeed _ _).bind fun updatedAt => (hNeed _ _).bind fun createdBy =>
        (hNeed _ _).bind fun updatedBy => FailsOnly.ok _

theorem requireRow_failsOnly (changed : Nat) : FailsOnly IsTimely (requireRow changed) := by
  unfold requireRow
  split
  · exact FailsOnly.error nofun
  · exact FailsOnly.ok ()

theorem firstWallet_failsOnly (rows : List Record) : FailsOnly IsTimely (firstWallet rows) := by
  cases rows with
  | nil => exact FailsOnly.ok none
  | cons r rows => exact r.failsOnly.map

theorem Inquiry.failsOnly {c : Call} {i : Inquiry c.Answer} (hInquiry : inquiry? c = some i)
    (answer : Except DatabaseFault i.statement.Answer) : FailsOnly IsTimely (i.result answer) := by
  cases answer with
  | error fault => exact FailsOnly.error fault.isTimely
  | ok answer =>
    cases c with
    | begin | commit | rollback | insert _ =>
      cases hInquiry
      exact FailsOnly.ok ()
    | add _ _ | addWithin _ _ =>
      cases hInquiry
      exact requireRow_failsOnly answer
    | lock _ _ | get _ =>
      cases hInquiry
      exact firstWallet_failsOnly answer
    | list _ =>
      cases hInquiry
      exact FailsOnly.mapM Record.failsOnly answer
    | claim _ | release _ | newId | readClock => cases hInquiry

-- ---------------------------------------------------------------------------
-- The calls of a transfer in their order
-- ---------------------------------------------------------------------------

/-- The call is made within a transaction and does not end it. -/
def IsInnerCall : Call → Prop
  | .lock _ _ | .addWithin _ _ => True
  | .begin | .commit | .rollback | .add _ _ | .insert _ | .get _ | .list _ | .claim _ | .release _
  | .newId | .readClock => False

variable {legs : Legs} {first second : Party} {log before after : List Exchange} {x : Exchange}
  {result outcome : Result Unit} {request : Option Transfer}

theorem isInnerCall_of_body (hBody : legs.Body first second log outcome) :
    ∀ y ∈ log, IsInnerCall y.call := by
  cases hBody <;> simp [reads, IsInnerCall]

/-- Each call of a transfer: the one that opens its transaction, one within it, or the one that ends
it, which is the last. -/
theorem exchange_of_protocol (hProtocol : legs.Protocol first second log result)
    (hLog : log = before ++ x :: after) :
    before = [] ∧ x.call = .begin ∨
      ∃ body, before = ⟨.begin, .ok ()⟩ :: body ∧ (∀ y ∈ body, IsInnerCall y.call) ∧
        (IsInnerCall x.call ∨ after = [] ∧ (x.call = .commit ∨ x.call = .rollback)) := by
  cases before with
  | nil =>
    left
    cases hProtocol with
    | notOpened e =>
      obtain rfl := (List.cons.inj hLog).1
      exact ⟨rfl, rfl⟩
    | closed hBody hClose =>
      obtain rfl := (List.cons.inj hLog).1
      exact ⟨rfl, rfl⟩
  | cons y before =>
    right
    cases hProtocol with
    | notOpened e => simp at hLog
    | @closed body outcome result close hBody hClose =>
      have hInner := isInnerCall_of_body hBody
      obtain ⟨rfl, hTail⟩ := List.cons.inj hLog
      have hRest : body ++ [close] = before ++ x :: after := hTail
      refine ⟨before, rfl, ?_⟩
      rcases List.eq_nil_or_concat after with rfl | ⟨after, z, rfl⟩
      · obtain ⟨rfl, hLast⟩ := List.append_inj' hRest rfl
        obtain rfl := (List.cons.inj hLast).1
        refine ⟨hInner, Or.inr ⟨rfl, ?_⟩⟩
        cases hClose with
        | committed | commitFailed => exact Or.inl rfl
        | undone => exact Or.inr rfl
      · rw [List.concat_eq_append, ← List.cons_append, ← List.append_assoc] at hRest
        obtain ⟨rfl, -⟩ := List.append_inj' hRest rfl
        exact ⟨fun y hMem => hInner y (by simp [hMem]), Or.inl (hInner x (by simp))⟩

/-- What a transfer under way has asked is the beginning of what its protocol allows. -/
theorem exists_protocol {p : Program Unit} (hAsked : Asked (transfer request) log p)
    (hMem : x ∈ log) :
    p.Meets fun rest result => ∃ legs first second,
      Legs.Protocol legs first second (log ++ rest) result := by
  cases hCheck : checked request with
  | error e =>
    have hNothing : (transfer request).Meets fun log _ => log = [] := by
      rw [transfer_eq, hCheck]
      exact Meets.done rfl
    have hNone := hNothing.after hAsked Unit (fun c s => (.error .cancelled, s)) ()
    rw [(List.append_eq_nil_iff.mp hNone).1] at hMem
    cases hMem
  | ok legs =>
    exact ((meets_transfer hCheck).after hAsked).mono fun hProtocol => ⟨_, _, _, hProtocol⟩

/-- Each call that a transfer has made, by the calls before it; once it has ended its transaction it is
done. -/
theorem exchange_of_asked {p : Program Unit} (hAsked : Asked (transfer request) log p)
    (hLog : log = before ++ x :: after) :
    before = [] ∧ x.call = .begin ∨
      ∃ body, before = ⟨.begin, .ok ()⟩ :: body ∧ (∀ y ∈ body, IsInnerCall y.call) ∧
        (IsInnerCall x.call ∨
          (x.call = .commit ∨ x.call = .rollback) ∧ ∃ result, p = .done result) := by
  have hMem : x ∈ log := by simp [hLog]
  let refusing : Collaborators Unit := fun c s => (.error .cancelled, s)
  obtain ⟨legs, first, second, hProtocol⟩ := exists_protocol hAsked hMem Unit refusing ()
  have hSplit : log ++ p.transcript refusing () =
      before ++ x :: (after ++ p.transcript refusing ()) := by
    rw [hLog, List.append_assoc, List.cons_append]
  rcases exchange_of_protocol hProtocol hSplit with hBegin | ⟨body, hBefore, hBody, hInner | hEnd⟩
  · exact Or.inl hBegin
  · exact Or.inr ⟨body, hBefore, hBody, Or.inl hInner⟩
  · refine Or.inr ⟨body, hBefore, hBody, Or.inr ⟨hEnd.2, ?_⟩⟩
    cases p with
    | done result => exact ⟨result, rfl⟩
    | call c next => simp [transcript] at hEnd

-- ---------------------------------------------------------------------------
-- What has been published
-- ---------------------------------------------------------------------------

variable {server : Server σ β} {p : Program Unit} {s s' s₀ : σ} {phase : Phase}

/-- What has been published, by the statements that have taken effect. -/
inductive Standing (server : Server σ β) (s₀ s : σ) (log : List Exchange) : Prop where
  | idle (hLog : log = []) (hIdle : ¬ server.isOpen s) (hUnpublished : server.Unpublished s₀ s)
  | notOpened {e : LedgerError} (hLog : log = [⟨.begin, .error e⟩])
      (hUnpublished : server.Unpublished s₀ s)
  | within {body : List Exchange} (hLog : log = ⟨.begin, .ok ()⟩ :: body)
      (hInner : ∀ x ∈ body, IsInnerCall x.call) (hOpen : server.isOpen s)
      (hUnpublished : server.Unpublished s₀ s)
  | undone {before : List Exchange} {answer : Result Unit}
      (hLog : log = before ++ [⟨.rollback, answer⟩]) (hUnpublished : server.Unpublished s₀ s)
  | committing {before : List Exchange} {answer : Result Unit}
      (hLog : log = before ++ [⟨.commit, answer⟩])

namespace Standing

/-- Other connections do not publish what this one has done. -/
theorem elsewhere (hServer : server.Transactional) (hStanding : Standing server s₀ s log)
    (hElse : server.elsewhere s s') : Standing server s₀ s' log := by
  have hSame := hServer.elsewhere_isOpen hElse
  cases hStanding with
  | idle hLog hIdle hUnpublished =>
    exact idle hLog (mt hSame.mp hIdle) (hUnpublished.elsewhere hElse)
  | notOpened hLog hUnpublished => exact notOpened hLog (hUnpublished.elsewhere hElse)
  | within hLog hInner hOpen hUnpublished =>
    exact within hLog hInner (hSame.mpr hOpen) (hUnpublished.elsewhere hElse)
  | undone hLog hUnpublished => exact undone hLog (hUnpublished.elsewhere hElse)
  | committing hLog => exact committing hLog

theorem of_nil (hStanding : Standing server s₀ s []) :
    ¬ server.isOpen s ∧ server.Unpublished s₀ s := by
  cases hStanding with
  | idle _ hIdle hUnpublished => exact ⟨hIdle, hUnpublished⟩
  | notOpened hLog => cases hLog
  | within hLog => cases hLog
  | undone hLog => simp at hLog
  | committing hLog => simp at hLog

theorem of_within {body : List Exchange}
    (hStanding : Standing server s₀ s (⟨.begin, .ok ()⟩ :: body))
    (hInner : ∀ x ∈ body, IsInnerCall x.call) :
    server.isOpen s ∧ server.Unpublished s₀ s := by
  -- a call that ends the transaction is none of those within it
  have hNot : ∀ {before : List Exchange} {x : Exchange}, ¬ IsInnerCall x.call → x.call ≠ .begin →
      (⟨.begin, .ok ()⟩ : Exchange) :: body ≠ before ++ [x] := by
    intro before x hEnds hNotBegin hLog
    have hMem : x ∈ (⟨.begin, .ok ()⟩ : Exchange) :: body := by simp [hLog]
    rcases List.mem_cons.mp hMem with rfl | hMem
    · exact hNotBegin rfl
    · exact hEnds (hInner x hMem)
  cases hStanding with
  | idle hLog => cases hLog
  | notOpened hLog => cases hLog
  | within _ _ hOpen hUnpublished => exact ⟨hOpen, hUnpublished⟩
  | undone hLog => exact absurd hLog (hNot id nofun)
  | committing hLog => exact absurd hLog (hNot id nofun)

theorem exists_inner {c : Call} {answer : Result c.Answer} (hInner : IsInnerCall c)
    (hServed : server.served? c s = some (answer, s')) :
    ∃ statement : Statement, statement.IsInner ∧ s' = (server.database statement s).2 := by
  cases c with
  | lock w user =>
    cases hServed
    exact ⟨.lock w user, trivial, rfl⟩
  | addWithin w amount =>
    cases hServed
    exact ⟨.add w amount, trivial, rfl⟩
  | begin | commit | rollback | add _ _ | insert _ | get _ | list _ | claim _ | release _ | newId
  | readClock => exact hInner.elim

/-- One more statement takes effect. -/
theorem effect (hServer : server.Transactional) (hStanding : Standing server s₀ s log)
    {c : Call} {answer : Result c.Answer} (hServed : server.served? c s = some (answer, s'))
    (hAsked : Asked (transfer request) (log ++ [⟨c, answer⟩]) p) :
    Standing server s₀ s' (log ++ [⟨c, answer⟩]) := by
  rcases exchange_of_asked hAsked rfl with ⟨rfl, hBegin⟩ | ⟨body, rfl, hBody, hInner | ⟨hEnd, -⟩⟩
  · -- the transaction is opened
    cases hBegin
    cases hServed
    obtain ⟨hIdle, hUnpublished⟩ := hStanding.of_nil
    have hCommitted := hServer.begin_committed hIdle
    cases hAnswer : (server.database .begin s).1 with
    | error fault => exact notOpened rfl (hUnpublished.congr hCommitted)
    | ok answer =>
      exact within rfl (by simp) (hServer.begin_isOpen hIdle hAnswer)
        (hUnpublished.congr hCommitted)
  · -- the statement is one within the transaction
    obtain ⟨hOpen, hUnpublished⟩ := hStanding.of_within hBody
    obtain ⟨statement, hStatement, rfl⟩ := exists_inner hInner hServed
    refine within rfl ?_ (hServer.inner_isOpen hStatement hOpen)
      (hUnpublished.congr (hServer.inner_committed hStatement hOpen))
    intro x hMem
    rcases List.mem_append.mp hMem with hMem | hMem
    · exact hBody x hMem
    · obtain rfl := List.mem_singleton.mp hMem
      exact hInner
  · -- the statement ends the transaction
    obtain ⟨hOpen, hUnpublished⟩ := hStanding.of_within hBody
    rcases hEnd with hCommit | hRollback
    · cases hCommit
      exact committing rfl
    · cases hRollback
      cases hServed
      exact undone rfl (hUnpublished.congr (hServer.rollback_committed hOpen))

end Standing

-- ---------------------------------------------------------------------------
-- Cancelled transfers
-- ---------------------------------------------------------------------------

/-- What is left of the program of a command. -/
def Phase.rest? : Phase → Option (Program Unit)
  | .sent p => some p
  | .answered _ answer next => some (next answer)
  | .ended _ => none

namespace Trip

theorem asked {rest : Program Unit} (hTrip : Trip server p s₀ log phase s)
    (hRest : phase.rest? = some rest) : Asked p log rest := by
  induction hTrip generalizing rest with
  | start =>
    obtain rfl := Option.some.inj hRest
    exact Asked.nothing
  | effect hTrip hServed ih =>
    obtain rfl := Option.some.inj hRest
    exact (ih rfl).next _
  | receive hTrip ih => exact ih hRest
  | finish | elapse => cases hRest
  | elsewhere hTrip hElse ih => exact ih hRest

/-- The statement whose answer is on the way is the last one that has taken effect. -/
theorem answered_last {c : Call} {answer : Result c.Answer} {next : Result c.Answer → Program Unit}
    (hTrip : Trip server p s₀ log (.answered c answer next) s) :
    ∃ before, log = before ++ [⟨c, answer⟩] := by
  generalize hPhase : Phase.answered c answer next = phase at hTrip
  induction hTrip with
  | @effect log c' next' _ _ answer' hTrip hServed ih =>
    cases hPhase
    exact ⟨log, rfl⟩
  | elsewhere hTrip hElse ih => exact ih hPhase
  | start | receive | finish | elapse => cases hPhase

theorem answers_isTimely (hTrip : Trip server p s₀ log phase s) :
    ∀ x ∈ log, ∀ e, x.error? = some e → IsTimely e := by
  induction hTrip with
  | start => simp
  | @effect log c next s s' answer hTrip hServed ih =>
    intro x hMem e hError
    rcases List.mem_append.mp hMem with hMem | hMem
    · exact ih x hMem e hError
    · obtain rfl := List.mem_singleton.mp hMem
      obtain ⟨i, hInquiry, hAnswer⟩ := Option.map_eq_some_iff.mp hServed
      have hFailed : answer = .error e := by
        cases answer with
        | ok a => cases hError
        | error e' => rw [Option.some.inj hError]
      refine Inquiry.failsOnly hInquiry (server.database i.statement s).1 e ?_
      rw [← hFailed]
      exact (Prod.mk.inj hAnswer).1
  | receive hTrip ih | finish hTrip ih | elapse hTrip _ ih | elsewhere hTrip _ ih => exact ih

/-- A transfer that has come to its end by itself is not answered that it was cancelled. -/
theorem result_isTimely
    (hTrip : Trip server (transfer request) s₀ log (.sent (.done result)) s) :
    FailsOnly IsTimely result := by
  have hMeets : (transfer request).Meets fun log result =>
      (∀ x ∈ log, ∀ e, x.error? = some e → IsTimely e) → FailsOnly IsTimely result := by
    cases hCheck : checked request with
    | error e =>
      rw [transfer_eq, hCheck]
      refine Meets.done fun _ => FailsOnly.error ?_
      cases request with
      | none =>
        cases hCheck
        nofun
      | some r =>
        have hValidation := r.check_failsOnly e hCheck
        rintro rfl
        cases hValidation
    | ok legs =>
      refine (meets_transfer hCheck).mono fun hProtocol hTimely e hError => ?_
      rcases hProtocol.error_eq hError with hFirst | ⟨_, _, _, hRefused⟩
      · obtain ⟨x, hMem, hFound⟩ := List.exists_of_findSome?_eq_some hFirst
        split at hFound
        · cases hFound
        · exact hTimely x hMem e hFound
      · cases hRefused <;> nofun
  have hAll := hMeets.after (hTrip.asked rfl) Unit (fun c s => (.error .cancelled, s)) ()
  simp only [transcript, List.append_nil] at hAll
  exact hAll hTrip.answers_isTimely

/-- What has been published, as long as the transfer is not over. -/
theorem standing (hServer : server.Transactional) (hIdle : ¬ server.isOpen s₀)
    (hTrip : Trip server (transfer request) s₀ log phase s)
    (hGoesOn : phase.rest?.isSome = true) : Standing server s₀ s log := by
  induction hTrip with
  | start => exact Standing.idle rfl hIdle Server.Unpublished.refl
  | effect hTrip hServed ih => exact (ih rfl).effect hServer hServed ((hTrip.effect hServed).asked rfl)
  | receive hTrip ih => exact ih rfl
  | finish | elapse => cases hGoesOn
  | elsewhere hTrip hElse ih => exact (ih hGoesOn).elsewhere hServer hElse

/-- A transfer that is answered that it was cancelled has published nothing, and never will: no
transaction is left open. The one exception is a commit that had taken effect when the deadline
passed, with its answer still on the way. -/
theorem unpublished_or_committing (hServer : server.Transactional) (hIdle : ¬ server.isOpen s₀)
    (hTrip : Trip server (transfer request) s₀ log (.ended (.error .cancelled)) s) :
    (server.Unpublished s₀ s ∧ ¬ server.isOpen s) ∨
      ∃ before answer next s₁, log = before ++ [⟨.commit, answer⟩] ∧
        Trip server (transfer request) s₀ log (.answered .commit answer next) s₁ := by
  generalize hPhase : Phase.ended (.error .cancelled) = phase at hTrip
  induction hTrip with
  | start | effect | receive => cases hPhase
  | finish hTrip =>
    cases hPhase
    exact absurd rfl (hTrip.result_isTimely .cancelled rfl)
  | elsewhere hTrip hElse ih =>
    rcases ih hPhase with ⟨hUnpublished, hClosed⟩ | hCommitting
    · exact Or.inl ⟨hUnpublished.elsewhere hElse, mt (hServer.elsewhere_isOpen hElse).mp hClosed⟩
    · exact Or.inr hCommitting
  | @elapse log phase s hTrip hWaits ih =>
    have hLeft : server.Unpublished s₀ s → server.Unpublished s₀ (server.hangUp s) ∧
        ¬ server.isOpen (server.hangUp s) := fun hUnpublished =>
      ⟨hUnpublished.congr (hServer.hangUp_committed s), hServer.hangUp_isOpen s⟩
    have hGoesOn : phase.rest?.isSome = true := by
      cases phase with
      | sent p => rfl
      | answered c answer next => rfl
      | ended result => exact hWaits.elim
    cases hTrip.standing hServer hIdle hGoesOn with
    | idle _ _ hUnpublished => exact Or.inl (hLeft hUnpublished)
    | notOpened _ hUnpublished => exact Or.inl (hLeft hUnpublished)
    | within _ _ _ hUnpublished => exact Or.inl (hLeft hUnpublished)
    | undone _ hUnpublished => exact Or.inl (hLeft hUnpublished)
    | @committing before answer hLog =>
      cases phase with
      | ended result => exact hWaits.elim
      | sent rest =>
        -- after its commit a transfer sends nothing
        rcases exchange_of_asked (hTrip.asked rfl) hLog with
          ⟨-, hBegin⟩ | ⟨_, -, -, hInner | ⟨-, result, rfl⟩⟩
        · cases hBegin
        · exact hInner.elim
        · exact hWaits.elim
      | answered c answer' next =>
        obtain ⟨before', hLast⟩ := hTrip.answered_last
        obtain ⟨-, hSame⟩ := List.append_inj' (hLog.symm.trans hLast) rfl
        cases (List.cons.inj hSame).1
        exact Or.inr ⟨before, answer, next, s, hLog, hTrip⟩

-- ---------------------------------------------------------------------------
-- Cancelled after the commit
-- ---------------------------------------------------------------------------

/-- A command that is left alone gets to where its last statement has taken effect. -/
theorem carried {others : Collaborators σ} (q : Program Unit)
    (hTrip : Trip server p s₀ log (.sent q) s)
    (hServed : ∀ x ∈ q.transcript (overDatabase server.database others) s,
      (inquiry? x.call).isSome = true)
    (hAsks : q.transcript (overDatabase server.database others) s ≠ []) :
    ∃ c answer next, Trip server p s₀ (log ++ q.transcript (overDatabase server.database others) s)
      (.answered c answer next) (q.run (overDatabase server.database others) s).2 := by
  induction q generalizing log s with
  | done result => exact absurd rfl hAsks
  | call c next ih =>
    rcases hAnswers : overDatabase server.database others c s with ⟨answer, s'⟩
    simp only [transcript, run, hAnswers, List.forall_mem_cons] at hServed ⊢
    obtain ⟨i, hInquiry⟩ := Option.isSome_iff_exists.mp hServed.1
    have hNow : server.served? c s = some (answer, s') := by
      rw [← hAnswers]
      simp [Server.served?, overDatabase, hInquiry]
    have hEffect := hTrip.effect hNow
    cases hNext : next answer with
    | done result => exact ⟨c, answer, next, hEffect⟩
    | call c' next' =>
      have hReceived := hEffect.receive
      have hLast := ih answer hReceived hServed.2 (by simp [hNext, transcript])
      rwa [hNext, List.append_assoc] at hLast

theorem transfer_served (request : Option Transfer) :
    (transfer request).Meets fun log _ => ∀ x ∈ log, (inquiry? x.call).isSome = true := by
  have hAll : ∀ {c : Call}, c = .begin ∨ IsInnerCall c ∨ c = .commit ∨ c = .rollback →
      (inquiry? c).isSome = true := by
    rintro c (rfl | hInner | rfl | rfl)
    · rfl
    · cases c <;> first | rfl | exact hInner.elim
    · rfl
    · rfl
  cases hCheck : checked request with
  | error e =>
    rw [transfer_eq, hCheck]
    exact Meets.done (by simp)
  | ok legs =>
    refine (meets_transfer hCheck).mono fun hProtocol x hMem => hAll ?_
    obtain ⟨before, after, hLog⟩ := List.append_of_mem hMem
    rcases exchange_of_protocol hProtocol hLog with ⟨-, hBegin⟩ | ⟨_, -, -, hInner | hEnd⟩
    · exact Or.inl hBegin
    · exact Or.inr (Or.inl hInner)
    · exact Or.inr (Or.inr hEnd.2)

/-- Where a transfer succeeds if it is left alone, it can as well be cancelled, with all that it has
published. -/
theorem exists_cancelled {others : Collaborators σ}
    (hOk : ((transfer request).run (overDatabase server.database others) s₀).1 = .ok ()) :
    ∃ log, Trip server (transfer request) s₀ log (.ended (.error .cancelled))
      (server.hangUp ((transfer request).run (overDatabase server.database others) s₀).2) := by
  have hServed := transfer_served request σ (overDatabase server.database others) s₀
  have hAsks : (transfer request).transcript (overDatabase server.database others) s₀ ≠ [] := by
    intro hNothing
    have hKeeps := transfer_keeps_protocol (overDatabase server.database others) s₀ request
    cases hCheck : checked request with
    | error e =>
      simp only [hCheck] at hKeeps
      rw [hKeeps.2] at hOk
      cases hOk
    | ok legs =>
      simp only [hCheck] at hKeeps
      obtain ⟨_, _, -, -, hCommit, -⟩ := hKeeps
      have hMem := hCommit.mp hOk
      rw [hNothing] at hMem
      cases hMem
  have hStart : Trip server (transfer request) s₀ [] (.sent (transfer request)) s₀ := .start
  obtain ⟨c, answer, next, hLast⟩ := hStart.carried _ hServed hAsks
  exact ⟨_, hLast.elapse trivial⟩

end Trip

-- ---------------------------------------------------------------------------
-- A server of wallets
-- ---------------------------------------------------------------------------

/-- A table of wallets with one connection to it. -/
def walletServer : Server WalletTable (List Record) where
  database := WalletTable.answer
  hangUp t := { t with rows := t.saved.getD t.rows, saved := none }
  elsewhere _ _ := False
  isOpen t := t.saved.isSome = true
  committed t := t.saved.getD t.rows

theorem walletServer_transactional : walletServer.Transactional where
  begin_committed {t} hIdle := by
    have hNone : t.saved = none := by simpa [walletServer] using hIdle
    simp [walletServer, WalletTable.answer, hNone]
  begin_isOpen _ _ := rfl
  inner_committed {t statement} hInner hOpen := by
    obtain ⟨saved, hSaved⟩ := Option.isSome_iff_exists.mp hOpen
    cases statement with
    | lock w user => rfl
    | add w amount =>
      simp only [walletServer, WalletTable.answer, WalletTable.add]
      split <;> simp [hSaved]
    | begin | commit | rollback | insert _ | get _ | list _ => exact hInner.elim
  inner_isOpen {t statement} hInner hOpen := by
    cases statement with
    | lock w user => exact hOpen
    | add w amount =>
      simp only [walletServer, WalletTable.answer, WalletTable.add]
      split <;> exact hOpen
    | begin | commit | rollback | insert _ | get _ | list _ => exact hInner.elim
  rollback_committed _ := rfl
  hangUp_committed _ := rfl
  hangUp_isOpen _ := by simp [walletServer]
  elsewhere_isOpen hElse := hElse.elim

/-- Two wallets, with a balance of ten and an empty one. -/
def twoWallets : WalletTable where
  now := default
  rows := [Record.ofWallet (Crowd.walletOf 1 (Crowd.coins 10)),
    Record.ofWallet (Crowd.walletOf 2 (Crowd.coins 0))]
  saved := none

/-- Four, from the first wallet to the second. -/
def four : Transfer where
  senderId := (UserId.ofNat 1).text
  senderWalletId := (WalletId.ofNat 1).text
  receiverId := (UserId.ofNat 2).text
  receiverWalletId := (WalletId.ofNat 2).text
  amount := Crowd.coins 4

/-- A transfer is answered that it was cancelled, and has been made: its commit had taken effect. -/
theorem cancelled_though_made :
    ∃ log s, Trip walletServer (transfer (some four)) twoWallets log
        (.ended (.error .cancelled)) s ∧
      (walletServer.committed twoWallets).map Record.balance = [some ⟨10, 0⟩, some ⟨0, 0⟩] ∧
      (walletServer.committed s).map Record.balance = [some ⟨6, 0⟩, some ⟨4, 0⟩] ∧
      ∃ before answer, log = before ++ [⟨.commit, answer⟩] := by
  let idle : Collaborators WalletTable := fun c t => (.error .cancelled, t)
  have hOk : ((transfer (some four)).run (overDatabase walletServer.database idle) twoWallets).1 =
      .ok () := by decide +kernel
  have hBefore : (walletServer.committed twoWallets).map Record.balance =
      [some ⟨10, 0⟩, some ⟨0, 0⟩] := by decide +kernel
  have hAfter : (walletServer.committed (walletServer.hangUp ((transfer (some four)).run
      (overDatabase walletServer.database idle) twoWallets).2)).map Record.balance =
      [some ⟨6, 0⟩, some ⟨4, 0⟩] := by decide +kernel
  have hIdle : ¬ walletServer.isOpen twoWallets := by simp [walletServer, twoWallets]
  obtain ⟨log, hTrip⟩ := Trip.exists_cancelled hOk
  refine ⟨log, _, hTrip, hBefore, hAfter, ?_⟩
  rcases hTrip.unpublished_or_committing walletServer_transactional hIdle with
    ⟨hUnpublished, -⟩ | ⟨before, answer, _, _, hLog, -⟩
  · -- nobody else is there, so what has changed was published by the transfer
    have hSame : ∀ {v v' : List Record}, Relation.ReflTransGen walletServer.Moves v v' → v = v' := by
      intro v v' hMoves
      induction hMoves with
      | refl => rfl
      | tail _ hMove => exact hMove.elim fun _ hMove => hMove.elim fun _ hMove => hMove.1.elim
    rw [← hSame hUnpublished, hBefore] at hAfter
    exact absurd hAfter (by decide)
  · exact ⟨before, answer, hLog⟩

end Purse.Remote
