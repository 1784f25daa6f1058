import Purse.Service.Topup
import Purse.Proofs.Crowd.Programs
import Purse.Proofs.Service.Transcript

/-!
# The calls of a top-up

What a top-up asks of its collaborators, whatever they answer. It asks nothing without a key. With one
it claims the key first, and goes on only if the key was free: it gives the key back if the request
fails its checks, and adds the amount if it passes them. So nothing is added without a claim of one's
own, and a key is given back only by the request that has just claimed it and has added nothing.

## Definitions

* `Call.Updates`: the calls that change a balance.
* `Topup.Valid`, `Topup.Refused`: the requests that pass the checks, and the error of the others.
* `Topup.Protocol`: all that a top-up asks, and its result.

## Results

* `Topup.check_eq_ok_iff`, `Topup.check_eq_error_iff`: the checks, by what the fields hold.
* `Topup.Protocol.update_after_claim`, `Topup.Protocol.release_after_claim`: what comes before and
  after a call, read off the transcript.
* `topup_keeps_protocol`: all of it.
-/

namespace Purse

open Program

-- ---------------------------------------------------------------------------
-- Blank texts
-- ---------------------------------------------------------------------------

theorem trim_eq_empty {text : String} (hBlank : isBlankText text = true) : trim text = "" := by
  have hNone : trimmed text.toList = [] := List.isEmpty_iff.mp hBlank
  rw [trim, hNone]

theorem isEmpty_trim (text : String) : (trim text).isEmpty = isBlankText text := by
  rw [Bool.eq_iff_iff, String.isEmpty_iff]
  constructor
  · intro hEmpty
    have hNone : trimmed text.toList = [] := String.ofList_injective hEmpty
    exact List.isEmpty_iff.mpr hNone
  · exact trim_eq_empty

/-- No blank text is a wallet id. -/
theorem WalletId.isBlankText_eq_false {text : String} {id : WalletId}
    (hParse : parseTrimmed? text = some id) : isBlankText text = false := by
  by_contra hBlank
  have hEmpty : trim text = "" := trim_eq_empty (by simpa using hBlank)
  have hNone : (parse "").toOption = none := by decide
  rw [parseTrimmed?, hEmpty, hNone] at hParse
  cases hParse

/-- No blank text is a user id. -/
theorem UserId.isBlankText_eq_false {text : String} {id : UserId}
    (hParse : parseTrimmed? text = some id) : isBlankText text = false := by
  by_contra hBlank
  have hEmpty : trim text = "" := trim_eq_empty (by simpa using hBlank)
  have hNone : parse? "" = none := by decide
  rw [parseTrimmed?, hEmpty, hNone] at hParse
  cases hParse

-- ---------------------------------------------------------------------------
-- The checks of a request
-- ---------------------------------------------------------------------------

namespace Topup

variable {r : Topup} {w : WalletId} {e : LedgerError}

/-- The request names the wallet and a user, and its amount is not zero. -/
structure Valid (r : Topup) (w : WalletId) : Prop where
  wallet : WalletId.parseTrimmed? r.walletId = some w
  user : ∃ user, UserId.parseTrimmed? r.userId = some user
  amount : r.amount.isZero = false

/-- The error that a request is refused with. What is missing counts before what is malformed, and
the wallet before the user before the amount. -/
inductive Refused (r : Topup) : LedgerError → Prop where
  | noWallet (hWallet : isBlankText r.walletId = true) : Refused r .emptyWallet
  | noUser (hWallet : isBlankText r.walletId = false) (hUser : isBlankText r.userId = true) :
      Refused r .invalidUser
  | noAmount (hWallet : isBlankText r.walletId = false) (hUser : isBlankText r.userId = false)
      (hAmount : r.amount.isZero = true) : Refused r .invalidAmount
  | malformedWallet (hWallet : isBlankText r.walletId = false)
      (hUser : isBlankText r.userId = false) (hAmount : r.amount.isZero = false)
      (hMalformed : WalletId.parseTrimmed? r.walletId = none) : Refused r .emptyWallet
  | malformedUser (hUser : isBlankText r.userId = false) (hAmount : r.amount.isZero = false)
      {w : WalletId} (hWallet : WalletId.parseTrimmed? r.walletId = some w)
      (hMalformed : UserId.parseTrimmed? r.userId = none) : Refused r .invalidUser

/-- What the checks come to, one after the other. -/
theorem check_spec (r : Topup) :
    match r.check with
    | .ok w => r.Valid w
    | .error e => r.Refused e := by
  unfold check
  cases hWallet : isBlankText r.walletId with
  | true => exact Refused.noWallet hWallet
  | false =>
    cases hUser : isBlankText r.userId with
    | true => exact Refused.noUser hWallet hUser
    | false =>
      cases hAmount : r.amount.isZero with
      | true => exact Refused.noAmount hWallet hUser hAmount
      | false =>
        cases hWalletId : WalletId.parseTrimmed? r.walletId with
        | none => exact Refused.malformedWallet hWallet hUser hAmount hWalletId
        | some w =>
          cases hUserId : UserId.parseTrimmed? r.userId with
          | none => exact Refused.malformedUser hUser hAmount hWalletId hUserId
          | some user => exact ⟨hWalletId, ⟨user, hUserId⟩, hAmount⟩

/-- A request passes its checks exactly if it is valid: a field that can be read is not blank. -/
theorem check_eq_ok_iff : r.check = .ok w ↔ r.Valid w := by
  constructor
  · intro hCheck
    have hSpec := check_spec r
    rwa [hCheck] at hSpec
  · rintro ⟨hWallet, ⟨user, hUser⟩, hAmount⟩
    have hWalletThere := WalletId.isBlankText_eq_false hWallet
    have hUserThere := UserId.isBlankText_eq_false hUser
    simp [check, hWalletThere, hUserThere, hAmount, hWallet, hUser]

theorem check_eq_error_iff : r.check = .error e ↔ r.Refused e := by
  constructor
  · intro hCheck
    have hSpec := check_spec r
    rwa [hCheck] at hSpec
  · intro hRefused
    cases hRefused with
    | noWallet hWallet => simp [check, hWallet]
    | noUser hWallet hUser => simp [check, hWallet, hUser]
    | noAmount hWallet hUser hAmount => simp [check, hWallet, hUser, hAmount]
    | malformedWallet hWallet hUser hAmount hMalformed =>
      simp [check, hWallet, hUser, hAmount, hMalformed]
    | malformedUser hUser hAmount hWallet hMalformed =>
      have hThere := WalletId.isBlankText_eq_false hWallet
      simp [check, hThere, hUser, hAmount, hWallet, hMalformed]

/-- A request is refused over its own content. -/
theorem Refused.isValidation (hRefused : r.Refused e) : e.isValidation = true := by
  cases hRefused <;> rfl

end Topup

-- ---------------------------------------------------------------------------
-- What a top-up asks
-- ---------------------------------------------------------------------------

/-- The call adds to the balance of a wallet, within a transaction or at once. -/
def Call.Updates (c : Call) (w : WalletId) (amount : Decimal) : Prop :=
  c = .add w amount ∨ c = .addWithin w amount

namespace Topup

/-- The claim of a request's key that found the key free. -/
def freshClaim (r : Topup) : Exchange := ⟨.claim r.key, .ok false⟩

/-- All that a top-up asks once it has a key, and its result. -/
inductive Protocol (r : Topup) : List Exchange → Result Unit → Prop where
  | claimFailed (e : LedgerError) : Protocol r [⟨.claim r.key, .error e⟩] (.error e)
  | inUse : Protocol r [⟨.claim r.key, .ok true⟩] (.error .alreadyExists)
  /-- Whatever the release is answered, the error of the checks stays. -/
  | givenBack {e : LedgerError} (hRefused : r.Refused e) (answer : Result Unit) :
      Protocol r [r.freshClaim, ⟨.release r.key, answer⟩] (.error e)
  /-- What the update is answered is the result. -/
  | added {w : WalletId} (hValid : r.Valid w) (answer : Result Unit) :
      Protocol r [r.freshClaim, ⟨.add w r.amount, answer⟩] answer

variable {r : Topup} {w : WalletId} {amount : Decimal} {key : String} {result : Result Unit}
  {log before after : List Exchange} {x y z : Exchange}

theorem split_of_pair (hLog : [y, z] = before ++ x :: after) (hOther : x ≠ y) :
    before = [y] ∧ x = z ∧ after = [] := by
  cases before with
  | nil => exact absurd (List.cons.inj hLog).1.symm hOther
  | cons y' before =>
    obtain ⟨rfl, hRest⟩ := List.cons.inj hLog
    have hOne : before ++ x :: after = [z] := hRest.symm
    rw [List.append_eq_singleton_iff] at hOne
    rcases hOne with ⟨rfl, hOne⟩ | ⟨-, hNone⟩
    · obtain ⟨rfl, rfl⟩ := List.cons.inj hOne
      exact ⟨rfl, rfl, rfl⟩
    · cases hNone

/-- Each call of a top-up: it is the claim of the key, or comes right after a fresh claim and is the
last one. -/
theorem Protocol.exchange (hProtocol : r.Protocol log result) (hLog : log = before ++ x :: after) :
    (∃ answer, x = ⟨.claim r.key, answer⟩) ∨
      before = [r.freshClaim] ∧ after = [] ∧
        ((∃ e answer, r.Refused e ∧ x = ⟨.release r.key, answer⟩) ∨
          ∃ w answer, r.Valid w ∧ x = ⟨.add w r.amount, answer⟩) := by
  have hMem : x ∈ log := by rw [hLog]; simp
  cases hProtocol with
  | claimFailed e => exact Or.inl ⟨_, List.mem_singleton.mp hMem⟩
  | inUse => exact Or.inl ⟨_, List.mem_singleton.mp hMem⟩
  | givenBack hRefused answer =>
    by_cases hClaim : x = r.freshClaim
    · exact Or.inl ⟨_, hClaim⟩
    · obtain ⟨hBefore, hRelease, hAfter⟩ := split_of_pair hLog hClaim
      exact Or.inr ⟨hBefore, hAfter, Or.inl ⟨_, _, hRefused, hRelease⟩⟩
  | added hValid =>
    by_cases hClaim : x = r.freshClaim
    · exact Or.inl ⟨_, hClaim⟩
    · obtain ⟨hBefore, hAdd, hAfter⟩ := split_of_pair hLog hClaim
      exact Or.inr ⟨hBefore, hAfter, Or.inr ⟨_, _, hValid, hAdd⟩⟩

/-- Nothing is added without a fresh claim, and then only the amount of a valid request. -/
theorem Protocol.update_after_claim (hProtocol : r.Protocol log result)
    (hLog : log = before ++ x :: after) (hUpdate : x.call.Updates w amount) :
    r.Valid w ∧ amount = r.amount ∧ before = [r.freshClaim] ∧ after = [] := by
  rcases hProtocol.exchange hLog with
    ⟨_, rfl⟩ | ⟨hBefore, hAfter, ⟨e, _, _, rfl⟩ | ⟨w', _, hValid, rfl⟩⟩
  · rcases hUpdate with hAdd | hAdd <;> cases hAdd
  · rcases hUpdate with hAdd | hAdd <;> cases hAdd
  · rcases hUpdate with hAdd | hAdd <;> cases hAdd
    exact ⟨hValid, rfl, hBefore, hAfter⟩

/-- A key is given back right after it was claimed, with nothing added in between or later. -/
theorem Protocol.release_after_claim (hProtocol : r.Protocol log result)
    (hLog : log = before ++ x :: after) (hRelease : x.call = .release key) :
    key = r.key ∧ (∃ e, r.Refused e) ∧ before = [r.freshClaim] ∧ after = [] := by
  rcases hProtocol.exchange hLog with
    ⟨_, rfl⟩ | ⟨hBefore, hAfter, ⟨e, _, hRefused, rfl⟩ | ⟨w, _, _, rfl⟩⟩
  · cases hRelease
  · cases hRelease
    exact ⟨rfl, ⟨e, hRefused⟩, hBefore, hAfter⟩
  · cases hRelease

end Topup

/-- The request of a top-up, if it is there and its key is not blank. -/
def keyed (request : Option Topup) : Option Topup :=
  request.filter fun r => !isBlankText r.idempotencyKey

theorem topup_of_keyed {request : Option Topup} {r : Topup} (hKeyed : keyed request = some r) :
    topup request = (ask (.claim r.key)).bind fun inUse : Bool =>
      if inUse then Program.fail .alreadyExists else applyTopup r := by
  obtain ⟨rfl, hKey⟩ := Option.filter_eq_some_iff.mp hKeyed
  have hThere : r.key.isEmpty = false := by
    rw [Topup.key, isEmpty_trim]
    simpa using hKey
  simp only [topup, Program.need, Program.bind_eq, Program.bind_ok, hThere]
  rfl

theorem topup_of_keyed_eq_none {request : Option Topup} (hKeyed : keyed request = none) :
    topup request = Program.fail .emptyWallet := by
  cases request with
  | none => rfl
  | some r =>
    have hBlank : isBlankText r.idempotencyKey = true := by
      simpa using Option.filter_eq_none_iff.mp hKeyed r rfl
    have hEmpty : r.key.isEmpty = true := by rw [Topup.key, isEmpty_trim, hBlank]
    simp only [topup, Program.need, Program.bind_eq, Program.bind_ok, hEmpty]
    rfl

/-- What follows a fresh claim. -/
theorem meets_applyTopup (r : Topup) :
    (applyTopup r).Meets fun log result => r.Protocol (r.freshClaim :: log) result := by
  unfold applyTopup
  cases hCheck : r.check with
  | ok w => exact Meets.ask fun answer => Topup.Protocol.added (Topup.check_eq_ok_iff.mp hCheck) answer
  | error e =>
    have hRefused : r.Refused e := Topup.check_eq_error_iff.mp hCheck
    refine Meets.attempt_ask_bind fun answer => ?_
    exact Meets.done (Topup.Protocol.givenBack hRefused answer)

theorem meets_topup {request : Option Topup} {r : Topup} (hKeyed : keyed request = some r) :
    (topup request).Meets r.Protocol := by
  rw [topup_of_keyed hKeyed]
  refine Meets.ask_bind (fun inUse => ?_) fun e => Topup.Protocol.claimFailed e
  cases inUse with
  | true => exact Meets.done Topup.Protocol.inUse
  | false => exact meets_applyTopup r

/-- Whatever its collaborators answer, a top-up asks nothing without a key, and otherwise keeps to
the protocol. A balance is changed only after a fresh claim of the request's own key, and that key is
given back only right after such a claim. -/
theorem topup_keeps_protocol {σ : Type} (answer : Collaborators σ) (s : σ)
    (request : Option Topup) :
    match keyed request, (topup request).transcript answer s,
      ((topup request).run answer s).1 with
    | none, log, result => log = [] ∧ result = .error .emptyWallet
    | some r, log, result => r.Protocol log result ∧
        ∀ before x after, log = before ++ x :: after →
          (∀ w amount, x.call.Updates w amount →
            r.Valid w ∧ amount = r.amount ∧ before = [r.freshClaim] ∧ after = []) ∧
          (∀ key, x.call = .release key →
            key = r.key ∧ (∃ e, r.Refused e) ∧ before = [r.freshClaim] ∧ after = []) := by
  cases hKeyed : keyed request with
  | none =>
    rw [topup_of_keyed_eq_none hKeyed]
    exact ⟨rfl, rfl⟩
  | some r =>
    have hProtocol := meets_topup hKeyed σ answer s
    refine ⟨hProtocol, fun before x after hLog => ⟨?_, ?_⟩⟩
    · intro w amount hUpdate
      exact hProtocol.update_after_claim hLog hUpdate
    · intro key hRelease
      exact hProtocol.release_after_claim hLog hRelease

end Purse
