import Purse.Proofs.Crowd.Basic

/-!
# What is left of a command

A transfer goes through a few stages, and at each of them one call comes next. `Stage.program` is
what is left of the transfer at a stage; a transfer that passes its checks is what is left at the
first one (`transferring_some`). A top-up makes two calls at most (`toppingUp_some`), a new wallet three
(`creation_some`), and a reader one (`program_wallet`, `program_userWallets`).

## Results

* `Stage.program_eq`: what is left at a stage is the stage's call, and what is left after it.
* `orderly_transferring`, `orderly_toppingUp`: both use their transactions in a possible order.
* `Command.program_induction`: what holds of all of these holds of every command.
-/

namespace Purse

theorem Program.bind_assoc {α β γ : Type} (p : Program α) (f : α → Program β)
    (g : β → Program γ) : (p.bind f).bind g = p.bind fun a => (f a).bind g := by
  induction p with
  | done result => cases result <;> rfl
  | call c next ih =>
    show Program.call c _ = Program.call c _
    rw [funext ih]

theorem Program.bind_eq {α β : Type} (p : Program α) (f : α → Program β) :
    p >>= f = p.bind f := rfl

theorem Program.bind_ok {α β : Type} (a : α) (f : α → Program β) :
    (Program.done (.ok a)).bind f = f a := rfl

-- ---------------------------------------------------------------------------
-- Transfers
-- ---------------------------------------------------------------------------

/-- Where a transfer stands between two calls. -/
inductive Stage where
  | opening
  | lockingFirst
  | lockingSecond (first : Option Wallet)
  | debiting (sender receiver : Wallet)
  | crediting (sender receiver : Wallet)
  | committing (sender receiver : Wallet)
  | undoing (e : LedgerError)

namespace Stage

/-- The call that a transfer makes next. -/
def call (legs : Legs) : Stage → Call
  | opening => .begin
  | lockingFirst => .lock legs.lockOrder.1.wallet legs.lockOrder.1.user
  | lockingSecond _ => .lock legs.lockOrder.2.wallet legs.lockOrder.2.user
  | debiting sender _ => .addWithin sender.id legs.amount.neg
  | crediting _ receiver => .addWithin receiver.id legs.amount
  | committing _ _ => .commit
  | undoing _ => .rollback

/-- Where a transfer stands once both wallets have been asked for. -/
def ofPair (legs : Legs) : Option Wallet × Option Wallet → Stage
  | (some sender, some receiver) =>
    if sender.balance.lt legs.amount then undoing .insufficientBalance
    else debiting sender receiver
  | _ => undoing .invalidUser

/-- The wallets of the sender and the receiver, by the order of locking. -/
@[irreducible] def pair (legs : Legs) (first second : Option Wallet) :
    Option Wallet × Option Wallet :=
  if legs.senderLocksFirst then (first, second) else (second, first)

/-- Where a transfer stands after an answer, or how it ends. -/
def after (legs : Legs) : (stage : Stage) → Result (stage.call legs).Answer → Stage ⊕ Result Unit
  | opening, .ok _ => .inl lockingFirst
  | opening, .error e => .inr (.error e)
  | lockingFirst, .ok first => .inl (lockingSecond first)
  | lockingSecond first, .ok second => .inl (ofPair legs (pair legs first second))
  | debiting sender receiver, .ok _ => .inl (crediting sender receiver)
  | crediting sender receiver, .ok _ => .inl (committing sender receiver)
  | committing _ _, answer => .inr answer
  | undoing e, _ => .inr (.error e)
  | lockingFirst, .error e | lockingSecond _, .error e | debiting _ _, .error e
  | crediting _ _, .error e => .inl (undoing e)

/-- A transfer whose transaction is open, with a part of its body still to be run. -/
def ending (body : Program Unit) : Program Reply := do
  let outcome ← body.attempt
  finish outcome
  return .unit

/-- What a transfer does once both wallets have been asked for. -/
def settle (legs : Legs) : Option Wallet × Option Wallet → Program Unit
  | (some sender, some receiver) =>
    if sender.balance.lt legs.amount then Program.fail .insufficientBalance
    else do
      let _ ← Program.ask (.addWithin sender.id legs.amount.neg)
      Program.ask (.addWithin receiver.id legs.amount)
  | _ => Program.fail .invalidUser

/-- What is left of a transfer. -/
def program (legs : Legs) : Stage → Program Reply
  | opening => do
    let _ ← Program.ask .begin
    ending (moveBalance legs)
  | lockingFirst => ending (moveBalance legs)
  | lockingSecond first => ending do
    let second ← lockParty legs.lockOrder.2
    settle legs (pair legs first second)
  | debiting sender receiver => ending do
    let _ ← Program.ask (.addWithin sender.id legs.amount.neg)
    Program.ask (.addWithin receiver.id legs.amount)
  | crediting _ receiver => ending (Program.ask (.addWithin receiver.id legs.amount))
  | committing _ _ => ending (return ())
  | undoing e => ending (Program.fail e)

/-- What is left of a transfer after an answer. -/
def rest (legs : Legs) : Stage ⊕ Result Unit → Program Reply
  | .inl stage => stage.program legs
  | .inr result => .done (result.map fun _ => .unit)

/-- Programs that make one call and go on alike are one program. -/
theorem call_congr {α : Type} {c : Call} {next next' : Result c.Answer → Program α}
    (hNext : ∀ answer, next answer = next' answer) : Program.call c next = .call c next' := by
  rw [funext hNext]

theorem ending_settle (legs : Legs) (wallets : Option Wallet × Option Wallet) :
    ending (settle legs wallets) = (ofPair legs wallets).program legs := by
  unfold settle ofPair
  split
  · split <;> rename_i hShort <;> simp only [hShort] <;> rfl
  · rfl

theorem ending_lockParty (legs : Legs) (p : Party) (go : Option Wallet → Program Unit) :
    ending ((lockParty p).bind go) = .call (.lock p.wallet p.user) fun
      | .ok found => ending (go found)
      | .error e => (undoing e).program legs := by
  refine call_congr fun answer => ?_
  cases answer <;> rfl

theorem moveBalance_eq (legs : Legs) :
    moveBalance legs = (lockParty legs.lockOrder.1).bind fun first =>
      (lockParty legs.lockOrder.2).bind fun second => settle legs (pair legs first second) := by
  show (lockWallets legs).bind (settle legs) = _
  unfold lockWallets pair
  generalize legs.senderLocksFirst = senderFirst
  refine call_congr fun answer => ?_
  cases answer with
  | error e => rfl
  | ok first =>
    refine call_congr fun answer => ?_
    cases answer <;> rfl

/-- What is left at a stage is the stage's call, and what is left after its answer. -/
theorem program_eq (legs : Legs) (stage : Stage) :
    stage.program legs =
      .call (stage.call legs) fun answer => rest legs (stage.after legs answer) := by
  cases stage with
  | lockingFirst =>
    -- the two locks are the only calls whose answers the body looks at
    show ending (moveBalance legs) = _
    rw [moveBalance_eq, ending_lockParty legs]
    refine call_congr fun answer => ?_
    cases answer <;> rfl
  | lockingSecond first =>
    show ending ((lockParty legs.lockOrder.2).bind fun second =>
      settle legs (pair legs first second)) = _
    rw [ending_lockParty legs]
    refine call_congr fun answer => ?_
    cases answer with
    | error e => rfl
    | ok second => exact ending_settle legs (pair legs first second)
  | _ =>
    refine call_congr fun answer => ?_
    cases answer <;> rfl

end Stage

/-- A transfer that passes its checks opens a transaction; any other ends at once. -/
theorem transferring_some (request : Transfer) :
    transferring (some request) =
      match request.check with
      | .ok legs => Stage.opening.program legs
      | .error e => .done (.error e) := by
  unfold transferring transfer
  simp only [Program.bind_eq, Program.need, Program.bind_ok, Program.bind_assoc]
  cases request.check with
  | error e => rfl
  | ok legs =>
    simp only [Program.bind_ok, Stage.program, Stage.ending, Program.bind_eq]

namespace Stage

variable {legs : Legs} {stage stage' : Stage}

/-- How many calls a transfer makes at most, from a stage on. -/
def callsLeft : Stage → Nat
  | opening => 7
  | lockingFirst => 6
  | lockingSecond _ => 5
  | debiting _ _ => 4
  | crediting _ _ => 3
  | committing _ _ => 2
  | undoing _ => 1

/-- With both wallets asked for a transfer is undone, or debits the sender. -/
theorem ofPair_cases (legs : Legs) (wallets : Option Wallet × Option Wallet) :
    (∃ e, ofPair legs wallets = undoing e) ∨
      ∃ sender receiver, wallets = (some sender, some receiver) ∧
        ofPair legs wallets = debiting sender receiver := by
  unfold ofPair
  split
  · next sender receiver =>
    split
    · exact Or.inl ⟨_, rfl⟩
    · exact Or.inr ⟨sender, receiver, rfl, rfl⟩
  · exact Or.inl ⟨_, rfl⟩

/-- Every answer leads a transfer on. -/
theorem callsLeft_after {answer : Result (stage.call legs).Answer}
    (hNext : stage.after legs answer = .inl stage') : stage'.callsLeft < stage.callsLeft := by
  cases stage with
  | lockingSecond first =>
    cases answer with
    | error e =>
      cases hNext
      simp [callsLeft]
    | ok second =>
      obtain rfl := Sum.inl.inj hNext
      obtain ⟨e, hUndoing⟩ | ⟨sender, receiver, -, hDebiting⟩ :=
        ofPair_cases legs (pair legs first second)
      · simp [hUndoing, callsLeft]
      · simp [hDebiting, callsLeft]
  | committing sender receiver => cases hNext
  | undoing e => cases hNext
  | opening | lockingFirst | debiting | crediting =>
    cases answer <;> cases hNext <;> simp [callsLeft]

/-- What holds of a stage if it holds of all that the stage can lead to holds of every stage. -/
theorem induction (legs : Legs) {motive : Stage → Prop}
    (hStep : ∀ stage, (∀ answer stage', stage.after legs answer = .inl stage' → motive stage') →
      motive stage) (stage : Stage) : motive stage := by
  induction hLeft : stage.callsLeft using Nat.strongRecOn generalizing stage with
  | ind n ih =>
    refine hStep stage fun answer stage' hNext => ih stage'.callsLeft ?_ stage' rfl
    rw [← hLeft]
    exact callsLeft_after hNext

theorem fits_call (legs : Legs) (stage : Stage) :
    (stage.call legs).fits ((stage.call legs).fits true) = true := by
  cases stage <;> rfl

/-- The transaction of a transfer is open from the first lock on to the end. -/
theorem leavesOpen_after (answer : Result (stage.call legs).Answer) :
    (stage.call legs).leavesOpen ((stage.call legs).fits true) answer =
      match stage.after legs answer with
      | .inl stage' => (stage'.call legs).fits true
      | .inr _ => false := by
  cases stage with
  | lockingSecond first =>
    cases answer with
    | error e => rfl
    | ok second =>
      obtain ⟨e, hUndoing⟩ | ⟨sender, receiver, -, hDebiting⟩ :=
        ofPair_cases legs (pair legs first second)
      · simp only [after, hUndoing]
        rfl
      · simp only [after, hDebiting]
        rfl
  | _ => cases answer <;> rfl

/-- A transfer makes each call when it can be made, from any stage on. -/
theorem orderly_program (legs : Legs) (stage : Stage) :
    (stage.program legs).Orderly ((stage.call legs).fits true) := by
  induction stage using Stage.induction legs with
  | hStep stage ih =>
    rw [program_eq]
    refine ⟨stage.fits_call legs, fun answer => ?_⟩
    show (rest legs (stage.after legs answer)).Orderly _
    rw [leavesOpen_after]
    cases hNext : stage.after legs answer with
    | inl stage' => exact ih answer stage' hNext
    | inr result => rfl

end Stage

theorem orderly_transferring (request : Option Transfer) :
    (transferring request).Orderly false := by
  cases request with
  | none => rfl
  | some request =>
    rw [transferring_some]
    cases request.check with
    | error e => rfl
    | ok legs => exact Stage.opening.orderly_program legs

-- ---------------------------------------------------------------------------
-- Top-ups
-- ---------------------------------------------------------------------------

namespace Topup

/-- What is left of a top-up whose key is claimed. -/
def applying (request : Topup) : Program Reply :=
  match request.check with
  | .ok wallet => .call (.add wallet request.amount) fun answer =>
      .done (answer.map fun _ => .unit)
  | .error e => .call (.release request.key) fun _ => .done (.error e)

/-- What is left of a top-up after the answer whether its key is in use. -/
def claimed (request : Topup) : Result Bool → Program Reply
  | .ok true => .done (.error .alreadyExists)
  | .ok false => request.applying
  | .error e => .done (.error e)

theorem bind_applyTopup (request : Topup) :
    (applyTopup request).bind (fun _ => .done (.ok .unit)) = request.applying := by
  unfold applyTopup applying
  cases request.check with
  | error e => rfl
  | ok wallet =>
    refine Stage.call_congr fun answer => ?_
    cases answer <;> rfl

end Topup

/-- A top-up with a key asks whether the key is in use. -/
theorem toppingUp_some (request : Topup) :
    toppingUp (some request) =
      if request.key.isEmpty then .done (.error .emptyWallet)
      else .call (.claim request.key) request.claimed := by
  unfold toppingUp topup
  simp only [Program.bind_eq, Program.need, Program.bind_ok]
  split
  · rfl
  · refine Stage.call_congr fun answer => ?_
    rcases answer with e | _ | _
    · rfl
    · exact request.bind_applyTopup
    · rfl

theorem Topup.orderly_claimed (request : Topup) (inUse : Result Bool) :
    (request.claimed inUse).Orderly false := by
  rcases inUse with e | _ | _
  · rfl
  · show request.applying.Orderly false
    unfold applying
    split
    · exact ⟨rfl, fun answer => by cases answer <;> rfl⟩
    · exact ⟨rfl, fun answer => by cases answer <;> rfl⟩
  · rfl

theorem orderly_toppingUp (request : Option Topup) : (toppingUp request).Orderly false := by
  cases request with
  | none => rfl
  | some request =>
    rw [toppingUp_some]
    split
    · rfl
    · exact ⟨rfl, request.orderly_claimed⟩

/-- Whatever an agent sets out to do, it has one transaction at a time. -/
theorem Job.orderly (job : Job) : job.program.Orderly false :=
  match job with
  | topup request => orderly_toppingUp request
  | transfer request => orderly_transferring request
  | other _ hOrderly => hOrderly

-- ---------------------------------------------------------------------------
-- New wallets and readers
-- ---------------------------------------------------------------------------

/-- A new wallet that passes its checks has no balance below zero. -/
theorem NewWallet.check_ok {request : NewWallet} {user : UserId} (hCheck : request.check = .ok user) :
    request.balance.isBelowZero = false := by
  unfold check at hCheck
  split at hCheck
  · simp at hCheck
  · split at hCheck
    · simp at hCheck
    · next hNot => simpa using hNot

theorem create_some (request : NewWallet) :
    create (some request) = (Program.done request.check).bind fun user =>
      (Program.ask .newId).bind fun id => (Program.ask .readClock).bind fun now =>
        (Program.ask (.insert (Wallet.opened id user request.balance now))).bind fun _ =>
          .done (.ok (Wallet.opened id user request.balance now)) := by
  unfold create
  simp only [Program.bind_eq, Program.need, Program.bind_ok]
  rfl

/-- What is left of a new wallet's making once its id and the time are known. -/
def NewWallet.storing (request : NewWallet) (user : UserId) (id : WalletId) (now : Timestamp) :
    Program Reply :=
  let wallet := Wallet.opened id user request.balance now
  .call (.insert wallet) fun answer => .done (answer.map fun _ => .wallet wallet)

/-- A new wallet that passes its checks gets its id and its time, and is stored. -/
theorem creation_some (request : NewWallet) :
    creation (some request) =
      match request.check with
      | .error e => .done (.error e)
      | .ok user => .call .newId fun
        | .error e => .done (.error e)
        | .ok id => .call .readClock fun
          | .error e => .done (.error e)
          | .ok now => request.storing user id now := by
  unfold creation
  rw [create_some, Program.bind_eq, Program.bind_assoc]
  cases request.check with
  | error e => rfl
  | ok user =>
    refine Stage.call_congr fun answer => ?_
    cases answer with
    | error e => rfl
    | ok id =>
      refine Stage.call_congr fun answer => ?_
      cases answer with
      | error e => rfl
      | ok now =>
        refine Stage.call_congr fun answer => ?_
        cases answer <;> rfl

theorem program_wallet (walletId : String) :
    (Command.wallet walletId).program =
      match WalletId.parseTrimmed? walletId with
      | none => .done (.error .emptyWallet)
      | some id => .call (.get id) fun answer => .done (answer.map .found) := by
  simp only [Command.program, Program.bind_eq]
  cases WalletId.parseTrimmed? walletId with
  | none => rfl
  | some id =>
    refine Stage.call_congr fun answer => ?_
    cases answer <;> rfl

theorem program_userWallets (userId : String) :
    (Command.userWallets userId).program =
      match UserId.parseTrimmed? userId with
      | none => .done (.error .invalidUser)
      | some user => .call (.list user) fun answer => .done (answer.map .listed) := by
  simp only [Command.program, Program.bind_eq]
  cases UserId.parseTrimmed? userId with
  | none => rfl
  | some user =>
    refine Stage.call_congr fun answer => ?_
    cases answer <;> rfl

/-- What holds of each of the requests, and of a reader that is refused or makes its one call, holds of
every command. -/
theorem Command.program_induction (P : Program Reply → Prop) (c : Command)
    (hCreation : ∀ userId, c = .createWallet userId → ∀ request, P (creation request))
    (hTopup : ∀ r, c = .topup r → ∀ request, P (toppingUp request))
    (hTransfer : ∀ r, c = .transfer r → ∀ request, P (transferring request))
    (hRefused : ∀ e, P (.done (.error e)))
    (hGet : ∀ id, P (.call (.get id) fun answer => .done (answer.map .found)))
    (hList : ∀ user, P (.call (.list user) fun answer => .done (answer.map .listed))) :
    P c.program := by
  -- of any request: a given one would be checked where two programs are compared
  cases c with
  | createWallet userId => exact hCreation userId rfl (some (.forUser userId))
  | topup r => exact hTopup r rfl (some r)
  | transfer r => exact hTransfer r rfl (some r)
  | wallet walletId =>
    rw [program_wallet]
    split
    · exact hRefused _
    · exact hGet _
  | userWallets userId =>
    rw [program_userWallets]
    split
    · exact hRefused _
    · exact hList _

end Purse
