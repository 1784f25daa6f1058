import Purse.Proofs.Crowd.CreationVerdict
import Purse.Proofs.Crowd.Locality
import Purse.Proofs.Crowd.TopupVerdict
import Purse.Proofs.Crowd.TransferVerdict

/-!
# Ledgers that commands do not tell apart

Two idle ledgers may differ in what no command sees: in the times of wallets, in claims that have ended,
and in the last id of a mint that starts afresh (`Ledger.Twin`). Commands over them end alike, as long as
the wall clock stands still and they get the same random bits, and leave such ledgers again. And a command
that is refused leaves such a ledger by itself, unless it is a top-up that its wallet refuses: such a one
keeps its key.

## Definitions

* `Ledger.Twin`: two ledgers that commands do not tell apart.
* `Command.isRefusedByWallet`: a top-up is refused by its wallet, not over its own content or its key.

## Results

* `Twin.execute`: a command over both.
* `Twin.refused`: a command over one of them that is refused.
-/

namespace Purse

open Store Schedule

-- ---------------------------------------------------------------------------
-- Ledgers that commands do not tell apart
-- ---------------------------------------------------------------------------

/-- No command tells two idle ledgers apart while the clock reads a millisecond: they have the same wallets,
but for their times, the same live claims and the same ids to come. The mint of the first one is past all
its wallets, as far as ids ascend. -/
structure Ledger.Twin (expiry : Instant) (ms : Nat) (l l' : Ledger) : Prop where
  idle : l.Idle expiry
  idle' : l'.Idle expiry
  wallets : WalletsAlike l.store.wallet? l'.store.wallet?
  keys : Keys.Same l.now l.keys l'.keys
  now : l'.now = l.now
  mint : Mint.Same ms l.mint l'.mint
  ahead : l.Ahead ms

theorem Ledger.Idle.unlocked {l : Ledger} {expiry : Instant} (hIdle : l.Idle expiry) : l.Unlocked :=
  ⟨hIdle.resting, hIdle.unhindered.failing⟩

theorem Ledger.Idle.clear {l : Ledger} {expiry : Instant} (hIdle : l.Idle expiry) (r : Topup) :
    r.Clear l := by
  refine ⟨hIdle.unhindered.failing, hIdle.resting.keyed, fun _ hRow => ?_⟩
  rw [hIdle.resting.free hRow]
  rfl

/-- A command that has been run to its end over an idle ledger has left an idle one. -/
theorem Schedule.idle_of_execute {s t : Schedule} {c : Command} {env : Surroundings}
    {expiry : Instant} {deadline : Option Instant} {r : Result Reply} (hIdle : s.ledger.Idle expiry)
    (hExecute : s.execute env c.program deadline = (t, .result r, [])) :
    t.ledger.Idle expiry ∧ c.Leaves s.ledger.store.wallet? t.ledger.store.wallet? r := by
  obtain ⟨r', t', hEnded, hIdle', hLeaves⟩ | ⟨fault, t', hFaulted, -⟩ :=
    idle_execute hIdle c env deadline
  · obtain ⟨rfl, hResult⟩ := Prod.mk.inj (hEnded.symm.trans hExecute)
    cases hResult
    exact ⟨hIdle', hLeaves⟩
  · cases hFaulted.symm.trans hExecute

/-- A command that does not only look something up is a payment or makes a wallet. -/
theorem Command.payment_or_creation {c : Command} (hWriter : c.isReader = false) :
    (∃ p : Payment, c = p.command) ∨ ∃ userId, c = .createWallet userId := by
  cases c with
  | createWallet userId => exact Or.inr ⟨userId, rfl⟩
  | topup r => exact Or.inl ⟨.topup r, rfl⟩
  | transfer r => exact Or.inl ⟨.transfer r, rfl⟩
  | wallet | userWallets => cases hWriter

/-- Whether a command is a top-up that is refused by its wallet, or for want of one, and not before. -/
def Command.isRefusedByWallet (l : Ledger) : Command → Bool
  | topup r => match r.fate l with
    | .refused _ => true
    | .keyless | .inUse | .beyond | .flawed _ | .applied _ => false
  | createWallet _ | transfer _ | wallet _ | userWallets _ => false

namespace Payment

variable {p : Payment}

/-- A payment makes no wallet. -/
theorem isSome_of_leaves {wallet? wallet?' : WalletId → Option Wallet} {r : Result Reply}
    (hLeaves : p.command.Leaves wallet? wallet?' r) (id : WalletId) :
    (wallet?' id).isSome = (wallet? id).isSome := by
  cases r with
  | error e =>
    have hSame : wallet?' = wallet? := by cases p <;> exact hLeaves
    rw [hSame]
  | ok reply =>
    cases p with
    | topup r => exact Job.Does.isSome_eq hLeaves.2 id
    | transfer r => exact Job.Does.isSome_eq hLeaves.2 id

end Payment

/-- A payment that is refused, other than a top-up by its wallet, leaves the live claims. -/
theorem Payment.same_keys {p : Payment} {s t : Schedule} {env : Surroundings} {expiry : Instant}
    {deadline : Option Instant} {e : LedgerError} (hIdle : s.ledger.Idle expiry)
    (hSpared : p.command.isRefusedByWallet s.ledger = false)
    (hExecute : s.execute env p.command.program deadline = (t, .result (.error e), [])) :
    Keys.Same s.ledger.now s.ledger.keys t.ledger.keys := by
  cases p with
  | transfer r =>
    obtain ⟨t', hEnded, -, hKeeps, -⟩ :=
      Schedule.execute_transfer hIdle.resting hIdle.unhindered r env deadline
    obtain rfl := (Prod.mk.inj (hEnded.symm.trans hExecute)).1
    rw [hKeeps.keys]
    exact .refl _ _
  | topup r =>
    obtain ⟨t', hEnded, hLeaves, -⟩ :=
      Schedule.execute_topup (hIdle.clear r) env deadline
    obtain ⟨rfl, hEnding⟩ := Prod.mk.inj (hEnded.symm.trans hExecute)
    rw [hLeaves.keys]
    cases hFate : r.fate s.ledger with
    | keyless | inUse => exact .refl _ _
    | flawed e => exact Keys.same_release (Topup.isLive_of_flawed hFate)
    | refused e =>
      rw [Payment.command, Command.isRefusedByWallet, hFate] at hSpared
      cases hSpared
    | beyond | applied =>
      rw [hFate] at hEnding
      cases hEnding

namespace Ledger.Twin

variable {expiry : Instant} {ms : Nat} {env env' : Surroundings} {s s' t : Schedule} {l' : Ledger}
  {deadline deadline' : Option Instant}

theorem agree (hTwin : Twin expiry ms s.ledger s'.ledger) (p : Payment) :
    p.Agree s.ledger s'.ledger := by
  refine ⟨fun id _ => hTwin.wallets id, fun id _ => ?_, fun key _ => hTwin.keys.isLive_eq key,
    hTwin.now, hTwin.keys.lifetime⟩
  rw [hTwin.idle.unhindered.armed, hTwin.idle'.unhindered.armed]

/-- A payment leaves the live claims the same that were the same before. -/
theorem keys_of_paired {p : Payment} {l l' m m' : Ledger} (hSame : Keys.Same l.now l.keys l'.keys)
    (hSpares : p.Spares l m) (hSpares' : p.Spares l' m')
    (hPaired : ∀ key, p.scope.key? = some key → Paired key l.keys l'.keys m.keys m'.keys) :
    Keys.Same m.now m.keys m'.keys := by
  rw [hSpares.now]
  refine ⟨?_, fun key => ?_⟩
  · rw [hSpares.lifetime, hSpares'.lifetime, hSame.lifetime]
  · have hKept : m.keys.claims.get? key = l.keys.claims.get? key →
        m'.keys.claims.get? key = l'.keys.claims.get? key →
        m'.keys.live? l.now key = m.keys.live? l.now key := by
      intro hGet hGet'
      have hBefore := hSame.live key
      unfold Keys.live? at hBefore ⊢
      rw [hGet, hGet', hBefore]
    by_cases hOwn : p.scope.key? = some key
    · rcases hPaired key hOwn with ⟨hGet, hGet'⟩ | hEqual
      · exact hKept hGet hGet'
      · unfold Keys.live?
        rw [hEqual]
    · exact hKept (hSpares.claims key hOwn) (hSpares'.claims key hOwn)

/-- A payment ends alike, and leaves such ledgers again unless it breaks down. -/
theorem pay (hTwin : Twin expiry ms s.ledger s'.ledger) (p : Payment) (env env' : Surroundings)
    (deadline deadline' : Option Instant) :
    ∃ ending t t', s.execute env p.command.program deadline = (t, ending, []) ∧
      s'.execute env' p.command.program deadline' = (t', ending, []) ∧
      WalletsAlike t.ledger.store.wallet? t'.ledger.store.wallet? ∧
      ∀ r, ending = .result r → Twin expiry ms t.ledger t'.ledger := by
  obtain ⟨ending, t, t', hExecute, hExecute', ⟨-, hSpares⟩, ⟨-, hSpares'⟩, hNamed, hPaired⟩ :=
    Payment.execute_alike hTwin.idle.unlocked hTwin.idle'.unlocked (hTwin.agree p) env env' deadline
      deadline'
  have hWallets : WalletsAlike t.ledger.store.wallet? t'.ledger.store.wallet? := by
    intro id
    by_cases hMem : id ∈ p.scope.wallets
    · exact hNamed id hMem
    · rw [hSpares.wallets id hMem, hSpares'.wallets id hMem]
      exact hTwin.wallets id
  refine ⟨ending, t, t', hExecute, hExecute', hWallets, ?_⟩
  rintro r rfl
  obtain ⟨hIdle, hLeaves⟩ := idle_of_execute hTwin.idle hExecute
  obtain ⟨hIdle', -⟩ := idle_of_execute hTwin.idle' hExecute'
  refine ⟨hIdle, hIdle', hWallets, keys_of_paired hTwin.keys hSpares hSpares' hPaired, ?_, ?_, ?_⟩
  · rw [hSpares.now, hSpares'.now, hTwin.now]
  · rw [hSpares.mint, hSpares'.mint]
    exact hTwin.mint
  · intro hWithin id hThere
    rw [Payment.isSome_of_leaves hLeaves] at hThere
    rw [hSpares.mint]
    exact hTwin.ahead hWithin id hThere

/-- A creation finds the same id in both, by the same random bits. -/
theorem nextId?_eq {time : Timestamp} (hTwin : Twin expiry time.toMillis.toNat s.ledger s'.ledger)
    (hStill : ∀ n, env.wall n = time) (hStill' : ∀ n, env'.wall n = time)
    (hRandom : env'.random s'.ledger.readings = env.random s.ledger.readings) :
    s'.ledger.nextId? env' = s.ledger.nextId? env := by
  unfold nextId? wallTime
  rw [hStill, hStill', hRandom]
  exact hTwin.mint _

/-- A creation ends alike, by the same random bits, and leaves such ledgers again. -/
theorem create {time : Timestamp} (hTwin : Twin expiry time.toMillis.toNat s.ledger s'.ledger)
    (hStill : ∀ n, env.wall n = time) (hStill' : ∀ n, env'.wall n = time)
    (hRandom : env'.random s'.ledger.readings = env.random s.ledger.readings) (userId : String)
    (deadline deadline' : Option Instant) :
    ∃ r t t', s.execute env (Command.createWallet userId).program deadline = (t, .result r, []) ∧
      s'.execute env' (Command.createWallet userId).program deadline' = (t', .result r, []) ∧
      Twin expiry time.toMillis.toNat t.ledger t'.ledger := by
  let request := NewWallet.forUser userId
  obtain ⟨t, hExecute, hLeaves⟩ :=
    Schedule.execute_creation hTwin.idle.unhindered request env deadline
  obtain ⟨t', hExecute', hLeaves'⟩ :=
    Schedule.execute_creation hTwin.idle'.unhindered request env' deadline'
  have hNext := hTwin.nextId?_eq hStill hStill' hRandom
  have hMade : request.madeIn env' s'.ledger = request.madeIn env s.ledger := by
    have hThere : ∀ id, (s'.ledger.store.wallet? id).isSome = (s.ledger.store.wallet? id).isSome :=
      fun id => hTwin.wallets.isSome_eq id
    have hTime : s'.ledger.read.wallTime env' = s.ledger.read.wallTime env :=
      (hStill' _).trans (hStill _).symm
    unfold NewWallet.madeIn NewWallet.made
    simp only [hNext, hTime, hThere]
  rw [hMade] at hExecute'
  obtain ⟨hIdle, -⟩ := idle_of_execute (c := .createWallet userId) hTwin.idle hExecute
  obtain ⟨hIdle', -⟩ := idle_of_execute (c := .createWallet userId) hTwin.idle' hExecute'
  refine ⟨_, t, t', hExecute, hExecute', hIdle, hIdle', ?_, ?_, ?_, ?_, ?_⟩
  · rw [hLeaves.wallets, hLeaves'.wallets, hMade]
    cases request.madeIn env s.ledger with
    | error e => exact hTwin.wallets
    | ok w => exact hTwin.wallets.update (Wallet.Alike.refl w) w.id
  · rw [hLeaves.now, hLeaves.keys, hLeaves'.keys]
    exact hTwin.keys
  · rw [hLeaves.now, hLeaves'.now, hTwin.now]
  · rw [hLeaves.mint, hLeaves'.mint, hNext]
    unfold NewWallet.mintAfter
    split
    · exact hTwin.mint
    · cases s.ledger.nextId? env with
      | none => exact hTwin.mint
      | some minted => exact fun _ => rfl
  · exact hLeaves.ahead (by rw [Ledger.wallTime, hStill]) hTwin.ahead

/-- A command that is no reader ends alike over both, by the same random bits, and leaves such ledgers
again unless it breaks down. -/
theorem execute {time : Timestamp} {c : Command}
    (hTwin : Twin expiry time.toMillis.toNat s.ledger s'.ledger) (hWriter : c.isReader = false)
    (hStill : ∀ n, env.wall n = time) (hStill' : ∀ n, env'.wall n = time)
    (hRandom : ∀ userId, c = .createWallet userId →
      env'.random s'.ledger.readings = env.random s.ledger.readings)
    (deadline deadline' : Option Instant) :
    ∃ ending t t', s.execute env c.program deadline = (t, ending, []) ∧
      s'.execute env' c.program deadline' = (t', ending, []) ∧
      WalletsAlike t.ledger.store.wallet? t'.ledger.store.wallet? ∧
      ∀ r, ending = .result r → Twin expiry time.toMillis.toNat t.ledger t'.ledger := by
  rcases Command.payment_or_creation hWriter with ⟨p, rfl⟩ | ⟨userId, rfl⟩
  · exact hTwin.pay p env env' deadline deadline'
  · obtain ⟨r, t, t', hExecute, hExecute', hTwin'⟩ :=
      hTwin.create hStill hStill' (hRandom userId rfl) userId deadline deadline'
    exact ⟨_, t, t', hExecute, hExecute', hTwin'.wallets, fun _ _ => hTwin'⟩

/-- A ledger still matches another one if it has kept all that the other one has to match. -/
theorem of_kept (hTwin : Twin expiry ms s.ledger l') (hIdle : t.ledger.Idle expiry)
    (hWallets : t.ledger.store.wallet? = s.ledger.store.wallet?)
    (hKeys : Keys.Same s.ledger.now s.ledger.keys t.ledger.keys)
    (hNow : t.ledger.now = s.ledger.now) (hMint : Mint.Same ms s.ledger.mint t.ledger.mint)
    (hAhead : t.ledger.Ahead ms) : Twin expiry ms t.ledger l' := by
  refine ⟨hIdle, hTwin.idle', ?_, ?_, hTwin.now.trans hNow.symm, fun random => ?_, hAhead⟩
  · rw [hWallets]
    exact hTwin.wallets
  · rw [hNow]
    exact hKeys.symm.trans hTwin.keys
  · rw [hTwin.mint random, hMint random]

/-- A command that is refused, other than a top-up by its wallet, leaves all that another ledger has to
match. -/
theorem refused {time : Timestamp} {c : Command} {e : LedgerError}
    (hTwin : Twin expiry time.toMillis.toNat s.ledger l')
    (hStill : ∀ n, env.wall n = time) (hWriter : c.isReader = false)
    (hSpared : c.isRefusedByWallet s.ledger = false)
    (hExecute : s.execute env c.program deadline = (t, .result (.error e), [])) :
    Twin expiry time.toMillis.toNat t.ledger l' := by
  obtain ⟨hIdle, hLeaves⟩ := idle_of_execute hTwin.idle hExecute
  have hWallets : t.ledger.store.wallet? = s.ledger.store.wallet? := by cases c <;> exact hLeaves
  rcases Command.payment_or_creation hWriter with ⟨p, rfl⟩ | ⟨userId, rfl⟩
  · have hKeys := Payment.same_keys hTwin.idle hSpared hExecute
    obtain ⟨ending, t₁, t₂, hMade, -, ⟨-, hSpares⟩, -⟩ := Payment.execute_alike
      hTwin.idle.unlocked hTwin.idle.unlocked (.refl p _) env env deadline deadline
    obtain rfl := (Prod.mk.inj (hMade.symm.trans hExecute)).1
    refine hTwin.of_kept hIdle hWallets hKeys hSpares.now ?_ ?_
    · rw [hSpares.mint]
      exact fun _ => rfl
    · intro hWithin id hThere
      rw [hWallets] at hThere
      rw [hSpares.mint]
      exact hTwin.ahead hWithin id hThere
  · obtain ⟨t₁, hMade, hLeft⟩ :=
      Schedule.execute_creation hTwin.idle.unhindered (.forUser userId) env deadline
    obtain ⟨rfl, hResult⟩ := Prod.mk.inj (hMade.symm.trans hExecute)
    have hReading : (s.ledger.wallTime env).toMillis.toNat = time.toMillis.toNat := by
      rw [Ledger.wallTime, hStill]
    have hRefused : ∃ e, (NewWallet.forUser userId).madeIn env s.ledger = .error e := by
      cases hOutcome : (NewWallet.forUser userId).madeIn env s.ledger with
      | error e => exact ⟨e, rfl⟩
      | ok w =>
        rw [hOutcome] at hResult
        cases hResult
    obtain ⟨e', hRefused⟩ := hRefused
    refine hTwin.of_kept hIdle hWallets ?_ hLeft.now
      (hLeft.same_mint hReading hTwin.ahead hRefused) (hLeft.ahead hReading hTwin.ahead)
    rw [hLeft.keys]
    exact .refl _ _

end Ledger.Twin

end Purse
