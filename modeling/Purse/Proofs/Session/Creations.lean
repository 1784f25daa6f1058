import Purse.Proofs.Crowd.CreationVerdict
import Purse.Proofs.Session.Lineage

/-!
# What creations make

A creation never waits: at one go it takes an id from the mint, reads the time and stores the wallet, or
it comes to an error and stores nothing. All other commands neither make ids nor store wallets. So the
wallets of a schedule come from those that its commands have handed out as made.

## Definitions

* `Program.Quiet`: a program that makes no id and no wallet.
* `Ledger.Creates`: what comes of a request for a wallet.

## Results

* `Command.quiet`: all commands but creations are quiet.
* `Ledger.drive_creates`, `Schedule.execute_creates`: a creation is over at one go.
* `Schedule.descends_execute`: what a command makes joins the wallets that all others come from.
-/

namespace Purse

open Store

-- ---------------------------------------------------------------------------
-- Programs that make nothing
-- ---------------------------------------------------------------------------

/-- The wallet that a reply hands out as made. -/
def Reply.made? : Reply → Option Wallet
  | .wallet w => some w
  | .unit | .found _ | .listed _ => none

/-- The wallet that a command has made, by how it ended. -/
def Ending.made? : Ending → Option Wallet
  | .result (.ok reply) => reply.made?
  | .result (.error _) | .fault _ => none

/-- The result hands no wallet out as made. -/
def MakesNone (r : Result Reply) : Prop := (Ending.result r).made? = none

theorem makesNone_cancelled : MakesNone (.error .cancelled) := rfl

/-- The program makes no id and no wallet, and hands none out as made. -/
abbrev Program.Quiet (p : Program Reply) : Prop := p.Obeys (fun c => c.makes = false) MakesNone

theorem Topup.quiet_claimed (r : Topup) (inUse : Result Bool) : (r.claimed inUse).Quiet := by
  rcases inUse with e | _ | _
  · rfl
  · show r.applying.Quiet
    unfold applying
    split
    · refine ⟨rfl, fun answer => ?_⟩
      cases answer <;> rfl
    · exact ⟨rfl, fun _ => rfl⟩
  · rfl

theorem quiet_toppingUp (request : Option Topup) : (toppingUp request).Quiet := by
  cases request with
  | none => rfl
  | some r =>
    rw [toppingUp_some]
    rcases Bool.eq_false_or_eq_true r.key.isEmpty with hEmpty | hEmpty
    · rw [if_pos hEmpty]
      rfl
    · rw [if_neg (ne_true_of_eq_false hEmpty)]
      exact ⟨rfl, r.quiet_claimed⟩

theorem quiet_transferring (request : Option Transfer) : (transferring request).Quiet := by
  cases request with
  | none => rfl
  | some r =>
    rw [transferring_some]
    cases r.check with
    | error e => rfl
    | ok legs =>
      refine Program.Calls.obeys_bind ⟨rfl, fun _ => trivial⟩ (fun _ => rfl) fun _ => ?_
      refine Program.Calls.obeys_bind (calls_moveBalance (fun _ _ => rfl) (fun _ _ => rfl) legs).attempt
        (fun _ => rfl) fun outcome => ?_
      exact Program.Calls.obeys_bind (calls_finish (P := fun c => c.makes = false) rfl rfl outcome)
        (fun _ => rfl) fun _ => rfl

/-- All commands but creations are quiet. -/
theorem Command.quiet (c : Command) (hNot : ∀ userId, c ≠ .createWallet userId) :
    c.program.Quiet := by
  refine c.program_induction Program.Quiet (fun userId hSame => absurd hSame (hNot userId))
    (fun _ _ => quiet_toppingUp) (fun _ _ => quiet_transferring) ?_ ?_ ?_
  · exact fun e => rfl
  · intro id
    refine ⟨rfl, fun answer => ?_⟩
    cases answer <;> rfl
  · intro user
    refine ⟨rfl, fun answer => ?_⟩
    cases answer <;> rfl

/-- A command that makes nothing ends so. -/
theorem made?_of_obeys {e : Ending} (hObeys : e.Obeys MakesNone) : e.made? = none := by
  cases e with
  | result r => exact hObeys
  | fault f => rfl

-- ---------------------------------------------------------------------------
-- What comes of a request
-- ---------------------------------------------------------------------------

namespace Ledger

variable {env : Surroundings} {l l' : Ledger} {request : Option NewWallet} {r : NewWallet}
  {made : List Wallet}

/-- The id that a request takes from the mint, if it comes that far, and the mint after it. -/
def minted? (env : Surroundings) (l : Ledger) (request : Option NewWallet) :
    Option (WalletId × Mint) :=
  match request.map NewWallet.check with
  | some (.ok _) => l.nextId? env
  | some (.error _) | none => none

/-- What comes of a request, whatever failures have been arranged. -/
inductive Creates (env : Surroundings) (l : Ledger) (request : Option NewWallet) :
    Result Reply → Ledger → Prop where
  /-- The request comes to no id. -/
  | refused {e : LedgerError} {l' : Ledger} (known : e ≠ .alreadyExists)
    (minted : l.minted? env request = none) (mint : l'.mint = l.mint) (store : l'.store = l.store) :
    Creates env l request (.error e) l'
  /-- The wallet is not stored. -/
  | lost {e : LedgerError} {l' : Ledger} {id : WalletId}
    (known : e = .alreadyExists → (l.store.wallet? id).isSome = true)
    (minted : l.minted? env request = some (id, l'.mint)) (store : l'.store = l.store) :
    Creates env l request (.error e) l'
  /-- The wallet is stored, and its owner is the one that was asked for. -/
  | made {r : NewWallet} {w : Wallet} {l' : Ledger} (asked : request = some r)
    (owner : r.check = .ok w.userId) (live : w.isDeleted = false)
    (minted : l.minted? env request = some (w.id, l'.mint)) (store : l.store.insert w = .ok l'.store) :
    Creates env l request (.ok (.wallet w)) l'

theorem check_ne_alreadyExists (r : NewWallet) : r.check ≠ .error .alreadyExists := by
  unfold NewWallet.check
  split
  · rintro ⟨⟩
  · split <;> rintro ⟨⟩

theorem minted?_of_ok {user : UserId} (hCheck : r.check = .ok user) :
    l.minted? env (some r) = l.nextId? env := by
  unfold minted?
  rw [Option.map_some, hCheck]

/-- The id is past all before it, as long as the clock reads a millisecond that ids can tell. -/
theorem lt_of_minted? {id : WalletId} {mint : Mint}
    (hClock : ∀ n, (env.wall n).toMillis.toNat < 1 <<< 48)
    (hMinted : l.minted? env request = some (id, mint)) :
    l.mint.previous.val < id.val ∧ mint.previous = id := by
  unfold minted? at hMinted
  split at hMinted
  · exact Mint.lt_of_next? (hClock l.readings) hMinted
  · cases hMinted
  · cases hMinted

/-- What a failure that has been arranged keeps from being done, and what is done else. -/
theorem perform_insert (env : Surroundings) (l : Ledger) (a : Agent) (w : Wallet) :
    ∃ answer l', l.perform env a (.insert w) = .replied answer l' [] ∧ l'.mint = l.mint ∧
      (answer = .ok () ∧ l.store.insert w = .ok l'.store ∨
        ∃ e, answer = .error e ∧ l'.store = l.store ∧
          (e = .alreadyExists → (l.store.wallet? w.id).isSome = true)) := by
  have hFailing : (l.record a (.insert w)).failing = l.failing := rfl
  have hStore : (l.record a (.insert w)).store = l.store := rfl
  unfold perform
  cases hReason : l.failing.get? .insert with
  | some reason =>
    simp only [Call.method?, hFailing, hReason]
    exact ⟨_, _, rfl, rfl, .inr ⟨_, rfl, rfl, by rintro ⟨⟩⟩⟩
  | none =>
    simp only [Call.method?, hFailing, hReason]
    cases hInsert : l.store.insert w with
    | ok store =>
      simp only [execute, hStore, hInsert]
      exact ⟨_, _, rfl, rfl, .inl ⟨rfl, rfl⟩⟩
    | error e =>
      simp only [execute, hStore, hInsert]
      exact ⟨_, _, rfl, rfl, .inr ⟨e, rfl, rfl, fun _ => (insert_eq_error hInsert).2⟩⟩

/-- A creation is over at one go. -/
theorem drive_creates (env : Surroundings) (l : Ledger) (a : Agent) (request : Option NewWallet) :
    ∃ result l', l.drive env a (creation request) [] = .ended result l' [] ∧
      l.Creates env request result l' := by
  cases request with
  | none => exact ⟨_, l, rfl, .refused (by rintro ⟨⟩) rfl rfl rfl⟩
  | some r =>
    rw [creation_some]
    cases hCheck : r.check with
    | error e =>
      refine ⟨_, l, rfl, .refused (fun hTaken => ?_) ?_ rfl rfl⟩
      · rw [hTaken] at hCheck
        exact check_ne_alreadyExists r hCheck
      · unfold minted?
        rw [Option.map_some, hCheck]
    | ok user =>
      have hMinted : l.minted? env (some r) = l.nextId? env := minted?_of_ok hCheck
      have hAsk : l.perform env a .newId = l.execute env a .newId := rfl
      cases hNext : l.nextId? env with
      | none =>
        have hId : l.perform env a .newId =
            .replied (.error (.internal "Ulid random bits would overflow")) l.read [] := by
          rw [hAsk]
          unfold nextId? at hNext
          simp only [execute, hNext]
        rw [drive_replied hId]
        exact ⟨_, _, rfl, .refused (by rintro ⟨⟩) (hMinted.trans hNext) rfl rfl⟩
      | some minted =>
        obtain ⟨id, mint⟩ := minted
        have hId : l.perform env a .newId = .replied (.ok id) { l.read with mint } [] := by
          rw [hAsk]
          unfold nextId? at hNext
          simp only [execute, hNext]
        -- the clock is read without fail, then the wallet is stored or not
        have hClock : perform env { l.read with mint } a .readClock =
            .replied (.ok (l.read.wallTime env)) { l.read.read with mint } [] := rfl
        obtain ⟨answer, l', hPerform, hMint, hDone⟩ := perform_insert env
          { l.read.read with mint } a (Wallet.opened id user r.balance (l.read.wallTime env))
        simp only [drive_replied hId, drive_replied hClock, NewWallet.storing, drive_replied hPerform]
        refine ⟨_, l', rfl, ?_⟩
        have hTaken : l.minted? env (some r) = some (id, l'.mint) := by rw [hMinted, hNext, hMint]
        rcases hDone with ⟨rfl, hStored⟩ | ⟨e, rfl, hStore, hKnown⟩
        · exact .made rfl hCheck rfl hTaken hStored
        · exact .lost hKnown hTaken hStore

/-- The wallets of a ledger after a request are those before it, and the one that has been made. -/
theorem Creates.wallets_eq {result : Result Reply} (hCreates : l.Creates env request result l') :
    l'.store.wallets = l.store.wallets ++ (Ending.result result).made?.toList := by
  cases hCreates with
  | refused hKnown hMinted hMint hStore => rw [hStore]; exact (List.append_nil _).symm
  | lost hKnown hMinted hStore => rw [hStore]; exact (List.append_nil _).symm
  | made hAsked hOwner hLive hMinted hStored =>
    have hNew : ∀ {t t' : Store} {w : Wallet}, t.insert w = .ok t' → t'.wallets = t.wallets ++ [w] := by
      intro t t' w hInsert
      have hFree : w.id ∉ t.rows.keys := by
        rw [Table.mem_keys_iff, (insert_eq_ok hInsert).1]
        rintro ⟨⟩
      rw [insert_eq_put hInsert]
      unfold wallets
      rw [Table.values_put hFree, List.map_append]
      rfl
    exact hNew hStored

theorem Creates.descends {result : Result Reply} (hCreates : l.Creates env request result l')
    (hDescends : l.store.Descends made) :
    l'.store.Descends (made ++ (Ending.result result).made?.toList) := by
  cases hCreates with
  | refused hKnown hMinted hMint hStore =>
    rw [hStore]
    exact (List.append_nil made).symm ▸ hDescends
  | lost hKnown hMinted hStore =>
    rw [hStore]
    exact (List.append_nil made).symm ▸ hDescends
  | made hAsked hOwner hLive hMinted hStored => exact hDescends.insert hStored

end Ledger

-- ---------------------------------------------------------------------------
-- Schedules
-- ---------------------------------------------------------------------------

/-- All wallets of a schedule come from some that were made, and no command that waits makes any. -/
abbrev Schedule.Descends (made : List Wallet) (mint : Mint) (s : Schedule) : Prop :=
  s.Obeys (fun c => c.makes = false) MakesNone (Ledger.Descends made mint)

/-- A creation is over at once. -/
theorem Schedule.start_creates (env : Surroundings) (s : Schedule) (request : Option NewWallet)
    (deadline : Option Instant) :
    ∃ result l', s.ledger.Creates env request result l' ∧
      s.start env (creation request) deadline =
        .ended (.result result) ({ s with nextAgent := s.nextAgent + 1 }.wake l' []) := by
  obtain ⟨result, l', hDrive, hCreates⟩ := s.ledger.drive_creates env s.nextAgent request
  refine ⟨result, l', hCreates, ?_⟩
  unfold start
  simp only [hDrive]
  rfl

theorem Schedule.execute_creates (env : Surroundings) (s : Schedule) (request : Option NewWallet)
    (deadline : Option Instant) :
    ∃ result l', s.ledger.Creates env request result l' ∧
      s.execute env (creation request) deadline =
        ({ s with nextAgent := s.nextAgent + 1 }.wake l' [], .result result, []) := by
  obtain ⟨result, l', hCreates, hStart⟩ := s.start_creates env request deadline
  refine ⟨result, l', hCreates, ?_⟩
  unfold execute
  rw [hStart]

/-- A request for a wallet of a user that is accepted is one for its owner. -/
theorem parseTrimmed?_of_check {userId : String} {user : UserId}
    (hCheck : (NewWallet.forUser userId).check = .ok user) : UserId.parseTrimmed? userId = some user := by
  unfold NewWallet.check at hCheck
  split at hCheck
  · cases hCheck
  · next owner hOwner =>
    split at hCheck
    · cases hCheck
    · rw [← Except.ok.inj hCheck]
      exact hOwner

/-- What a command makes joins the wallets that all others come from. -/
theorem Schedule.descends_execute {s : Schedule} {made : List Wallet}
    (hDescends : s.Descends made s.ledger.mint) (env : Surroundings) (c : Command)
    (deadline : Option Instant) :
    let done := s.execute env c.program deadline
    done.1.Descends (made ++ done.2.1.made?.toList) done.1.ledger.mint ∧
      ∀ w ∈ done.2.1.made?, ∃ userId, c = .createWallet userId ∧
        UserId.parseTrimmed? userId = some w.userId := by
  intro done
  by_cases hCreation : ∃ userId, c = .createWallet userId
  · obtain ⟨userId, rfl⟩ := hCreation
    obtain ⟨result, l', hCreates, hExecute⟩ :=
      s.execute_creates env (some (.forUser userId)) deadline
    have hDone : done = ({ s with nextAgent := s.nextAgent + 1 }.wake l' [], .result result, []) :=
      hExecute
    rw [hDone]
    refine ⟨⟨⟨hCreates.descends hDescends.ledger.store, rfl⟩, hDescends.waiters⟩, fun w hMade => ?_⟩
    cases hCreates with
    | refused | lost => cases hMade
    | made hAsked hOwner =>
      cases hAsked
      cases hMade
      exact ⟨userId, rfl, parseTrimmed?_of_check hOwner⟩
  · have hQuiet := c.quiet fun userId hSame => hCreation ⟨userId, hSame⟩
    obtain ⟨hThere, hEnding, -⟩ := (Ledger.keeping_descends env made s.ledger.mint).executed
      makesNone_cancelled hDescends hQuiet deadline
    have hNone : done.2.1.made? = none := made?_of_obeys hEnding
    rw [hNone, Option.toList_none, List.append_nil]
    exact ⟨⟨⟨hThere.ledger.store, rfl⟩, hThere.waiters⟩, by rintro _ ⟨⟩⟩

end Purse
