import Purse.Proofs.Session.Creations
import Purse.Proofs.Session.Faults

/-!
# Wallets in the order of their making

In a session in which no wallet is stored by hand the wallets are those that creations answered with, in
the order of making. As long as the clock reads milliseconds that ids can tell, ids ascend in this order,
be the clock set back or not. No id is taken then, and a listing by ascending id is one by age.

## Definitions

* `Session.madeOver`, `Session.mintedOver`: the wallets and the ids that steps make.
* `Session.Numbered`: the wallets of a session come from some with ids that ascend up to the mint's.

## Results

* `Session.act_creation`, `Session.quietly_act`: what a step comes to that asks for a wallet, or for none.
* `Session.numbered_step`: one step, by the wallets and the ids that it makes.
* `Session.made_in_order`: any number of steps.
-/

namespace Purse

-- ---------------------------------------------------------------------------
-- Steps of a session
-- ---------------------------------------------------------------------------

/-- The wallet that an answer hands out as made. -/
def Answer.made? : Answer → Option Wallet
  | .wallet w => some w
  | _ => none

theorem made?_ofEnding (e : Ending) : (Answer.ofEnding e).made? = e.made? := by
  rcases e with (e | reply) | f
  · rfl
  · cases reply <;> rfl
  · rfl

theorem made?_ofCall (c : Call) (r : Result c.Answer) : (Answer.ofCall c r).made? = none := by
  cases r with
  | error e => rfl
  | ok a => cases c <;> rfl

/-- The wallets that a step has made, by its report: the answer, and the commands in the background that
ended. -/
def Report.made (r : Report) : List Wallet :=
  r.answer.made?.toList ++ r.ended.filterMap (·.2.made?)

/-- The wallet that a step asks for, if it is a creation. -/
def SessionStep.request? : SessionStep → Option (Option NewWallet)
  | .command (.createWallet userId) | .spawn _ (.createWallet userId) => some (some (.forUser userId))
  | .create request => some request
  | _ => none

namespace Session

variable {env : Surroundings} {s s' : Session} {x : SessionStep} {made : List Wallet} {mint : Mint}
  {request : Option NewWallet}

/-- What a step does that makes nothing, up to the commands that it lets go on. -/
structure Quietly (made : List Wallet) (mint : Mint) (acted : Session × Answer × List (Agent × Ending)) :
    Prop where
  descends : acted.1.schedule.Descends made mint
  answer : acted.2.1.made? = none
  ended : ∀ e ∈ acted.2.2, e.2.made? = none

theorem made?_byHand (env : Surroundings) (s : Session) (a : Agent) (c : Call) :
    (s.byHand env a c).2.made? = none := by
  unfold byHand
  cases s.schedule.ledger.execute env a c with
  | replied r l woken => exact made?_ofCall c r
  | waiting row l => rfl
  | faulted f l => rfl

theorem made?_within (env : Surroundings) (s : Session) (name : String) (c : Call) :
    (s.within env name c).2.made? = none := by
  unfold within
  split
  · exact made?_byHand env s _ c
  · rfl

theorem made?_finishNamed (env : Surroundings) (s : Session) (name : String) (outcome : Result Unit) :
    (s.finishNamed env name outcome).2.made? = none := by
  unfold finishNamed
  split
  · rfl
  · simp only
    split <;> rfl

theorem quietly_still {acted : Session × Answer} (hDescends : acted.1.schedule.Descends made mint)
    (hAnswer : acted.2.made? = none) : Quietly made mint (act.still acted) :=
  ⟨hDescends, hAnswer, by rintro _ ⟨⟩⟩

theorem quietly_foreground (hDescends : s.schedule.Descends made mint) (env : Surroundings)
    {p : Program Reply} (hQuiet : p.Quiet) (deadline : Option Instant) :
    Quietly made mint (s.foreground env p deadline) := by
  obtain ⟨hThere, hEnding, hOthers⟩ := (Ledger.keeping_descends env made mint).executed
    makesNone_cancelled hDescends hQuiet deadline
  refine ⟨hThere, ?_, fun e hMem => made?_of_obeys (hOthers e hMem)⟩
  exact (made?_ofEnding _).trans (made?_of_obeys hEnding)

theorem quietly_spawn (hDescends : s.schedule.Descends made mint) (env : Surroundings) (task : String)
    {c : Command} (hQuiet : c.program.Quiet) :
    Quietly made mint (s.act env (.spawn task c)) := by
  obtain ⟨hThere, hEnding⟩ := (Ledger.keeping_descends env made mint).spawn
    makesNone_cancelled hDescends hQuiet s.deadline
  refine ⟨hThere, rfl, fun e hMem => ?_⟩
  obtain ⟨ending, hEnded, rfl⟩ := List.mem_map.mp hMem
  exact made?_of_obeys (hEnding ending (Option.mem_toList.mp hEnded))

/-- A step that asks for no wallet makes none. -/
theorem quietly_act (hDescends : s.schedule.Descends made mint) (env : Surroundings)
    (hNone : x.request? = none) (hInsert : ∀ w, x ≠ .insert w) : Quietly made mint (s.act env x) := by
  have hKeeping := Ledger.keeping_descends env made mint
  have hAside : ∀ {l : Ledger}, l.store.rows = s.schedule.ledger.store.rows →
      l.store.transactions = s.schedule.ledger.store.transactions →
      l.mint = s.schedule.ledger.mint → l.Descends made mint := fun hRows hTransactions hMint =>
    hKeeping.aside hRows hTransactions hMint hDescends.ledger
  cases x with
  | insert w => exact absurd rfl (hInsert w)
  | create request => cases hNone
  | command c =>
    refine quietly_foreground hDescends env (c.quiet ?_) _
    rintro userId rfl
    cases hNone
  | spawn task c =>
    refine quietly_spawn hDescends env task (c.quiet ?_)
    rintro userId rfl
    cases hNone
  | topup request => exact quietly_foreground hDescends env (quiet_toppingUp request) _
  | transfer request => exact quietly_foreground hDescends env (quiet_transferring request) _
  | advance ms => exact ⟨hKeeping.moveClock hDescends _, rfl, by rintro _ ⟨⟩⟩
  | get | list | claim | release =>
    rw [act]
    exact quietly_still (hKeeping.byHand hDescends _ rfl) (made?_byHand env s _ _)
  | add wallet amount =>
    rw [act]
    refine quietly_still (hKeeping.byHand ?_ _ rfl) (made?_byHand env _ _ _)
    exact ⟨hDescends.ledger, hDescends.waiters⟩
  | lock | addWithin | commit | rollback =>
    rw [act]
    exact quietly_still (hKeeping.within hDescends _ rfl) (made?_within env s _ _)
  | begin name =>
    have hDropped := hKeeping.dropNamed hDescends name
    rw [act]
    refine quietly_still ⟨⟨?_, hDropped.ledger.mint_eq⟩, hDropped.waiters⟩ rfl
    exact hDropped.ledger.store.putCopies _ (by rintro _ ⟨⟩)
  | drop name =>
    rw [act]
    split
    · exact quietly_still (hKeeping.dropNamed hDescends name) rfl
    · exact quietly_still hDescends rfl
  | finish name outcome =>
    rw [act]
    exact quietly_still (hKeeping.finishNamed hDescends rfl rfl name outcome)
      (made?_finishNamed env s name outcome)
  | total | lockOrder =>
    rw [act]
    split <;> exact quietly_still hDescends rfl
  | size | keysSize =>
    rw [act]
    exact quietly_still hDescends rfl
  | failUpdates wallet =>
    rw [act]
    refine quietly_still ⟨hAside ?_ ?_ rfl, hDescends.waiters⟩ rfl
    · show (s.schedule.ledger.store.arm wallet).rows = _
      unfold Store.arm
      split <;> rfl
    · show (s.schedule.ledger.store.arm wallet).transactions = _
      unfold Store.arm
      split <;> rfl
  | fail | purge =>
    rw [act]
    exact quietly_still ⟨hAside rfl rfl rfl, hDescends.waiters⟩ rfl

-- ---------------------------------------------------------------------------
-- Creations in a session
-- ---------------------------------------------------------------------------

/-- The wallets that a step has made, up to the commands that it lets go on. -/
def madeIn (acted : Session × Answer × List (Agent × Ending)) : List Wallet :=
  acted.2.1.made?.toList ++ acted.2.2.filterMap (·.2.made?)

/-- The id that a step takes from the mint, if any, and the mint after it. -/
def minted? (env : Surroundings) (s : Session) (x : SessionStep) : Option (WalletId × Mint) :=
  x.request?.bind (s.schedule.ledger.minted? env)

theorem Quietly.madeIn_eq {acted : Session × Answer × List (Agent × Ending)}
    (hQuietly : Quietly made mint acted) : madeIn acted = [] := by
  unfold madeIn
  rw [hQuietly.answer, List.filterMap_eq_nil_iff.mpr hQuietly.ended]
  rfl

/-- A command is over at once: it is answered, or reported under the name of its task. -/
inductive Tells (result : Result Reply) : Session × Answer × List (Agent × Ending) → Prop where
  | answered (t : Session) : Tells result (t, .ofEnding (.result result), [])
  | reported {t : Session} {a : Agent} {task : String} (named : t.tasks.get? a = some task) :
    Tells result (t, .unit, [(a, .result result)])

theorem Tells.madeIn_eq {result : Result Reply} {acted : Session × Answer × List (Agent × Ending)}
    (hTells : Tells result acted) : madeIn acted = (Ending.result result).made?.toList := by
  unfold madeIn
  cases hTells with
  | answered t =>
    rw [made?_ofEnding]
    exact List.append_nil _
  | @reported t a task hNamed =>
    show [] ++ List.filterMap (fun e : Agent × Ending => e.2.made?) [(a, .result result)] = _
    rw [List.nil_append, List.filterMap_cons]
    cases (Ending.result result).made? <;> rfl

/-- Whoever is reported as over is known by name. -/
theorem Tells.named {result : Result Reply} {acted : Session × Answer × List (Agent × Ending)}
    (hTells : Tells result acted) : ∀ e ∈ acted.2.2, (acted.1.tasks.get? e.1).isSome = true := by
  cases hTells with
  | answered t => rintro _ ⟨⟩
  | reported hNamed =>
    intro e hMem
    rw [List.mem_singleton.mp hMem, hNamed]
    rfl

/-- A command that comes to no error tells of none. -/
theorem Tells.ne_error {result : Result Reply} {e : LedgerError}
    {acted : Session × Answer × List (Agent × Ending)} (hTells : Tells result acted)
    (hNot : result ≠ .error e) :
    acted.2.1 ≠ .error e ∧ ∀ ending ∈ acted.2.2, ending.2 ≠ .result (.error e) := by
  cases hTells with
  | answered t =>
    refine ⟨fun hSame => ?_, by rintro _ ⟨⟩⟩
    rcases result with e' | reply
    · cases hSame
      exact hNot rfl
    · cases reply <;> cases hSame
  | reported hNamed =>
    refine ⟨by rintro ⟨⟩, fun ending hMem hSame => ?_⟩
    rw [List.mem_singleton.mp hMem] at hSame
    cases hSame
    exact hNot rfl

/-- What a creation does in a session. -/
theorem act_creation (hRequest : x.request? = some request) (env : Surroundings) (s : Session) :
    ∃ result l', s.schedule.ledger.Creates env request result l' ∧
      (s.act env x).1.schedule =
        { s.schedule with nextAgent := s.schedule.nextAgent + 1 }.wake l' [] ∧
      Tells result (s.act env x) := by
  have hForeground : ∀ deadline, ∃ result l', s.schedule.ledger.Creates env request result l' ∧
      s.foreground env (creation request) deadline =
        ({ s with schedule := { s.schedule with nextAgent := s.schedule.nextAgent + 1 }.wake l' [] },
          .ofEnding (.result result), []) := by
    intro deadline
    obtain ⟨result, l', hCreates, hExecute⟩ := s.schedule.execute_creates env request deadline
    refine ⟨result, l', hCreates, ?_⟩
    simp only [foreground, hExecute]
  unfold SessionStep.request? at hRequest
  split at hRequest
  · obtain rfl := Option.some.inj hRequest
    obtain ⟨result, l', hCreates, hActed⟩ := hForeground (some s.deadline)
    rw [act, Command.program, hActed]
    exact ⟨result, l', hCreates, rfl, .answered _⟩
  · next task userId =>
    obtain rfl := Option.some.inj hRequest
    obtain ⟨result, l', hCreates, hStart⟩ :=
      s.schedule.start_creates env (some (.forUser userId)) (some s.deadline)
    rw [act]
    simp only [Command.program, Schedule.spawn, hStart]
    exact ⟨result, l', hCreates, rfl, .reported (Table.get?_put_self _ _ task)⟩
  · obtain rfl := Option.some.inj hRequest
    obtain ⟨result, l', hCreates, hActed⟩ := hForeground none
    rw [act, hActed]
    exact ⟨result, l', hCreates, rfl, .answered _⟩
  · cases hRequest

/-- What a step makes and takes from the mint, up to the commands that it lets go on. -/
structure Brings (env : Surroundings) (s : Session) (x : SessionStep) (made : List Wallet)
    (acted : Session × Answer × List (Agent × Ending)) : Prop where
  descends : acted.1.schedule.Descends (made ++ madeIn acted) acted.1.schedule.ledger.mint
  /-- Whoever made a wallet in the background is known by name. -/
  named : ∀ e ∈ acted.2.2, e.2.made? = none ∨ (acted.1.tasks.get? e.1).isSome = true
  mint : acted.1.schedule.ledger.mint = ((s.minted? env x).map Prod.snd).getD s.schedule.ledger.mint
  ids : madeIn acted = [] ∨ ∃ w, madeIn acted = [w] ∧ w.isDeleted = false ∧
    (s.minted? env x).map Prod.fst = some w.id

theorem brings_act (hDescends : s.schedule.Descends made s.schedule.ledger.mint) (env : Surroundings)
    (hInsert : ∀ w, x ≠ .insert w) : s.Brings env x made (s.act env x) := by
  cases hRequest : x.request? with
  | none =>
    have hQuietly := quietly_act hDescends env hRequest hInsert
    have hMinted : s.minted? env x = none := by
      unfold minted?
      rw [hRequest]
      rfl
    refine ⟨?_, fun e hMem => .inl (hQuietly.ended e hMem), ?_, .inl hQuietly.madeIn_eq⟩
    · rw [hQuietly.madeIn_eq, List.append_nil, hQuietly.descends.ledger.mint_eq]
      exact hQuietly.descends
    · rw [hQuietly.descends.ledger.mint_eq, hMinted]
      rfl
  | some request =>
    obtain ⟨result, l', hCreates, hSchedule, hTells⟩ := act_creation hRequest env s
    have hMade := hTells.madeIn_eq
    have hMinted : s.minted? env x = s.schedule.ledger.minted? env request := by
      unfold minted?
      rw [hRequest]
      rfl
    have hLedger : (s.act env x).1.schedule.ledger = l' := by rw [hSchedule]; rfl
    refine ⟨?_, ?_, ?_, ?_⟩
    · rw [hMade, hLedger, hSchedule]
      exact ⟨⟨hCreates.descends hDescends.ledger.store, rfl⟩, hDescends.waiters⟩
    · exact fun e hMem => .inr (hTells.named e hMem)
    · rw [hLedger, hMinted]
      cases hCreates with
      | refused hKnown hNone hMint hStore => rw [hNone, hMint]; rfl
      | lost hKnown hSome hStore => rw [hSome]; rfl
      | made hAsked hOwner hLive hSome hStored => rw [hSome]; rfl
    · rw [hMade, hMinted]
      cases hCreates with
      | refused hKnown hNone hMint hStore => exact .inl rfl
      | lost hKnown hSome hStore => exact .inl rfl
      | @made r w l' hAsked hOwner hLive hSome hStored =>
        exact .inr ⟨w, rfl, hLive, by rw [hSome]; rfl⟩

/-- All that commands in the background have made is reported under their names. -/
theorem filterMap_named {tasks : Table Agent String} {first later : List (Agent × Ending)}
    (hNamed : ∀ e ∈ first, e.2.made? = none ∨ (tasks.get? e.1).isSome = true)
    (hLater : ∀ e ∈ later, e.2.made? = none) :
    ((first ++ later).filterMap fun e => (tasks.get? e.1).map (·, e.2)).filterMap (·.2.made?) =
      first.filterMap (·.2.made?) := by
  have hQuiet : ∀ e : Agent × Ending, e.2.made? = none →
      ((tasks.get? e.1).map (·, e.2)).bind (·.2.made?) = none := by
    intro e hNone
    cases tasks.get? e.1 with
    | none => rfl
    | some task => exact hNone
  rw [List.filterMap_filterMap, List.filterMap_append,
    List.filterMap_eq_nil_iff.mpr fun e hMem => hQuiet e (hLater e hMem), List.append_nil]
  refine List.filterMap_congr fun e hMem => ?_
  rcases hNamed e hMem with hNone | hSome
  · rw [hQuiet e hNone, hNone]
  · obtain ⟨task, hTask⟩ := Option.isSome_iff_exists.mp hSome
    rw [hTask]
    rfl

/-- The report of a step, by what it does and by what it lets go on. -/
theorem step_eq (env : Surroundings) (s : Session) (x : SessionStep) :
    let acted := s.act env x
    let settled := acted.1.schedule.settle env
    s.step env x =
      ({ acted.1 with schedule := { settled.1 with ledger.journal := [] } },
        ⟨acted.2.1, (acted.2.2 ++ settled.2).filterMap fun e =>
            (acted.1.tasks.get? e.1).map (·, e.2),
          settled.1.ledger.journal, settled.1.ledger.store.wallets⟩) :=
  rfl

/-- The commands that a step lets go on make nothing, so all that it makes is in its report. -/
theorem Brings.step (hBrings : s.Brings env x made (s.act env x)) :
    (s.step env x).2.made = madeIn (s.act env x) ∧
      (s.step env x).1.schedule.Descends (made ++ madeIn (s.act env x))
        (s.step env x).1.schedule.ledger.mint ∧
      (s.step env x).1.schedule.ledger.mint = (s.act env x).1.schedule.ledger.mint := by
  rw [step_eq]
  generalize s.act env x = acted at hBrings
  obtain ⟨hSettled, hLater⟩ :=
    (Ledger.keeping_descends env _ _).settle makesNone_cancelled hBrings.descends
  refine ⟨?_, ⟨⟨hSettled.ledger.store.congr rfl rfl, rfl⟩, hSettled.waiters⟩,
    hSettled.ledger.mint_eq⟩
  exact congrArg (acted.2.1.made?.toList ++ ·)
    (filterMap_named hBrings.named fun e hMem => made?_of_obeys (hLater e hMem))

/-- All wallets of a session come from some live ones, with ids that ascend up to the one that the mint
made last. -/
structure Numbered (made : List Wallet) (s : Session) : Prop where
  descends : s.schedule.Descends made s.schedule.ledger.mint
  live : ∀ w ∈ made, w.isDeleted = false
  ascend : made.Pairwise fun v w => v.id.val < w.id.val
  past : ∀ w ∈ made, w.id.val ≤ s.schedule.ledger.mint.previous.val

theorem numbered_empty (lifetime timeout : Nat) : (empty lifetime timeout).Numbered [] where
  descends := ⟨⟨.empty, rfl⟩, by rintro _ ⟨⟩⟩
  live := by rintro _ ⟨⟩
  ascend := List.Pairwise.nil
  past := by rintro _ ⟨⟩

/-- The mint is past all wallets, so none is refused for its id. -/
theorem Numbered.known {result : Result Reply} {l' : Ledger} (hNumbered : s.Numbered made)
    (hClock : ∀ n, (env.wall n).toMillis.toNat < 1 <<< 48)
    (hCreates : s.schedule.ledger.Creates env request result l') :
    result ≠ .error .alreadyExists := by
  cases hCreates with
  | refused hKnown hMinted hMint hStore => exact fun hSame => hKnown (Except.error.inj hSame)
  | made hAsked hOwner hLive hMinted hStored => rintro ⟨⟩
  | lost hKnown hMinted hStore =>
    intro hSame
    obtain ⟨w, hWallet⟩ := Option.isSome_iff_exists.mp (hKnown (Except.error.inj hSame))
    obtain ⟨hId, m, hMem, hLater⟩ := hNumbered.descends.ledger.store.wallet? hWallet
    have hOld := hNumbered.past m hMem
    have hNew := (Ledger.lt_of_minted? hClock hMinted).1
    rw [← hId, hLater.id_eq] at hNew
    omega

/-- The mint goes on by the id that a step takes from it, and not otherwise. -/
theorem Brings.mint_step (hBrings : s.Brings env x made (s.act env x))
    (hClock : ∀ n, (env.wall n).toMillis.toNat < 1 <<< 48) :
    (s.minted? env x = none ∧ (s.step env x).1.schedule.ledger.mint = s.schedule.ledger.mint) ∨
      ∃ id mint, s.minted? env x = some (id, mint) ∧
        s.schedule.ledger.mint.previous.val < id.val ∧
        (s.step env x).1.schedule.ledger.mint.previous = id := by
  have hAfter := hBrings.step.2.2.trans hBrings.mint
  cases hMinted : s.minted? env x with
  | none =>
    rw [hMinted] at hAfter
    exact .inl ⟨rfl, hAfter⟩
  | some minted =>
    obtain ⟨id, mint⟩ := minted
    obtain ⟨request, hRequest, hAsked⟩ := Option.bind_eq_some_iff.mp hMinted
    obtain ⟨hLess, hPrevious⟩ := Ledger.lt_of_minted? hClock hAsked
    rw [hMinted] at hAfter
    refine .inr ⟨id, mint, rfl, hLess, ?_⟩
    rw [hAfter]
    exact hPrevious

/-- The mint may go on without a wallet. -/
theorem Numbered.keep (hNumbered : s.Numbered made)
    (hDescends : s'.schedule.Descends made s'.schedule.ledger.mint)
    (hOn : s.schedule.ledger.mint.previous.val ≤ s'.schedule.ledger.mint.previous.val) :
    s'.Numbered made where
  descends := hDescends
  live := hNumbered.live
  ascend := hNumbered.ascend
  past v hMem := Nat.le_trans (hNumbered.past v hMem) hOn

/-- A wallet with the id that the mint made last comes after all before it. -/
theorem Numbered.append {w : Wallet} (hNumbered : s.Numbered made)
    (hDescends : s'.schedule.Descends (made ++ [w]) s'.schedule.ledger.mint)
    (hLive : w.isDeleted = false) (hLess : s.schedule.ledger.mint.previous.val < w.id.val)
    (hLast : s'.schedule.ledger.mint.previous = w.id) : s'.Numbered (made ++ [w]) := by
  have hPast : ∀ v ∈ made, v.id.val < w.id.val := fun v hMem =>
    Nat.lt_of_le_of_lt (hNumbered.past v hMem) hLess
  refine ⟨hDescends, ?_, ?_, ?_⟩
  · exact List.forall_mem_append.mpr ⟨hNumbered.live, List.forall_mem_singleton.mpr hLive⟩
  · refine List.pairwise_append.mpr ⟨hNumbered.ascend, List.pairwise_singleton _ _, ?_⟩
    intro v hMem v' hNew
    rw [List.mem_singleton.mp hNew]
    exact hPast v hMem
  · rw [hLast]
    refine List.forall_mem_append.mpr ⟨fun v hMem => Nat.le_of_lt (hPast v hMem), ?_⟩
    exact List.forall_mem_singleton.mpr (Nat.le_refl _)

/-- One step: the wallets that it makes come after all before them. -/
theorem numbered_step (hNumbered : s.Numbered made)
    (hClock : ∀ n, (env.wall n).toMillis.toNat < 1 <<< 48) (hInsert : ∀ w, x ≠ .insert w) :
    (s.step env x).1.Numbered (made ++ (s.step env x).2.made) := by
  have hBrings := brings_act hNumbered.descends env hInsert
  obtain ⟨hMade, hDescends, -⟩ := hBrings.step
  rw [hMade]
  rcases hBrings.mint_step hClock with ⟨hMinted, hSame⟩ | ⟨id, mint, hMinted, hLess, hLast⟩
  · rcases hBrings.ids with hNone | ⟨w, -, -, hId⟩
    · rw [hNone, List.append_nil] at hDescends ⊢
      exact hNumbered.keep hDescends (Nat.le_of_eq (by rw [hSame]))
    · -- a wallet has an id from the mint
      rw [hMinted] at hId
      cases hId
  · rcases hBrings.ids with hNone | ⟨w, hSome, hLive, hId⟩
    · rw [hNone, List.append_nil] at hDescends ⊢
      exact hNumbered.keep hDescends (Nat.le_of_lt (hLast ▸ hLess))
    · rw [hMinted] at hId
      obtain rfl := Option.some.inj hId
      rw [hSome] at hDescends ⊢
      exact hNumbered.append hDescends hLive hLess hLast

-- ---------------------------------------------------------------------------
-- Any number of steps
-- ---------------------------------------------------------------------------

/-- The wallets that steps have made, in the order of their reports. -/
def madeOver (env : Surroundings) (s : Session) : List SessionStep → List Wallet
  | [] => []
  | x :: steps => (s.step env x).2.made ++ (s.step env x).1.madeOver env steps

/-- The ids that steps have taken from the mint, in order. -/
def mintedOver (env : Surroundings) (s : Session) : List SessionStep → List WalletId
  | [] => []
  | x :: steps => ((s.minted? env x).map Prod.fst).toList ++ (s.step env x).1.mintedOver env steps

variable {steps : List SessionStep}

theorem not_byHand_cons (hByHand : ∀ w, SessionStep.insert w ∉ x :: steps) :
    (∀ w, x ≠ .insert w) ∧ ∀ w, SessionStep.insert w ∉ steps :=
  ⟨fun w hSame => hByHand w (hSame ▸ List.mem_cons_self),
    fun w hMem => hByHand w (List.mem_cons_of_mem x hMem)⟩

theorem descends_after (hDescends : s.schedule.Descends made s.schedule.ledger.mint)
    (env : Surroundings) (hByHand : ∀ w, SessionStep.insert w ∉ steps) :
    (s.after env steps).schedule.Descends (made ++ s.madeOver env steps)
      (s.after env steps).schedule.ledger.mint := by
  induction steps generalizing s made with
  | nil => exact (List.append_nil made).symm ▸ hDescends
  | cons x steps ih =>
    obtain ⟨hInsert, hLater⟩ := not_byHand_cons hByHand
    have hBrings := brings_act hDescends env hInsert
    obtain ⟨hMade, hThere, -⟩ := hBrings.step
    rw [← hMade] at hThere
    have hAll := ih hThere hLater
    rw [List.append_assoc] at hAll
    exact hAll

theorem numbered_after (hNumbered : s.Numbered made)
    (hClock : ∀ n, (env.wall n).toMillis.toNat < 1 <<< 48)
    (hByHand : ∀ w, SessionStep.insert w ∉ steps) :
    (s.after env steps).Numbered (made ++ s.madeOver env steps) := by
  induction steps generalizing s made with
  | nil => exact (List.append_nil made).symm ▸ hNumbered
  | cons x steps ih =>
    obtain ⟨hInsert, hLater⟩ := not_byHand_cons hByHand
    have hAll := ih (numbered_step hNumbered hClock hInsert) hLater
    rw [List.append_assoc] at hAll
    exact hAll

/-- The ids that the mint makes ascend, and wallets get them in this order. -/
theorem ascend_mintedOver (hNumbered : s.Numbered made)
    (hClock : ∀ n, (env.wall n).toMillis.toNat < 1 <<< 48)
    (hByHand : ∀ w, SessionStep.insert w ∉ steps) :
    ((s.mintedOver env steps).Pairwise fun x y => x.val < y.val) ∧
      (∀ id ∈ s.mintedOver env steps, s.schedule.ledger.mint.previous.val < id.val) ∧
      ((s.madeOver env steps).map Wallet.id).Sublist (s.mintedOver env steps) := by
  induction steps generalizing s made with
  | nil => exact ⟨List.Pairwise.nil, by rintro _ ⟨⟩, List.Sublist.refl _⟩
  | cons x steps ih =>
    obtain ⟨hInsert, hLater⟩ := not_byHand_cons hByHand
    have hBrings := brings_act hNumbered.descends env hInsert
    obtain ⟨hAscend, hPast, hMade⟩ := ih (numbered_step hNumbered hClock hInsert) hLater
    have hFirst : ((s.step env x).2.made.map Wallet.id).Sublist
        ((s.minted? env x).map Prod.fst).toList := by
      rw [hBrings.step.1]
      rcases hBrings.ids with hNone | ⟨w, hSome, -, hId⟩
      · rw [hNone]
        exact List.nil_sublist _
      · rw [hSome, hId]
        exact List.Sublist.refl _
    rw [madeOver, mintedOver, List.map_append]
    refine and_assoc.mp ⟨?_, hFirst.append hMade⟩
    rcases hBrings.mint_step hClock with ⟨hMinted, hSame⟩ | ⟨id, mint, hMinted, hLess, hLast⟩
    · rw [hMinted, ← hSame]
      exact ⟨hAscend, hPast⟩
    · -- what is minted later is past what is minted now
      rw [hMinted, Option.map_some, Option.toList_some, List.singleton_append]
      rw [hLast] at hPast
      refine ⟨List.pairwise_cons.mpr ⟨hPast, hAscend⟩, List.forall_mem_cons.mpr ⟨hLess, ?_⟩⟩
      exact fun id' hMem => Nat.lt_trans hLess (hPast id' hMem)

/-- A creation that is made after some steps stores the wallet that it hands out and nothing else. -/
theorem act_stores (hRequest : x.request? = some request) (env : Surroundings) (s : Session) :
    (s.act env x).1.schedule.ledger.store.wallets =
      s.schedule.ledger.store.wallets ++ madeIn (s.act env x) := by
  obtain ⟨result, l', hCreates, hSchedule, hTells⟩ := act_creation hRequest env s
  rw [hTells.madeIn_eq, hSchedule]
  exact hCreates.wallets_eq

/-- In a session in which no wallet is stored by hand, the wallets are those that creations have handed
out: each stores its own, if any, and nothing else. If the clock reads milliseconds that ids can tell, be
it set back or not, ids ascend, no creation finds its id taken, and a user's wallets are listed as they
were made, one after the other, with nothing changed but what updates have changed. -/
theorem made_in_order (env : Surroundings) (lifetime timeout : Nat) (steps : List SessionStep)
    (hByHand : ∀ w, SessionStep.insert w ∉ steps) :
    let start := empty lifetime timeout
    let s := start.after env steps
    let made := start.madeOver env steps
    (∀ x request, x.request? = some request →
      (s.act env x).1.schedule.ledger.store.wallets =
        s.schedule.ledger.store.wallets ++ madeIn (s.act env x)) ∧
    List.Forall₂ Wallet.Later made s.schedule.ledger.store.wallets ∧
    ((∀ n, (env.wall n).toMillis.toNat < 1 <<< 48) →
      (start.mintedOver env steps).Pairwise (fun x y => x.val < y.val) ∧
      (made.map Wallet.id).Sublist (start.mintedOver env steps) ∧
      (∀ x request, x.request? = some request →
        (s.act env x).2.1 ≠ .error .alreadyExists ∧
          ∀ e ∈ (s.act env x).2.2, e.2 ≠ .result (.error .alreadyExists)) ∧
      ∀ user, ∃ listed, (s.step env (.list user)).2.answer = .listed listed ∧
        List.Forall₂ Wallet.Later (made.filter (·.userId = user)) listed) := by
  intro start s made
  have hStart : start.Numbered [] := numbered_empty lifetime timeout
  have hDescends : s.schedule.Descends made s.schedule.ledger.mint :=
    descends_after hStart.descends env hByHand
  refine ⟨fun x request hRequest => act_stores hRequest env s,
    hDescends.ledger.store.forall₂_wallets, fun hClock => ?_⟩
  have hNumbered : s.Numbered made := numbered_after hStart hClock hByHand
  obtain ⟨hAscend, -, hMade⟩ := ascend_mintedOver hStart hClock hByHand
  refine ⟨hAscend, hMade, fun x request hRequest => ?_, fun user => ?_⟩
  · obtain ⟨result, l', hCreates, -, hTells⟩ := act_creation hRequest env s
    exact hTells.ne_error (hNumbered.known hClock hCreates)
  · refine ⟨_, rfl, ?_⟩
    have hListed := hDescends.ledger.store.forall₂_walletsOf hNumbered.ascend user
    have hOwned : made.filter (·.isOwnedBy user) = made.filter (·.userId = user) := by
      refine List.filter_congr fun w hMem => ?_
      unfold Wallet.isOwnedBy
      rw [hNumbered.live w hMem]
      exact Bool.true_and _
    rw [hOwned] at hListed
    exact hListed

/-- A clock that is set back by a second at each of its first readings, and no random bits. -/
def backwards : Surroundings :=
  ⟨fun n =>
    { Timestamp.epoch with
      second := 59 - n
      second_lt := Nat.lt_of_le_of_lt (Nat.sub_le 59 n) (by decide)
      leap := fun hLeap => absurd hLeap (by decide) },
    fun _ => 0⟩

/-- Two wallets of one user, the second made in the background; before it a user id is refused, and later
the first wallet is topped up. -/
def twoOfOneUser : List SessionStep :=
  [.command (.createWallet (UserId.ofNat 1).text), .command (.createWallet "nobody"),
    .spawn "second" (.createWallet (UserId.ofNat 1).text),
    .command (.topup
      ⟨(WalletId.ofNat (59000 <<< 80)).text, (UserId.ofNat 1).text, Crowd.coins 3, "key"⟩)]

/-- The session after it. -/
def withTwo : Session := (empty 1000 1000).after backwards twoOfOneUser

/-- The second gets the next id though the clock was set back, and is listed after the first, which has
got its coins by then. -/
theorem both_listed_on_a_backward_clock :
    ((empty 1000 1000).madeOver backwards twoOfOneUser).map (·.id.val) =
        [59000 <<< 80, (59000 <<< 80) + 1] ∧
      withTwo.schedule.ledger.store.wallets.map (·.balance.units) = [(Crowd.coins 3).units, 0] ∧
      ∃ listed, (withTwo.step backwards (.list (.ofNat 1))).2.answer = .listed listed ∧
        List.Forall₂ Wallet.Later ((empty 1000 1000).madeOver backwards twoOfOneUser) listed := by
  have hByHand : ∀ w, SessionStep.insert w ∉ twoOfOneUser := by
    intro w hMem
    simp [twoOfOneUser] at hMem
  have hClock : ∀ n, (backwards.wall n).toMillis.toNat < 1 <<< 48 := by
    intro n
    show (((0 : Int) * 86400 + ((59 - n : Nat) : Int)) * 1000 + ((0 : Nat) : Int) / 1000000).toNat <
      281474976710656
    omega
  have hFacts : ((empty 1000 1000).madeOver backwards twoOfOneUser).map (·.id.val) =
        [59000 <<< 80, (59000 <<< 80) + 1] ∧
      withTwo.schedule.ledger.store.wallets.map (·.balance.units) = [(Crowd.coins 3).units, 0] ∧
      ((empty 1000 1000).madeOver backwards twoOfOneUser).filter (·.userId = .ofNat 1) =
        (empty 1000 1000).madeOver backwards twoOfOneUser := by
    decide +kernel
  obtain ⟨hIds, hUnits, hOwned⟩ := hFacts
  obtain ⟨listed, hAnswer, hListed⟩ :=
    ((made_in_order backwards 1000 1000 twoOfOneUser hByHand).2.2 hClock).2.2.2 (.ofNat 1)
  rw [hOwned] at hListed
  exact ⟨hIds, hUnits, listed, hAnswer, hListed⟩

end Session

end Purse
