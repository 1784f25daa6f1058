import Purse.Proofs.Crowd.Owners
import Purse.Proofs.Session.Rounds

/-!
# Commands that are started

A command is started in the background, or it is run to its end while the clock moves from deadline to
deadline. Both keep a schedule in order. Whenever the clock is moved all is still, and every command
that waits, the one in the foreground among them, is blocked with its deadline ahead.

## Definitions

* `Program.Startable`: what is needed of a program that is started as a command.
* `Schedule.Awaits`: a command in the foreground waits.
* `Tick`, `Schedule.ticks`: the moments at which the clock is moved while a command is waited for.

## Results

* `InOrder.start`, `InOrder.spawn`, `InOrder.execute`, `InOrder.moveClock`: a schedule stays in order.
* `Awaits.still_of_mem_ticks`: whenever the clock is moved all is still.
-/

namespace Purse

/-- A program that can be started as a command: it has one transaction at a time, and waits at most
twice. -/
structure Program.Startable (p : Program Reply) : Prop where
  orderly : p.Orderly false
  within : ∀ {v : View}, v.copies = [] → (Thread.ofProgram p).Within 2 v

theorem Command.startable (c : Command) : c.program.Startable :=
  ⟨c.orderly, fun hCopies => c.within hCopies⟩

theorem startable_creation (request : Option NewWallet) : (creation request).Startable :=
  ⟨orderly_creation request, fun _ => .of_rowLast (rowLast_creation request) (by decide)⟩

theorem startable_toppingUp (request : Option Topup) : (toppingUp request).Startable :=
  ⟨orderly_toppingUp request, fun _ => .of_rowLast (rowLast_toppingUp request) (by decide)⟩

theorem startable_transferring (request : Option Transfer) : (transferring request).Startable :=
  ⟨orderly_transferring request, fun hCopies => within_transferring hCopies request⟩

namespace Schedule

variable {env : Surroundings} {s : Schedule} {u? : Option Waiter} {u w : Waiter}
  {xs ws : List Waiter} {p : Program Reply}

-- ---------------------------------------------------------------------------
-- Time and new agents
-- ---------------------------------------------------------------------------

/-- Something changes that is neither a row nor a transaction, and the list tells of those whose
deadline has come. -/
theorem InOrder.aside {l : Ledger} {ready : List Agent} (hOrder : s.InOrder u? xs ws)
    (hRows : l.store.rows = s.ledger.store.rows)
    (hTransactions : l.store.transactions = s.ledger.store.transactions) (hNodup : ready.Nodup)
    (hListed : ∀ a ∈ ready, ∃ w ∈ ws, w.agent = a)
    (hIff : ∀ w ∈ ws, w.agent ∈ ready ↔ s.isGranted w = true ∨ w.isDue l.now = true) :
    InOrder { s with ledger := l, ready } u? xs ws := by
  have hCopies : ∀ a, l.store.copies a = s.ledger.store.copies a :=
    Store.copies_congr hTransactions
  have hWallets : l.store.wallet? = s.ledger.store.wallet? := by
    funext id
    unfold Store.wallet?
    rw [hRows]
  have hGranted : ∀ v, isGranted { s with ledger := l, ready } v = s.isGranted v := by
    intro v
    unfold isGranted Store.holds
    rw [hRows]
  refine ⟨?_, ?_, hOrder.agents, hOrder.old, ?_, hNodup, hListed, ?_, ?_⟩
  · obtain ⟨c, hLedger, hSeats⟩ := hOrder.seats
    rw [← hLedger] at hRows hTransactions hCopies
    have hActs : c.Acts 0 false ⟨l, c.threads⟩ :=
      ⟨.single (.aside hRows hTransactions), fun _ _ => rfl⟩
    refine ⟨⟨l, c.threads⟩, rfl, ⟨hActs.coherent hSeats.sound, fun a => ?_⟩, hSeats.thread_eq,
      hSeats.idle⟩
    rw [hCopies]
    exact hSeats.sound.orderly a
  · intro w hMem
    exact (hOrder.within w hMem).congr (hCopies w.agent) fun id _ => congrFun hWallets id
  · exact fun a ha => (hCopies a).trans (hOrder.fresh a ha)
  · intro w hMem
    rw [hGranted]
    exact hIff w hMem
  · intro x hx
    rw [hGranted]
    exact hOrder.passed x hx

/-- A deadline that has come has come. -/
theorem isDue_mono {now now' : Instant} (hLe : now ≤ now') (hDue : w.isDue now = true) :
    w.isDue now' = true := by
  unfold Waiter.isDue at hDue ⊢
  cases hDeadline : w.deadline with
  | none => simp [hDeadline] at hDue
  | some instant =>
    simp only [hDeadline, Option.any_some, decide_eq_true_eq] at hDue ⊢
    exact hDue.trans hLe

theorem mem_due {a : Agent} :
    a ∈ s.due ↔ ∃ w ∈ s.waiters, w.isDue s.ledger.now = true ∧ w.agent = a := by
  unfold due
  simp [and_assoc]

theorem nodup_due (hAgents : (s.waiters.map Waiter.agent).Nodup) : s.due.Nodup := by
  unfold due
  refine ((List.mergeSort_perm _ _).map Waiter.agent).nodup_iff.mpr ?_
  exact hAgents.sublist (List.filter_sublist.map Waiter.agent)

theorem mem_ready_moveClock {a : Agent} {instant : Instant} :
    a ∈ (s.moveClock instant).ready ↔ a ∈ s.ready ∨
      ∃ w ∈ s.waiters, w.isDue (max s.ledger.now instant) = true ∧ w.agent = a :=
  mem_ready_wake.trans (or_congr_right mem_due)

/-- The clock may be moved at any time. -/
theorem InOrder.moveClock (hOrder : s.InOrder u? xs s.waiters) (instant : Instant) :
    (s.moveClock instant).InOrder u? xs s.waiters := by
  have hLe : s.ledger.now ≤ max s.ledger.now instant := Nat.le_max_left _ _
  have hDue : (due { s with ledger.now := max s.ledger.now instant }).Nodup :=
    nodup_due hOrder.nodup_others
  have hNodup : (s.moveClock instant).ready.Nodup := nodup_ready_wake hOrder.ready_nodup hDue
  refine hOrder.aside (l := { s.ledger with now := max s.ledger.now instant }) rfl rfl hNodup ?_ ?_
  · intro a hMem
    rcases mem_ready_moveClock.mp hMem with hOld | ⟨w, hw, -, hAgent⟩
    · exact hOrder.listed a hOld
    · exact ⟨w, hw, hAgent⟩
  · intro w hMem
    refine mem_ready_moveClock.trans ?_
    rw [hOrder.ready_iff w hMem]
    constructor
    · rintro ((hGranted | hBefore) | ⟨v, hv, hNow, hAgent⟩)
      · exact Or.inl hGranted
      · exact Or.inr (isDue_mono hLe hBefore)
      · obtain rfl := List.inj_on_of_nodup_map hOrder.nodup_others hv hMem hAgent
        exact Or.inr hNow
    · rintro (hGranted | hNow)
      · exact Or.inl (Or.inl hGranted)
      · exact Or.inr ⟨w, hMem, hNow, rfl⟩

theorem InOrder.newAgent (hOrder : s.InOrder u? xs ws) :
    InOrder { s with nextAgent := s.nextAgent + 1 } u? xs ws where
  seats := hOrder.seats
  within := hOrder.within
  agents := hOrder.agents
  old w hMem := Nat.lt_succ_of_lt (hOrder.old w hMem)
  fresh a ha := hOrder.fresh a (Nat.le_of_succ_le ha)
  ready_nodup := hOrder.ready_nodup
  listed := hOrder.listed
  ready_iff := hOrder.ready_iff
  passed := hOrder.passed

-- ---------------------------------------------------------------------------
-- In the background
-- ---------------------------------------------------------------------------

/-- A command that is started is over, or waits for a row of somebody else's. -/
theorem InOrder.start (env : Surroundings) (hOrder : s.InOrder none [] ws) (hStart : p.Startable)
    (deadline : Option Instant) :
    (s.start env p deadline).Settles s.nextAgent deadline 2 [] ws := by
  have hNot : ∀ w ∈ ws, w.agent ≠ s.nextAgent := fun w hw => Nat.ne_of_lt (hOrder.old w hw)
  have hCopies : s.ledger.store.copies s.nextAgent = [] := hOrder.fresh _ (Nat.le_refl _)
  obtain ⟨c, hLedger, hSeats, hThread⟩ := hOrder.seat hNot (Thread.row?_ofProgram p)
    (Thread.orderly_ofProgram hStart.orderly) fun _ => hCopies
  obtain ⟨woken, hWoken, hBout, hOutside⟩ := Crowd.bout_drive env p hSeats.sound hThread []
  have hWithin := hBout.within (n := 2) (by
    rw [hThread]
    refine hStart.within ?_
    rw [hLedger]
    exact hCopies)
  rw [List.nil_append] at hWoken
  rw [← hWoken] at hBout
  rw [hLedger] at hBout hOutside hWithin
  exact hOrder.newAgent.turn hLedger hSeats (by rintro _ ⟨⟩) hNot (Nat.lt_succ_self _) hBout
    hOutside (Nat.le_refl 2) hWithin

theorem waiters_start (env : Surroundings) (s : Schedule) (p : Program Reply)
    (deadline : Option Instant) : (s.start env p deadline).schedule.waiters = s.waiters :=
  (keeps_turn _ _ deadline (now_drive env _ p _ [])).waiters_eq

/-- A command in the foreground waits for a row of somebody else's, with its deadline ahead. -/
structure Awaits (s : Schedule) (w : Waiter) : Prop where
  inOrder : s.InOrder (some w) [] s.waiters
  ungranted : s.isGranted w = false
  ahead : w.isDue s.ledger.now = false

/-- A command in the foreground is over, or waits. -/
def Turn.Awaits : Turn → Prop
  | .ended _ s => s.InOrder none [] s.waiters
  | .waiting w s => s.Awaits w

theorem Turn.Settles.awaits {a : Agent} {deadline : Option Instant} {n : Nat} {t : Turn}
    (hSettles : t.Settles a deadline n [] ws) (hWaiters : t.schedule.waiters = ws) :
    t.Awaits := by
  cases t with
  | ended e s =>
    rw [← hWaiters] at hSettles
    exact hSettles
  | waiting w s =>
    obtain ⟨hOrder, -, -, -, hUngranted, hAhead⟩ := hSettles
    rw [← hWaiters] at hOrder
    exact ⟨hOrder, hUngranted, hAhead⟩

theorem InOrder.spawn (env : Surroundings) (hOrder : s.InOrder none [] s.waiters)
    (hStart : p.Startable) (deadline : Instant) :
    (s.spawn env p deadline).1.InOrder none [] (s.spawn env p deadline).1.waiters := by
  have hStarted := (hOrder.start env hStart (some deadline)).awaits (waiters_start env s p _)
  unfold Schedule.spawn
  cases hTurn : s.start env p (some deadline) with
  | ended e s' =>
    rw [hTurn] at hStarted
    exact hStarted
  | waiting w s' =>
    rw [hTurn] at hStarted
    refine (hStarted.inOrder.rejoin hStarted.ungranted hStarted.ahead ?_).withWaiters _
    exact List.perm_append_singleton w s'.waiters

-- ---------------------------------------------------------------------------
-- In the foreground
-- ---------------------------------------------------------------------------

/-- Once all is still, the command in the foreground has been given its row, or is blocked as the
others are. -/
theorem Awaits.settle (env : Surroundings) (hAwaits : s.Awaits w) :
    (s.settle env).1.InOrder (some w) [] (s.settle env).1.waiters ∧ (s.settle env).1.ready = [] ∧
      ((s.settle env).1.isGranted w = false →
        (s.settle env).1.Still (w :: (s.settle env).1.waiters)) := by
  have hAmong : s.InOrder none [] ([w] ++ s.waiters) :=
    hAwaits.inOrder.rejoin hAwaits.ungranted hAwaits.ahead (List.Perm.refl _)
  obtain ⟨xs, ys, hAfter, hPerm, hNobody⟩ := hAmong.settle env [w] (Nat.le_refl 1) (by
    intro z hz
    rw [List.mem_singleton.mp hz]
    exact hAwaits.ahead)
  generalize (s.settle env).1 = s' at hAfter hNobody
  have hRest : ∀ v ∈ s'.waiters, v.agent ∈ s'.ready ↔
      s'.isGranted v = true ∨ v.isDue s'.ledger.now = true :=
    fun v hv => hAfter.ready_iff v (List.mem_append_right ys hv)
  have hAlone : s'.InOrder (some w) [] s'.waiters := by
    refine hAfter.regroup s'.ready ?_ hAfter.ready_nodup ?_ hRest (by rintro _ ⟨⟩)
    · rw [Option.toList_none, List.nil_append, List.nil_append, ← List.append_assoc]
      exact (hPerm.append_right s'.waiters).symm
    · rw [hNobody]
      rintro _ ⟨⟩
  refine ⟨hAlone, hNobody, fun hUngranted => ?_⟩
  have hIn : w ∈ xs ++ ys := hPerm.mem_iff.mpr (List.mem_singleton_self w)
  rcases List.mem_append.mp hIn with hPassed | hWaits
  · rw [hAfter.passed w hPassed] at hUngranted
    cases hUngranted
  · have hAhead := (hAfter.ahead hNobody (List.mem_append_left _ hWaits)).2
    exact ⟨hAlone.rejoin hUngranted hAhead (List.Perm.refl _), hNobody⟩

theorem waiters_movedFor (s : Schedule) (w : Waiter) : (s.movedFor w).waiters = s.waiters := by
  unfold movedFor
  split
  · rfl
  · split <;> rfl

theorem InOrder.movedFor (hOrder : s.InOrder u? [] s.waiters) (w : Waiter) :
    (s.movedFor w).InOrder u? [] s.waiters := by
  unfold Schedule.movedFor
  split
  · exact hOrder
  · split
    · exact hOrder.moveClock _
    · exact hOrder

/-- A command that is let run, or not, is over or waits as before. -/
theorem InOrder.polled (env : Surroundings) (hOrder : s.InOrder (some u) xs ws) :
    (s.poll env u).Settles u.agent u.deadline u.waits xs ws := by
  obtain ⟨-, hSettles⟩ | ⟨-, -, hCancelled⟩ | ⟨hUngranted, hAhead, hWaits⟩ := hOrder.poll env
  · cases hTurn : s.poll env u with
    | ended e s' =>
      rw [hTurn] at hSettles
      exact hSettles
    | waiting w s' =>
      rw [hTurn] at hSettles
      obtain ⟨hStill, hAgent, hDeadline, hFewer, hRest⟩ := hSettles
      exact ⟨hStill, hAgent, hDeadline, hFewer.trans (Nat.sub_le _ 1), hRest⟩
  · rw [hCancelled]
    exact hOrder.abandon
  · rw [hWaits]
    exact ⟨hOrder, rfl, rfl, Nat.le_refl _, hUngranted, hAhead⟩

/-- One round of waiting: all becomes still, the clock is moved if it has to be, and the command in
the foreground is let run. -/
theorem Awaits.round (env : Surroundings) (hAwaits : s.Awaits w) :
    (((s.settle env).1.movedFor w).poll env w).Awaits := by
  have hMoved := (hAwaits.settle env).1.movedFor w
  refine (hMoved.polled env).awaits ?_
  rw [(keeps_poll env _ w).waiters_eq, waiters_movedFor]

theorem Awaits.await (env : Surroundings) (moves : Nat) (hAwaits : s.Awaits w) :
    (await env moves s w).1.InOrder none [] (Schedule.await env moves s w).1.waiters := by
  induction moves generalizing s w with
  | zero => exact hAwaits.inOrder.abandon
  | succ moves ih =>
    have hRound := hAwaits.round env
    rw [await_succ]
    cases hTurn : ((s.settle env).1.movedFor w).poll env w with
    | ended e s' =>
      rw [hTurn] at hRound
      exact hRound
    | waiting w' s' =>
      rw [hTurn] at hRound
      exact ih hRound

theorem InOrder.execute (env : Surroundings) (hOrder : s.InOrder none [] s.waiters)
    (hStart : p.Startable) (deadline : Option Instant) :
    (s.execute env p deadline).1.InOrder none [] (s.execute env p deadline).1.waiters := by
  have hStarted := (hOrder.start env hStart deadline).awaits (waiters_start env s p _)
  unfold Schedule.execute
  cases hTurn : s.start env p deadline with
  | ended e s' =>
    rw [hTurn] at hStarted
    exact hStarted
  | waiting w s' =>
    rw [hTurn] at hStarted
    exact hStarted.await env _

end Schedule

-- ---------------------------------------------------------------------------
-- When the clock is moved
-- ---------------------------------------------------------------------------

/-- A moment at which the clock is moved on, to an instant. -/
structure Tick where
  schedule : Schedule
  /-- The command that is waited for in the foreground, if there is one. -/
  foreground? : Option Waiter
  instant : Instant

/-- The commands that wait when the clock is moved. -/
def Tick.waiters (t : Tick) : List Waiter := t.foreground?.toList ++ t.schedule.waiters

/-- All is still when the clock is moved. -/
def Tick.Still (t : Tick) : Prop := t.schedule.Still t.waiters

namespace Schedule

variable {env : Surroundings} {s : Schedule} {w : Waiter} {p : Program Reply}

/-- The moment at which the clock is moved for a command that still waits, as `movedFor` does. -/
def tickFor (s : Schedule) (w : Waiter) : List Tick :=
  if s.isGranted w then [] else (s.nextDeadline? w).toList.map (⟨s, some w, ·⟩)

/-- The moments at which the clock is moved while a command is waited for, as `await` does. -/
def ticks (env : Surroundings) : Nat → Schedule → Waiter → List Tick
  | 0, _, _ => []
  | moves + 1, s, w =>
    (s.settle env).1.tickFor w ++
      match ((s.settle env).1.movedFor w).poll env w with
      | .ended _ _ => []
      | .waiting w s => ticks env moves s w

/-- The moments at which the clock is moved while a program is run to its end, as `execute` does. -/
def ticksOf (env : Surroundings) (s : Schedule) (program : Program Reply)
    (deadline : Option Instant) : List Tick :=
  match s.start env program deadline with
  | .ended _ _ => []
  | .waiting w s => ticks env (2 * s.waiters.length + 3) s w

theorem mem_tickFor {t : Tick} : t ∈ s.tickFor w ↔ s.isGranted w = false ∧
    ∃ instant, s.nextDeadline? w = some instant ∧ t = ⟨s, some w, instant⟩ := by
  unfold tickFor
  split
  · next hGranted => simp [hGranted]
  · next hUngranted =>
    simp only [Bool.not_eq_true] at hUngranted
    simp [hUngranted, eq_comm]

/-- The clock is moved when it is not the command's turn, and there is a deadline to come. -/
theorem movedFor_cases (s : Schedule) (w : Waiter) :
    (s.movedFor w = s ∧ s.tickFor w = [] ∧ (s.isGranted w = true ∨ s.nextDeadline? w = none)) ∨
      ∃ instant, s.isGranted w = false ∧ s.nextDeadline? w = some instant ∧
        s.movedFor w = s.moveClock instant ∧ s.tickFor w = [⟨s, some w, instant⟩] := by
  unfold movedFor tickFor
  cases hGranted : s.isGranted w with
  | true => exact Or.inl ⟨rfl, rfl, Or.inl rfl⟩
  | false =>
    cases hNext : s.nextDeadline? w with
    | none => exact Or.inl ⟨rfl, rfl, Or.inr rfl⟩
    | some instant => exact Or.inr ⟨instant, rfl, rfl, rfl, rfl⟩

/-- Whenever the clock is moved while a command is waited for, all is still. -/
theorem Awaits.still_of_mem_ticks {moves : Nat} {t : Tick} (hAwaits : s.Awaits w)
    (hMem : t ∈ ticks env moves s w) : t.Still := by
  induction moves generalizing s w with
  | zero => cases hMem
  | succ moves ih =>
    rcases List.mem_append.mp hMem with hNow | hLater
    · obtain ⟨hUngranted, instant, -, rfl⟩ := mem_tickFor.mp hNow
      exact (hAwaits.settle env).2.2 hUngranted
    · have hRound := hAwaits.round env
      cases hTurn : ((s.settle env).1.movedFor w).poll env w with
      | ended e s' =>
        rw [hTurn] at hLater
        cases hLater
      | waiting w' s' =>
        rw [hTurn] at hLater hRound
        exact ih hRound hLater

theorem InOrder.still_of_mem_ticksOf {deadline : Option Instant} {t : Tick}
    (hOrder : s.InOrder none [] s.waiters) (hStart : p.Startable)
    (hMem : t ∈ s.ticksOf env p deadline) : t.Still := by
  have hStarted := (hOrder.start env hStart deadline).awaits (waiters_start env s p _)
  unfold ticksOf at hMem
  cases hTurn : s.start env p deadline with
  | ended e s' =>
    rw [hTurn] at hMem
    cases hMem
  | waiting w s' =>
    rw [hTurn] at hMem hStarted
    exact hStarted.still_of_mem_ticks hMem

end Schedule

end Purse
