import Purse.Proofs.Crowd.Bouts
import Purse.Proofs.Session.Turns

/-!
# Schedules in order

Behind a schedule there is a crowd: the waiting commands, and the transactions that are open by hand.
A schedule is in order when its store is coherent with the rows that its commands wait for, and when
those are on its list, and only those, that have been given their row or whose deadline has come. Each
turn keeps it so.

## Definitions

* `Crowd.Seats`: those who wait in a crowd are some waiting commands.
* `Schedule.InOrder`: a schedule is in order, with a command whose turn it is, some that have been
  passed over, and the others.
* `Turn.Settles`: a command that was let run is over, or waits for a row of somebody else's.

## Results

* `InOrder.bout`: to let a command run keeps a schedule in order.
* `InOrder.poll`: a command that has been given its row goes on, with one wait fewer to come; one whose
  deadline has come is over; any other stays where it is.
-/

namespace Purse

namespace Waiter

/-- A waiting command as an agent of a crowd. -/
def thread (w : Waiter) : Thread := .waiting w.call w.next w.row

/-- How often a waiting command will have waited in the end, at most. -/
def waits (w : Waiter) : Nat := (Program.call w.call w.next).waits

end Waiter

namespace Crowd

variable {env : Surroundings} {c c' : Crowd} {a b : Agent} {us us' vs ws : List Waiter}
  {woken : List Agent}

/-- Those who wait in a sound crowd are some waiting commands. -/
structure Seats (c : Crowd) (ws : List Waiter) : Prop where
  sound : c.Sound
  thread_eq : ∀ {w}, w ∈ ws → c.threads w.agent = w.thread
  idle : ∀ {a}, (∀ w ∈ ws, w.agent ≠ a) → c.pending a = none

theorem Seats.pending_eq (hSeats : c.Seats ws) {w : Waiter} (hMem : w ∈ ws) :
    c.pending w.agent = some w.row :=
  pending_of_waiting (hSeats.thread_eq hMem)

theorem Seats.exists_of_pending (hSeats : c.Seats ws) {id : WalletId}
    (hPending : c.pending a = some id) : ∃ w ∈ ws, w.agent = a ∧ w.row = id := by
  by_contra hNone
  have hIdle : c.pending a = none := hSeats.idle fun w hMem hAgent => hNone ⟨w, hMem, hAgent, by
    subst hAgent
    exact Option.some.inj ((hSeats.pending_eq hMem).symm.trans hPending)⟩
  rw [hIdle] at hPending
  cases hPending

theorem Seats.congr (hSeats : c.Seats ws) (hSame : ∀ w, w ∈ us ↔ w ∈ ws) : c.Seats us where
  sound := hSeats.sound
  thread_eq hMem := hSeats.thread_eq ((hSame _).mp hMem)
  idle hNot := hSeats.idle fun w hMem => hNot w ((hSame w).mpr hMem)

theorem pending_reseat {l : Ledger} {t : Thread} (hIdle : c.pending a = none) (hRow : t.row? = none) :
    (c.goOn a l t).pending = c.pending := by
  rw [pending_goOn, hRow, ← hIdle, Function.update_eq_self]

/-- An agent that waits for nothing may go on in another way. -/
theorem Sound.reseat {l : Ledger} {t : Thread} {isOpen : Bool} (hSound : c.Sound)
    (hIdle : c.pending a = none) (hRow : t.row? = none) (hOrderly : t.Orderly isOpen)
    (hStore : l.store = c.ledger.store) (hClosed : isOpen = false → l.store.copies a = []) :
    (c.goOn a l t).Sound where
  coherent := by
    rw [pending_reseat hIdle hRow]
    show l.store.Coherent c.pending
    rw [hStore]
    exact hSound.coherent
  orderly b := by
    show ∃ isOpen, (Function.update c.threads a t b).Orderly isOpen ∧
      (isOpen = false → l.store.copies b = [])
    by_cases hb : b = a
    · subst hb
      rw [Function.update_self]
      exact ⟨isOpen, hOrderly, hClosed⟩
    · rw [Function.update_of_ne hb, hStore]
      exact hSound.orderly b

theorem Seats.reseat {l : Ledger} {t : Thread} {isOpen : Bool} (hSeats : c.Seats ws)
    (hNot : ∀ w ∈ ws, w.agent ≠ a) (hRow : t.row? = none) (hOrderly : t.Orderly isOpen)
    (hStore : l.store = c.ledger.store) (hClosed : isOpen = false → l.store.copies a = []) :
    (c.goOn a l t).Seats ws where
  sound := hSeats.sound.reseat (hSeats.idle hNot) hRow hOrderly hStore hClosed
  thread_eq hMem := (Function.update_of_ne (hNot _ hMem) _ _).trans (hSeats.thread_eq hMem)
  idle := by
    intro b hb
    rw [pending_reseat (hSeats.idle hNot) hRow]
    exact hSeats.idle hb

/-- A bout changes the seat of the agent that is let run. -/
theorem Seats.bout (hSeats : c.Seats (us ++ vs)) (hMine : ∀ u ∈ us, u.agent = a)
    (hOthers : ∀ v ∈ vs, v.agent ≠ a) (hBout : Bout a c c' woken)
    (hNow : ∀ u ∈ us', u.agent = a ∧ c'.threads a = u.thread)
    (hIdle : us' = [] → c'.pending a = none) : c'.Seats (us' ++ vs) where
  sound := hBout.sound
  thread_eq := by
    intro w hMem
    rcases List.mem_append.mp hMem with hNew | hOld
    · obtain ⟨hAgent, hThread⟩ := hNow w hNew
      rw [hAgent]
      exact hThread
    · rw [(hBout.frame (hOthers w hOld)).1]
      exact hSeats.thread_eq (List.mem_append_right us hOld)
  idle := by
    intro b hNot
    by_cases hb : b = a
    · subst hb
      refine hIdle (List.eq_nil_iff_forall_not_mem.mpr fun u hMem => ?_)
      exact hNot u (List.mem_append_left vs hMem) (hNow u hMem).1
    · show (c'.threads b).row? = none
      rw [(hBout.frame hb).1]
      refine hSeats.idle fun w hMem => ?_
      rcases List.mem_append.mp hMem with hOld | hOther
      · rw [hMine w hOld]
        exact Ne.symm hb
      · exact hNot w (List.mem_append_right us' hOther)

/-- To drop an agent is a bout. -/
theorem bout_dropped (hSound : c.Sound) (a : Agent) :
    Bout a c (c.dropped a) (c.ledger.abandon a (c.pending a)).2 := by
  have hThread : (c.dropped a).threads a = .ended (.result (.error .cancelled)) :=
    threads_goOn _ _
  have hMoves := Ledger.abandon_moves (l := c.ledger) (a := a) (c.pending a)
  have hActs : c.Acts a false (c.dropped a) := by
    refine ⟨?_, fun b hb => Function.update_of_ne hb _ _⟩
    unfold dropped
    rw [pending_goOn, Function.update_self]
    exact hMoves
  refine ⟨⟨hActs.coherent hSound, fun b => ?_⟩, rfl, fun hb => hActs.frame hSound hb,
    Ledger.abandon_wakes hSound.coherent rfl, fun _ => ?_⟩
  · by_cases hb : b = a
    · subst hb
      rw [hThread]
      exact ⟨false, rfl, fun _ => copies_abandon _ _ _⟩
    · obtain ⟨hSame, hCopies, -⟩ := hActs.frame hSound hb
      rw [hSame, hCopies]
      exact hSound.orderly b
  · rw [hThread]
    exact .of_ended

end Crowd

namespace Schedule

variable {env : Surroundings} {s : Schedule} {u? : Option Waiter} {u w : Waiter}
  {xs ys ws : List Waiter} {a : Agent} {woken others : List Agent} {c c' : Crowd}

/-- A schedule is in order. There may be a command whose turn it is, and commands that have been given
their row and passed over; of the others, those are on the list that have been given their row or
whose deadline has come. -/
structure InOrder (s : Schedule) (u? : Option Waiter) (xs ws : List Waiter) : Prop where
  seats : ∃ c : Crowd, c.ledger = s.ledger ∧ c.Seats (u?.toList ++ (xs ++ ws))
  within : ∀ w ∈ u?.toList ++ (xs ++ ws), w.thread.Within 2 (s.ledger.store.view w.agent)
  agents : ((u?.toList ++ (xs ++ ws)).map Waiter.agent).Nodup
  old : ∀ w ∈ u?.toList ++ (xs ++ ws), w.agent < s.nextAgent
  fresh : ∀ a, s.nextAgent ≤ a → s.ledger.store.copies a = []
  ready_nodup : s.ready.Nodup
  listed : ∀ a ∈ s.ready, ∃ w ∈ ws, w.agent = a
  ready_iff : ∀ w ∈ ws, w.agent ∈ s.ready ↔ s.isGranted w = true ∨ w.isDue s.ledger.now = true
  passed : ∀ x ∈ xs, s.isGranted x = true

/-- Two wakings are one, of agents that are not named twice. -/
theorem wake_wake (s : Schedule) {l l' : Ledger} (hNodup : (woken ++ others).Nodup) :
    (s.wake l woken).wake l' others = s.wake l' (woken ++ others) := by
  unfold wake
  have hOthers : others.filter (· ∉ s.ready ++ woken.filter (· ∉ s.ready)) =
      others.filter (· ∉ s.ready) := by
    refine List.filter_congr fun b hMem => ?_
    have hNew : b ∉ woken := fun hOld => (List.nodup_append.mp hNodup).2.2 b hOld b hMem rfl
    simp [hNew]
  simp only [hOthers, List.filter_append, List.append_assoc]

theorem mem_ready_wake {l : Ledger} {b : Agent} :
    b ∈ (s.wake l woken).ready ↔ b ∈ s.ready ∨ b ∈ woken := by
  unfold wake
  by_cases hb : b ∈ s.ready <;> simp [hb]

theorem nodup_ready_wake {l : Ledger} (hReady : s.ready.Nodup) (hWoken : woken.Nodup) :
    (s.wake l woken).ready.Nodup := by
  refine List.nodup_append.mpr ⟨hReady, hWoken.filter _, ?_⟩
  rintro b hb _ hNew rfl
  simp [hb] at hNew

theorem isGranted_iff : s.isGranted w = true ↔ s.ledger.store.holder? w.row = some w.agent :=
  Store.holds_iff

/-- Who has got its row keeps it through somebody else's bout. -/
theorem isGranted_wake (hLedger : c.ledger = s.ledger) (hBout : Crowd.Bout a c c' woken)
    (hOther : w.agent ≠ a) (hGranted : s.isGranted w = true) :
    (s.wake c'.ledger woken).isGranted w = true := by
  rw [isGranted_iff] at hGranted ⊢
  rw [← hLedger] at hGranted
  exact ((hBout.frame hOther).2.2 w.row hGranted).1

/-- Who is woken by a bout is one of the others, and has got its row. -/
theorem mem_woken_iff {us vs : List Waiter} (hLedger : c.ledger = s.ledger)
    (hSeats : c.Seats (us ++ vs)) (hMine : ∀ u ∈ us, u.agent = a) (hOthers : ∀ v ∈ vs, v.agent ≠ a)
    (hBout : Crowd.Bout a c c' woken) {b : Agent} :
    b ∈ woken ↔ ∃ v ∈ vs, v.agent = b ∧ s.isGranted v = false ∧
      (s.wake c'.ledger woken).isGranted v = true := by
  rw [hBout.wakes.mem_iff, hLedger]
  constructor
  · rintro ⟨hb, id, hPending, hNot, hHolder⟩
    obtain ⟨v, hMem, rfl, rfl⟩ := hSeats.exists_of_pending hPending
    refine ⟨v, ?_, rfl, ?_, isGranted_iff.mpr hHolder⟩
    · exact (List.mem_append.mp hMem).resolve_left fun hOwn => hb (hMine v hOwn)
    · rw [← Bool.not_eq_true, isGranted_iff]
      exact hNot
  · rintro ⟨v, hMem, rfl, hNot, hGranted⟩
    refine ⟨hOthers v hMem, v.row, hSeats.pending_eq (List.mem_append_right _ hMem), ?_, ?_⟩
    · rw [← Bool.not_eq_true, isGranted_iff] at hNot
      exact hNot
    · exact isGranted_iff.mp hGranted

/-- Of commands with agents of their own, those are on the list after a bout that have got their row by
then, or whose deadline has come. -/
theorem mem_ready_iff {us vs : List Waiter} (hLedger : c.ledger = s.ledger)
    (hSeats : c.Seats (us ++ vs)) (hMine : ∀ u ∈ us, u.agent = a) (hOthers : ∀ v ∈ vs, v.agent ≠ a)
    (hBout : Crowd.Bout a c c' woken) (hAgents : (vs.map Waiter.agent).Nodup) (hMem : w ∈ vs)
    (hBefore : w.agent ∈ s.ready ↔ s.isGranted w = true ∨ w.isDue s.ledger.now = true) :
    w.agent ∈ (s.wake c'.ledger woken).ready ↔
      (s.wake c'.ledger woken).isGranted w = true ∨
        w.isDue (s.wake c'.ledger woken).ledger.now = true := by
  have hNow : (s.wake c'.ledger woken).ledger.now = s.ledger.now :=
    hBout.now_eq.trans (congrArg Ledger.now hLedger)
  rw [mem_ready_wake, hBefore, hNow, mem_woken_iff hLedger hSeats hMine hOthers hBout]
  constructor
  · rintro ((hGranted | hDue) | ⟨v, hv, hAgent, -, hGranted⟩)
    · exact Or.inl (isGranted_wake hLedger hBout (hOthers w hMem) hGranted)
    · exact Or.inr hDue
    · obtain rfl : v = w := List.inj_on_of_nodup_map hAgents hv hMem hAgent
      exact Or.inl hGranted
  · rintro (hGranted | hDue)
    · cases hSince : s.isGranted w with
      | true => exact Or.inl (Or.inl rfl)
      | false => exact Or.inr ⟨w, hMem, rfl, hSince, hGranted⟩
    · exact Or.inl (Or.inr hDue)

/-- A bout of the command whose turn it is keeps the schedule in order. -/
theorem InOrder.bout {u?' : Option Waiter} (hOrder : s.InOrder u? xs ws)
    (hLedger : c.ledger = s.ledger) (hSeats : c.Seats (u?.toList ++ (xs ++ ws)))
    (hMine : ∀ u ∈ u?.toList, u.agent = a) (hOthers : ∀ v ∈ xs ++ ws, v.agent ≠ a)
    (hOld : a < s.nextAgent) (hBout : Crowd.Bout a c c' woken)
    (hNow : ∀ u ∈ u?'.toList, u.agent = a ∧ c'.threads a = u.thread)
    (hIdle : u?' = none → c'.pending a = none)
    (hWithin : (c'.threads a).Within 2 (c'.ledger.store.view a)) :
    (s.wake c'.ledger woken).InOrder u?' xs ws := by
  have hSeats' : c'.Seats (u?'.toList ++ (xs ++ ws)) :=
    hSeats.bout hMine hOthers hBout hNow fun hNil => hIdle (by
      cases u?' with
      | none => rfl
      | some u => cases hNil)
  have hAgents := hOrder.agents
  rw [List.map_append, List.nodup_append] at hAgents
  refine ⟨⟨c', rfl, hSeats'⟩, ?_, ?_, ?_, ?_, nodup_ready_wake hOrder.ready_nodup hBout.wakes.nodup,
    ?_, ?_, ?_⟩
  · intro v hMem
    rcases List.mem_append.mp hMem with hNew | hOther
    · obtain ⟨hAgent, hThread⟩ := hNow v hNew
      rw [← hThread, hAgent]
      exact hWithin
    · obtain ⟨-, hCopies, hHeld⟩ := hBout.frame (hOthers v hOther)
      have hBefore := hOrder.within v (List.mem_append_right _ hOther)
      rw [← hLedger] at hBefore
      refine hBefore.congr hCopies fun id hLocked => (hHeld id ?_).2
      exact hSeats.sound.coherent.holder?_of_locked hLocked
  · rw [List.map_append, List.nodup_append]
    refine ⟨?_, hAgents.2.1, ?_⟩
    · cases u?' <;> simp
    · rintro b hNew _ hOther rfl
      obtain ⟨u, hu, rfl⟩ := List.mem_map.mp hNew
      obtain ⟨v, hv, hSame⟩ := List.mem_map.mp hOther
      exact hOthers v hv (hSame.trans (hNow u hu).1)
  · intro v hMem
    rcases List.mem_append.mp hMem with hNew | hOther
    · rw [(hNow v hNew).1]
      exact hOld
    · exact hOrder.old v (List.mem_append_right _ hOther)
  · intro b hb
    have hNe : b ≠ a := fun hSame => Nat.lt_irrefl a (Nat.lt_of_lt_of_le hOld (hSame ▸ hb))
    show c'.ledger.store.copies b = []
    rw [(hBout.frame hNe).2.1, hLedger]
    exact hOrder.fresh b hb
  · intro b hMem
    rcases mem_ready_wake.mp hMem with hListed | hNew
    · exact hOrder.listed b hListed
    · obtain ⟨v, hv, hAgent, hNot, -⟩ :=
        (mem_woken_iff hLedger hSeats hMine hOthers hBout).mp hNew
      rcases List.mem_append.mp hv with hPassed | hv
      · rw [hOrder.passed v hPassed] at hNot
        cases hNot
      · exact ⟨v, hv, hAgent⟩
  · exact fun v hMem => mem_ready_iff hLedger hSeats hMine hOthers hBout hAgents.2.1
      (List.mem_append_right xs hMem) (hOrder.ready_iff v hMem)
  · intro x hx
    have hMem := List.mem_append_left ws hx
    exact isGranted_wake hLedger hBout (hOthers x hMem) (hOrder.passed x hx)

/-- An agent that is no waiting command may set out on something of its own. -/
theorem InOrder.seat {t : Thread} {isOpen : Bool} (hOrder : s.InOrder none xs ws)
    (hNot : ∀ w ∈ xs ++ ws, w.agent ≠ a) (hRow : t.row? = none) (hOrderly : t.Orderly isOpen)
    (hClosed : isOpen = false → s.ledger.store.copies a = []) :
    ∃ c : Crowd, c.ledger = s.ledger ∧ c.Seats (xs ++ ws) ∧ c.threads a = t := by
  obtain ⟨c, hLedger, hSeats⟩ := hOrder.seats
  rw [← hLedger] at hClosed
  exact ⟨c.goOn a c.ledger t, hLedger, hSeats.reseat hNot hRow hOrderly rfl hClosed,
    Crowd.threads_goOn _ _⟩

/-- A command that comes to its end by a bout leaves the schedule in order. -/
theorem InOrder.over {ending : Ending} (hOrder : s.InOrder u? xs ws)
    (hLedger : c.ledger = s.ledger) (hSeats : c.Seats (u?.toList ++ (xs ++ ws)))
    (hMine : ∀ u ∈ u?.toList, u.agent = a) (hOthers : ∀ v ∈ xs ++ ws, v.agent ≠ a)
    (hOld : a < s.nextAgent) (hBout : Crowd.Bout a c c' woken)
    (hEnded : c'.threads a = .ended ending) :
    (s.wake c'.ledger woken).InOrder none xs ws := by
  refine hOrder.bout hLedger hSeats hMine hOthers hOld hBout (by simp) (fun _ => ?_) ?_
  · show (c'.threads a).row? = none
    rw [hEnded]
    rfl
  · rw [hEnded]
    exact .of_ended

/-! ## One turn -/

/-- A command that was let run is over, or waits for a row of somebody else's with its deadline ahead,
no more than so many times in the end. -/
def Turn.Settles (a : Agent) (deadline : Option Instant) (n : Nat) (xs ws : List Waiter) : Turn → Prop
  | .ended _ s => s.InOrder none xs ws
  | .waiting w s => s.InOrder (some w) xs ws ∧ w.agent = a ∧ w.deadline = deadline ∧ w.waits ≤ n ∧
      s.isGranted w = false ∧ w.isDue s.ledger.now = false

theorem InOrder.ne_of_mem (hOrder : s.InOrder (some u) xs ws) {v : Waiter} (hMem : v ∈ xs ++ ws) :
    v.agent ≠ u.agent := by
  have hAgents := hOrder.agents
  rw [List.map_append, List.nodup_append] at hAgents
  intro hSame
  exact hAgents.2.2 u.agent List.mem_cons_self v.agent (List.mem_map_of_mem hMem) hSame.symm

theorem InOrder.abandon (hOrder : s.InOrder (some u) xs ws) :
    (s.abandon u.agent (some u.row)).InOrder none xs ws := by
  obtain ⟨c, hLedger, hSeats⟩ := hOrder.seats
  have hMem : u ∈ (some u).toList ++ (xs ++ ws) := List.mem_cons_self
  have hOver := hOrder.over hLedger hSeats (by simp) (fun _ => hOrder.ne_of_mem)
    (hOrder.old u hMem) (Crowd.bout_dropped hSeats.sound u.agent) (Crowd.threads_goOn _ _)
  have hSame : (c.dropped u.agent).ledger = (s.ledger.abandon u.agent (some u.row)).1 := by
    show (c.ledger.abandon u.agent (c.pending u.agent)).1 = _
    rw [hSeats.pending_eq hMem, hLedger]
  rw [hSame, hSeats.pending_eq hMem, hLedger] at hOver
  exact hOver

/-- A command that was let run by a bout is over, or waits for a row of somebody else's. -/
theorem InOrder.turn {n : Nat} {deadline : Option Instant} {progress : Progress Reply}
    (hOrder : s.InOrder u? xs ws) (hLedger : c.ledger = s.ledger)
    (hSeats : c.Seats (u?.toList ++ (xs ++ ws))) (hMine : ∀ u ∈ u?.toList, u.agent = a)
    (hOthers : ∀ v ∈ xs ++ ws, v.agent ≠ a) (hOld : a < s.nextAgent)
    (hBout : Crowd.Bout a c (c.reached a progress) (progress.woken a))
    (hOutside : (c.reached a progress).Outside a) (hn : n ≤ 2)
    (hWithin : ((c.reached a progress).threads a).Within n
      ((c.reached a progress).ledger.store.view a)) :
    (s.turn a deadline progress).Settles a deadline n xs ws := by
  cases progress with
  | ended r l woken =>
    exact hOrder.over hLedger hSeats hMine hOthers hOld hBout (Crowd.threads_goOn _ _)
  | faulted f l woken =>
    show ((s.wake l woken).wake (l.abandon a none).1 (l.abandon a none).2).InOrder none xs ws
    rw [wake_wake s hBout.wakes.nodup]
    exact hOrder.over hLedger hSeats hMine hOthers hOld hBout (Crowd.threads_goOn _ _)
  | waiting call next row l woken =>
    have hThread : (c.reached a (.waiting call next row l woken)).threads a =
      .waiting call next row := Crowd.threads_goOn _ _
    have hPending := Crowd.pending_of_waiting hThread
    have hWaits : (s.wake l woken).InOrder (some ⟨a, call, next, row, deadline⟩) xs ws := by
      refine hOrder.bout hLedger hSeats hMine hOthers hOld hBout ?_ (by rintro ⟨⟩)
        (hWithin.mono hn)
      intro u hu
      obtain rfl := List.mem_singleton.mp hu
      exact ⟨rfl, hThread⟩
    simp only [Schedule.turn]
    split
    · exact hWaits.abandon
    · next hAhead =>
      refine ⟨hWaits, rfl, rfl, ?_, ?_, Bool.eq_false_iff.mpr hAhead⟩
      · obtain ⟨isOpen, hOrderly, -⟩ := hBout.sound.orderly a
        rw [hThread] at hOrderly hWithin
        exact (hWithin.of_waiting hOrderly.2 (hBout.sound.coherent.apart hPending)).1
      · rw [← Bool.not_eq_true, isGranted_iff]
        exact hOutside row hPending

/-- A command that has been given its row goes on in order, with one wait fewer to come; one whose
deadline has come is over. -/
theorem InOrder.poll (env : Surroundings) (hOrder : s.InOrder (some u) xs ws) :
    s.isGranted u = true ∧ (s.poll env u).Settles u.agent u.deadline (u.waits - 1) xs ws ∨
    s.isGranted u = false ∧ u.isDue s.ledger.now = true ∧
      s.poll env u = .ended (.result (.error .cancelled)) (s.abandon u.agent (some u.row)) ∨
    s.isGranted u = false ∧ u.isDue s.ledger.now = false ∧ s.poll env u = .waiting u s := by
  obtain ⟨c, hLedger, hSeats⟩ := hOrder.seats
  have hMem : u ∈ (some u).toList ++ (xs ++ ws) := List.mem_cons_self
  have hThread := hSeats.thread_eq hMem
  have hWithin := hOrder.within u hMem
  cases hGranted : s.isGranted u with
  | true =>
    refine Or.inl ⟨rfl, ?_⟩
    have hHolds : c.ledger.store.holds u.agent u.row = true := by
      rw [hLedger]
      exact hGranted
    -- it has as many waits before it as its program
    obtain ⟨isOpen, hOrderly, -⟩ := hSeats.sound.orderly u.agent
    rw [hThread] at hOrderly
    rw [← hLedger] at hWithin
    obtain ⟨hTwice, hWaits⟩ := hWithin.of_waiting hOrderly.2
      (hSeats.sound.coherent.apart (hSeats.pending_eq hMem))
    obtain ⟨hBout, hOutside, hFewer⟩ := Crowd.bout_driveOn env hSeats.sound hThread hHolds
      (by rw [hThread]; exact hWaits)
    rw [hLedger] at hBout hOutside hFewer
    unfold Schedule.poll
    rw [if_pos hGranted]
    exact hOrder.turn hLedger hSeats (by simp) (fun _ => hOrder.ne_of_mem) (hOrder.old u hMem)
      hBout hOutside ((Nat.sub_le _ 1).trans hTwice) hFewer
  | false =>
    refine Or.inr ?_
    unfold Schedule.poll
    rw [if_neg (by simp [hGranted])]
    cases hDue : u.isDue s.ledger.now with
    | true => exact Or.inl ⟨rfl, rfl, if_pos rfl⟩
    | false => exact Or.inr ⟨rfl, rfl, if_neg (by simp)⟩

/-! ## What a turn leaves as it is -/

/-- The clock, the agents, and the commands that wait are as they were. -/
structure Keeps (s s' : Schedule) : Prop where
  now_eq : s'.ledger.now = s.ledger.now
  nextAgent_eq : s'.nextAgent = s.nextAgent
  waiters_eq : s'.waiters = s.waiters

theorem keeps_turn (s : Schedule) (a : Agent) (deadline : Option Instant)
    {progress : Progress Reply} (hNow : progress.ledger.now = s.ledger.now) :
    s.Keeps (s.turn a deadline progress).schedule := by
  cases progress with
  | ended | faulted => exact ⟨hNow, rfl, rfl⟩
  | waiting =>
    unfold turn
    simp only
    split <;> exact ⟨hNow, rfl, rfl⟩

theorem now_drive (env : Surroundings) (a : Agent) (program : Program Reply) (l : Ledger)
    (woken : List Agent) : (l.drive env a program woken).ledger.now = l.now := by
  induction program generalizing l woken with
  | done result => rfl
  | call c next ih =>
    have hKeyed : (l.perform env a c).Keyed l a := Ledger.perform_keyed
    cases hOutcome : l.perform env a c with
    | replied answer l' others =>
      rw [hOutcome] at hKeyed
      simp only [Ledger.drive, hOutcome]
      exact (ih answer l' _).trans hKeyed.1
    | waiting row l' =>
      rw [hOutcome] at hKeyed
      simp only [Ledger.drive, hOutcome]
      exact hKeyed.1
    | faulted f l' =>
      rw [hOutcome] at hKeyed
      simp only [Ledger.drive, hOutcome]
      exact hKeyed.1

theorem now_driveOn (env : Surroundings) (a : Agent) (c : Call)
    (next : Result c.Answer → Program Reply) (l : Ledger) :
    (l.driveOn env a c next).ledger.now = l.now := by
  have hKeyed : (l.resume env a c).Keyed l a := Ledger.resume_keyed
  cases hOutcome : l.resume env a c with
  | replied answer l' woken =>
    rw [hOutcome] at hKeyed
    simp only [Ledger.driveOn, hOutcome]
    exact (now_drive env a _ l' woken).trans hKeyed.1
  | waiting row l' =>
    rw [hOutcome] at hKeyed
    simp only [Ledger.driveOn, hOutcome]
    exact hKeyed.1
  | faulted f l' =>
    rw [hOutcome] at hKeyed
    simp only [Ledger.driveOn, hOutcome]
    exact hKeyed.1

theorem keeps_poll (env : Surroundings) (s : Schedule) (w : Waiter) :
    s.Keeps (s.poll env w).schedule := by
  unfold poll
  split
  · exact keeps_turn s _ _ (now_driveOn env _ _ _ _)
  · split <;> exact ⟨rfl, rfl, rfl⟩

theorem now_serve (env : Surroundings) (s : Schedule) (a : Agent) :
    (s.serve env a).1.ledger.now = s.ledger.now := by
  unfold serve
  split
  · rfl
  · next w _ =>
    have hNow := (keeps_poll env s w).now_eq
    split
    · next hTurn =>
      rw [hTurn] at hNow
      exact hNow
    · next hTurn =>
      rw [hTurn] at hNow
      exact hNow

end Schedule

end Purse
