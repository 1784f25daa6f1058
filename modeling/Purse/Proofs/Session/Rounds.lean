import Purse.Proofs.Session.Order

/-!
# Turn after turn

A schedule lets those on its list run, one after another, until nobody is left on it. As no command
waits more than twice there are turns enough for that: `settle` ends with nobody on the list, and what
is left waits for a row of somebody else's, with its deadline ahead.

## Definitions

* `Schedule.Onward`: a schedule in order, with so many turns to come at most.

## Results

* `InOrder.serve_background`, `InOrder.serve_foreground`: a turn keeps a schedule in order, and there is
  one turn fewer to come.
* `Onward.run`, `InOrder.still`: nobody is left on the list in the end.
* `Still.blocked`: whoever waits then waits for a row that somebody else's transaction has locked.
-/

namespace Purse

namespace Schedule

variable {env : Surroundings} {s : Schedule} {u? : Option Waiter} {u w : Waiter}
  {xs ys ws : List Waiter}

/-- The same commands, put in other places, with another list that tells of them. -/
theorem InOrder.regroup {u?' : Option Waiter} {xs' ws' : List Waiter} (ready : List Agent)
    (hOrder : s.InOrder u? xs ws)
    (hPerm : (u?'.toList ++ (xs' ++ ws')).Perm (u?.toList ++ (xs ++ ws))) (hNodup : ready.Nodup)
    (hListed : ∀ a ∈ ready, ∃ w ∈ ws', w.agent = a)
    (hIff : ∀ w ∈ ws', w.agent ∈ ready ↔ s.isGranted w = true ∨ w.isDue s.ledger.now = true)
    (hPassed : ∀ x ∈ xs', s.isGranted x = true) : InOrder { s with ready } u?' xs' ws' where
  seats := by
    obtain ⟨c, hLedger, hSeats⟩ := hOrder.seats
    exact ⟨c, hLedger, hSeats.congr fun w => hPerm.mem_iff⟩
  within w hMem := hOrder.within w (hPerm.mem_iff.mp hMem)
  agents := (hPerm.map Waiter.agent).nodup_iff.mpr hOrder.agents
  old w hMem := hOrder.old w (hPerm.mem_iff.mp hMem)
  fresh := hOrder.fresh
  ready_nodup := hNodup
  listed := hListed
  ready_iff := hIff
  passed := hPassed

theorem InOrder.not_listed (hOrder : s.InOrder (some u) xs ws) : u.agent ∉ s.ready := by
  intro hMem
  obtain ⟨v, hv, hAgent⟩ := hOrder.listed _ hMem
  exact hOrder.ne_of_mem (List.mem_append_right xs hv) hAgent

/-- A command that waits for a row of somebody else's, with its deadline ahead, is one of the others. -/
theorem InOrder.rejoin {ws' : List Waiter} (hOrder : s.InOrder (some u) xs ws)
    (hUngranted : s.isGranted u = false) (hAhead : u.isDue s.ledger.now = false)
    (hPerm : ws'.Perm (u :: ws)) : s.InOrder none xs ws' := by
  refine hOrder.regroup s.ready ?_ hOrder.ready_nodup ?_ ?_ hOrder.passed
  · exact (hPerm.append_left xs).trans List.perm_middle
  · intro a hMem
    obtain ⟨v, hv, hAgent⟩ := hOrder.listed a hMem
    exact ⟨v, hPerm.mem_iff.mpr (List.mem_cons_of_mem u hv), hAgent⟩
  · intro v hMem
    rcases List.mem_cons.mp (hPerm.mem_iff.mp hMem) with rfl | hv
    · simp [hOrder.not_listed, hUngranted, hAhead]
    · exact hOrder.ready_iff v hv

/-- The first command on the list is taken off it, and gets its turn or is passed over. -/
theorem InOrder.pop {u?' : Option Waiter} {xs' ws' : List Waiter} {rest : List Agent}
    (hOrder : s.InOrder none xs ws) (hReady : s.ready = w.agent :: rest)
    (hPerm : ws.Perm (w :: ws')) (hPlace : (u?'.toList ++ xs').Perm (w :: xs))
    (hPassed : ∀ x ∈ xs', s.isGranted x = true) :
    InOrder { s with ready := rest } u?' xs' ws' := by
  have hNodup := hOrder.ready_nodup
  rw [hReady, List.nodup_cons] at hNodup
  have hAgents : (ws.map Waiter.agent).Nodup := by
    have hAll := hOrder.agents
    rw [Option.toList_none, List.nil_append, List.map_append] at hAll
    exact (List.nodup_append.mp hAll).2.1
  rw [(hPerm.map Waiter.agent).nodup_iff, List.map_cons, List.nodup_cons] at hAgents
  have hNe : ∀ v ∈ ws', v.agent ≠ w.agent := fun v hv hSame =>
    hAgents.1 (hSame ▸ List.mem_map_of_mem hv)
  refine hOrder.regroup rest ?_ hNodup.2 ?_ ?_ hPassed
  · rw [← List.append_assoc, Option.toList_none, List.nil_append]
    refine (hPlace.append_right ws').trans ?_
    exact List.perm_middle.symm.trans (hPerm.symm.append_left xs)
  · intro a hMem
    obtain ⟨v, hv, hAgent⟩ := hOrder.listed a (hReady ▸ List.mem_cons_of_mem _ hMem)
    rcases List.mem_cons.mp (hPerm.mem_iff.mp hv) with rfl | hOther
    · exact absurd (hAgent ▸ hMem) hNodup.1
    · exact ⟨v, hOther, hAgent⟩
  · intro v hv
    rw [← hOrder.ready_iff v (hPerm.mem_iff.mpr (List.mem_cons_of_mem w hv)), hReady,
      List.mem_cons]
    simp [hNe v hv]

/-- Replacing what the command of an agent waits for. -/
theorem perm_replaceWaiter {ws : List Waiter} (hAgents : (ws.map Waiter.agent).Nodup)
    (hMem : w ∈ ws) (w? : Option Waiter) :
    (replaceWaiter ws w.agent w?).Perm (w?.toList ++ ws.filter (·.agent ≠ w.agent)) := by
  have hOthers : ∀ vs : List Waiter, (∀ v ∈ vs, v.agent ≠ w.agent) →
      replaceWaiter vs w.agent w? = vs ∧ vs.filter (·.agent ≠ w.agent) = vs := by
    intro vs hNot
    refine ⟨?_, List.filter_eq_self.mpr fun v hv => by simpa using hNot v hv⟩
    unfold replaceWaiter
    rw [List.filterMap_congr fun v hv => if_neg (hNot v hv), List.filterMap_some]
  induction ws with
  | nil => cases hMem
  | cons v vs ih =>
    rw [List.map_cons, List.nodup_cons] at hAgents
    by_cases hv : v.agent = w.agent
    · obtain ⟨hSame, hKept⟩ := hOthers vs fun x hx hSame =>
        hAgents.1 (hv.trans hSame.symm ▸ List.mem_map_of_mem hx)
      have hReplaced : replaceWaiter (v :: vs) w.agent w? = w?.toList ++ vs := by
        have hHead : replaceWaiter (v :: vs) w.agent w? =
            w?.toList ++ replaceWaiter vs w.agent w? := by
          unfold replaceWaiter
          rw [List.filterMap_cons, if_pos hv]
          cases w? <;> rfl
        rw [hHead, hSame]
      rw [hReplaced, List.filter_cons_of_neg (by simpa using hv), hKept]
    · have hRest : w ∈ vs := (List.mem_cons.mp hMem).resolve_left fun hSame => hv (by rw [hSame])
      have hReplaced : replaceWaiter (v :: vs) w.agent w? = v :: replaceWaiter vs w.agent w? := by
        unfold replaceWaiter
        rw [List.filterMap_cons, if_neg hv]
      rw [hReplaced, List.filter_cons_of_pos (by simpa using hv)]
      exact ((ih hAgents.2 hRest).cons v).trans List.perm_middle.symm

theorem replaceWaiter_self {ws : List Waiter} (hAgents : (ws.map Waiter.agent).Nodup)
    (hMem : w ∈ ws) : ws.Perm (w :: ws.filter (·.agent ≠ w.agent)) := by
  have hSame : replaceWaiter ws w.agent (some w) = ws := by
    unfold replaceWaiter
    rw [List.filterMap_congr (g := some) fun v hv => ?_, List.filterMap_some]
    split
    · next hAgent => rw [List.inj_on_of_nodup_map hAgents hv hMem hAgent]
    · rfl
  have hPerm := perm_replaceWaiter hAgents hMem (some w)
  rw [hSame] at hPerm
  exact hPerm

theorem replaceWaiter_none (ws : List Waiter) (a : Agent) :
    replaceWaiter ws a none = ws.filter (·.agent ≠ a) := by
  unfold replaceWaiter
  rw [← List.filterMap_eq_filter]
  refine List.filterMap_congr fun w _ => ?_
  by_cases hw : w.agent = a <;> simp [hw, Option.guard]

theorem InOrder.withWaiters (hOrder : s.InOrder u? xs ws) (waiters : List Waiter) :
    InOrder { s with waiters } u? xs ws :=
  ⟨hOrder.seats, hOrder.within, hOrder.agents, hOrder.old, hOrder.fresh, hOrder.ready_nodup,
    hOrder.listed, hOrder.ready_iff, hOrder.passed⟩

/-- How often some commands may still wait, all together. -/
def waitsOf : List Waiter → Nat
  | [] => 0
  | w :: ws => w.waits + waitsOf ws

theorem waitsOf_perm {ws ws' : List Waiter} (hPerm : ws.Perm ws') : waitsOf ws = waitsOf ws' := by
  induction hPerm with
  | nil => rfl
  | cons w _ ih => exact congrArg (w.waits + ·) ih
  | swap v w ws => exact Nat.add_left_comm _ _ _
  | trans _ _ ih ih' => exact ih.trans ih'

/-- How many turns there are at most: as many as commands may still wait, and one for each command
that is only passed over. -/
def turnsFor (ys ws : List Waiter) : Nat := ys.length + waitsOf ws

/-- A schedule in order, with the commands that are waited for in the foreground, in which fewer than so
many turns are to come. -/
def Onward (zs : List Waiter) (turns : Nat) (s : Schedule) : Prop :=
  ∃ xs ys, s.InOrder none xs (ys ++ s.waiters) ∧ (xs ++ ys).Perm zs ∧ turnsFor ys s.waiters < turns

theorem InOrder.nodup_others (hOrder : s.InOrder u? xs ws) : (ws.map Waiter.agent).Nodup := by
  have hAll := hOrder.agents
  rw [List.map_append, List.map_append] at hAll
  exact (List.nodup_append.mp (List.nodup_append.mp hAll).2.1).2.1

theorem find?_agent {ws : List Waiter} (hAgents : (ws.map Waiter.agent).Nodup) (hMem : w ∈ ws) :
    ws.find? (·.agent = w.agent) = some w := by
  cases hFound : ws.find? (·.agent = w.agent) with
  | none => simpa using List.find?_eq_none.mp hFound w hMem
  | some v =>
    have hAgent : v.agent = w.agent := by simpa using List.find?_some hFound
    rw [List.inj_on_of_nodup_map hAgents (List.mem_of_find?_eq_some hFound) hMem hAgent]

/-- A turn of a command in the background, which has been given its row or whose deadline has come. -/
theorem InOrder.serve_background {rest : List Agent} (env : Surroundings)
    (hOrder : s.InOrder none xs (ys ++ s.waiters)) (hReady : s.ready = w.agent :: rest)
    (hMem : w ∈ s.waiters) : Onward (xs ++ ys) (turnsFor ys s.waiters)
      (Schedule.serve env { s with ready := rest } w.agent).1 := by
  have hAgents : (s.waiters.map Waiter.agent).Nodup := by
    have hAll := hOrder.nodup_others
    rw [List.map_append] at hAll
    exact (List.nodup_append.mp hAll).2.1
  have hSelf := replaceWaiter_self hAgents hMem
  have hOthers := replaceWaiter_none s.waiters w.agent
  have hPop : InOrder { s with ready := rest } (some w) xs
      (ys ++ s.waiters.filter (·.agent ≠ w.agent)) :=
    hOrder.pop hReady ((hSelf.append_left ys).trans List.perm_middle) (List.Perm.refl _)
      hOrder.passed
  have hOnce : 0 < w.waits := Program.waits_pos _
  have hFewer : ∀ {n}, n < w.waits →
      ys.length + (n + waitsOf (s.waiters.filter (·.agent ≠ w.agent))) < turnsFor ys s.waiters := by
    intro n hn
    rw [turnsFor, waitsOf_perm hSelf]
    exact Nat.add_lt_add_left (Nat.add_lt_add_right hn _) _
  -- a command that is over leaves the others
  have hOver : ∀ t : Schedule, t.InOrder none xs (ys ++ s.waiters.filter (·.agent ≠ w.agent)) →
      t.waiters = s.waiters → Onward (xs ++ ys) (turnsFor ys s.waiters)
        { t with waiters := replaceWaiter t.waiters w.agent none } := by
    intro t hLeft hSame
    rw [hSame, hOthers]
    refine ⟨xs, ys, hLeft.withWaiters _, List.Perm.refl _, ?_⟩
    have hLess := hFewer hOnce
    rw [Nat.zero_add] at hLess
    exact hLess
  have hSame := (keeps_poll env { s with ready := rest } w).waiters_eq
  unfold Schedule.serve
  rw [show ({ s with ready := rest } : Schedule).waiters = s.waiters from rfl,
    find?_agent hAgents hMem]
  obtain ⟨-, hSettles⟩ | ⟨-, -, hCancelled⟩ | ⟨hUngranted, hNotDue, -⟩ := hPop.poll env
  · cases hTurn : Schedule.poll env { s with ready := rest } w with
    | ended e t =>
      rw [hTurn] at hSettles hSame
      simp only [hTurn]
      exact hOver t hSettles hSame
    | waiting w' t =>
      rw [hTurn] at hSettles hSame
      obtain ⟨hStill, -, -, hLess, hUngranted, hNotDue⟩ := hSettles
      have hPerm := perm_replaceWaiter hAgents hMem (some w')
      simp only [hTurn]
      rw [show t.waiters = s.waiters from hSame]
      refine ⟨xs, ys, ?_, List.Perm.refl _, ?_⟩
      · refine (hStill.rejoin hUngranted hNotDue ?_).withWaiters _
        exact (hPerm.append_left ys).trans List.perm_middle
      · rw [turnsFor, waitsOf_perm hPerm]
        exact hFewer (Nat.lt_of_le_of_lt hLess (Nat.sub_lt hOnce Nat.one_pos))
  · simp only [hCancelled]
    exact hOver _ hPop.abandon rfl
  · -- it would not be on the list
    have hCalled := (hOrder.ready_iff w (List.mem_append_right ys hMem)).mp
      (by rw [hReady]; exact List.mem_cons_self)
    rcases hCalled with hGranted | hDue
    · exact absurd (hUngranted.symm.trans hGranted) (by simp)
    · exact absurd (hNotDue.symm.trans hDue) (by simp)

/-- A command that is waited for in the foreground, and has been given its row, is passed over. -/
theorem InOrder.serve_foreground {rest : List Agent} (env : Surroundings)
    (hOrder : s.InOrder none xs (ys ++ s.waiters)) (hReady : s.ready = w.agent :: rest)
    (hMem : w ∈ ys) (hAhead : w.isDue s.ledger.now = false) :
    Onward (xs ++ ys) (turnsFor ys s.waiters)
      (Schedule.serve env { s with ready := rest } w.agent).1 := by
  have hAgents := hOrder.nodup_others
  have hGranted : s.isGranted w = true :=
    ((hOrder.ready_iff w (List.mem_append_left _ hMem)).mp
      (by rw [hReady]; exact List.mem_cons_self)).resolve_right (by simp [hAhead])
  have hFind : s.waiters.find? (·.agent = w.agent) = none := by
    refine List.find?_eq_none.mpr fun v hv hAgent => ?_
    rw [List.map_append, List.nodup_append] at hAgents
    exact hAgents.2.2 w.agent (List.mem_map_of_mem hMem) v.agent (List.mem_map_of_mem hv)
      (by simpa using (decide_eq_true_iff.mp hAgent).symm)
  obtain ⟨before, after, rfl⟩ := List.append_of_mem hMem
  unfold Schedule.serve
  rw [show ({ s with ready := rest } : Schedule).waiters = s.waiters from rfl, hFind]
  refine ⟨w :: xs, before ++ after, ?_, ?_, ?_⟩
  · refine hOrder.pop hReady (List.perm_middle.append_right s.waiters) (List.Perm.refl _) ?_
    intro x hx
    rcases List.mem_cons.mp hx with rfl | hx
    · exact hGranted
    · exact hOrder.passed x hx
  · rw [List.cons_append, ← List.append_assoc, ← List.append_assoc]
    exact List.perm_middle.symm
  · simp only [turnsFor, List.length_append, List.length_cons]
    omega

/-- After some turns nobody is left on the list. -/
theorem Onward.run (env : Surroundings) {zs : List Waiter} {turns : Nat}
    (hOnward : s.Onward zs (turns + 1)) (hAhead : ∀ z ∈ zs, z.isDue s.ledger.now = false) :
    let s' := (Schedule.run env turns s).1
    s'.Onward zs (turns + 1) ∧ s'.ready = [] := by
  induction turns generalizing s with
  | zero =>
    obtain ⟨xs, ys, hOrder, hPerm, hTurns⟩ := hOnward
    refine ⟨⟨xs, ys, hOrder, hPerm, hTurns⟩, List.eq_nil_iff_forall_not_mem.mpr fun a hMem => ?_⟩
    obtain ⟨w, hw, -⟩ := hOrder.listed a hMem
    -- whoever is there has a turn to come
    have hNone : turnsFor ys s.waiters = 0 := Nat.lt_one_iff.mp hTurns
    unfold turnsFor at hNone
    obtain rfl : ys = [] := List.eq_nil_of_length_eq_zero (by omega)
    cases hWs : s.waiters with
    | nil => simp [hWs] at hw
    | cons v vs =>
      have hOnce : 0 < v.waits := Program.waits_pos _
      simp only [hWs, waitsOf] at hNone
      omega
  | succ turns ih =>
    unfold Schedule.run
    cases hReady : s.ready with
    | nil => exact ⟨hOnward, hReady⟩
    | cons a rest =>
      obtain ⟨xs, ys, hOrder, hPerm, hTurns⟩ := hOnward
      obtain ⟨w, hw, rfl⟩ := hOrder.listed a (by rw [hReady]; exact List.mem_cons_self)
      have hServed : Onward (xs ++ ys) (turnsFor ys s.waiters)
          (Schedule.serve env { s with ready := rest } w.agent).1 := by
        rcases List.mem_append.mp hw with hFront | hBack
        · refine hOrder.serve_foreground env hReady hFront (hAhead w ?_)
          exact hPerm.mem_iff.mp (List.mem_append_right xs hFront)
        · exact hOrder.serve_background env hReady hBack
      obtain ⟨xs', ys', hOrder', hPerm', hFewer⟩ := hServed
      have hLess : turnsFor ys' _ < turns + 1 := Nat.lt_of_lt_of_le hFewer (Nat.le_of_lt_succ hTurns)
      obtain ⟨⟨xs'', ys'', hOrder'', hPerm'', hLast⟩, hNobody⟩ :=
        ih ⟨xs', ys', hOrder', hPerm'.trans hPerm, hLess⟩ (by rw [now_serve]; exact hAhead)
      exact ⟨⟨xs'', ys'', hOrder'', hPerm'', Nat.lt_succ_of_lt hLast⟩, hNobody⟩

/-- A command waits at most twice in the end. -/
theorem InOrder.waits_le (hOrder : s.InOrder u? xs ws) (hMem : w ∈ u?.toList ++ (xs ++ ws)) :
    w.waits ≤ 2 := by
  obtain ⟨c, hLedger, hSeats⟩ := hOrder.seats
  obtain ⟨isOpen, hOrderly, -⟩ := hSeats.sound.orderly w.agent
  have hWithin := hOrder.within w hMem
  rw [hSeats.thread_eq hMem] at hOrderly
  rw [← hLedger] at hWithin
  exact (hWithin.of_waiting hOrderly.2 (hSeats.sound.coherent.apart (hSeats.pending_eq hMem))).1

theorem waitsOf_le {ws : List Waiter} (hTwice : ∀ w ∈ ws, w.waits ≤ 2) :
    waitsOf ws ≤ 2 * ws.length := by
  induction ws with
  | nil => exact Nat.zero_le _
  | cons w ws ih =>
    have hFirst := hTwice w List.mem_cons_self
    have hRest := ih fun v hv => hTwice v (List.mem_cons_of_mem w hv)
    rw [waitsOf, List.length_cons]
    omega

/-- Once all is still, a command that is waited for in the foreground has been given its row, or waits
as the others do. -/
theorem InOrder.settle (env : Surroundings) (zs : List Waiter)
    (hOrder : s.InOrder none [] (zs ++ s.waiters)) (hOne : zs.length ≤ 1)
    (hAhead : ∀ z ∈ zs, z.isDue s.ledger.now = false) :
    ∃ xs ys, (s.settle env).1.InOrder none xs (ys ++ (s.settle env).1.waiters) ∧
      (xs ++ ys).Perm zs ∧ (s.settle env).1.ready = [] := by
  have hTwice : waitsOf s.waiters ≤ 2 * s.waiters.length :=
    waitsOf_le fun w hw => hOrder.waits_le (List.mem_append_right zs hw)
  have hOnward : s.Onward zs (s.turnsLeft + 1) := by
    refine ⟨[], zs, hOrder, List.Perm.refl _, ?_⟩
    unfold turnsFor turnsLeft
    omega
  obtain ⟨⟨xs, ys, hAfter, hPerm, -⟩, hNobody⟩ := hOnward.run env hAhead
  exact ⟨xs, ys, hAfter, hPerm, hNobody⟩

/-! ## Still schedules -/

/-- A command waits in the line for a row that somebody else has locked. -/
def Blocked (s : Schedule) (w : Waiter) : Prop :=
  w.agent ∈ s.ledger.store.line w.row ∧ ∃ b, b ≠ w.agent ∧
    s.ledger.store.holder? w.row = some b ∧ w.row ∈ s.ledger.store.locked b

/-- All is still: nobody is on the list. -/
structure Still (s : Schedule) (ws : List Waiter) : Prop where
  inOrder : s.InOrder none [] ws
  ready_eq : s.ready = []

/-- Who is not on the list waits for a row of somebody else's, with its deadline ahead. -/
theorem InOrder.ahead (hOrder : s.InOrder u? xs ws) (hReady : s.ready = []) (hMem : w ∈ ws) :
    s.isGranted w = false ∧ w.isDue s.ledger.now = false := by
  have hNot : ¬ (s.isGranted w = true ∨ w.isDue s.ledger.now = true) := by
    rw [← hOrder.ready_iff w hMem, hReady]
    exact List.not_mem_nil
  rw [not_or] at hNot
  exact ⟨Bool.eq_false_iff.mpr hNot.1, Bool.eq_false_iff.mpr hNot.2⟩

theorem Still.ahead (hStill : s.Still ws) (hMem : w ∈ ws) :
    s.isGranted w = false ∧ w.isDue s.ledger.now = false :=
  hStill.inOrder.ahead hStill.ready_eq hMem

/-- When all is still, whoever waits waits for a row that somebody else's transaction has locked. -/
theorem Still.blocked (hStill : s.Still ws) (hMem : w ∈ ws) : s.Blocked w := by
  obtain ⟨c, hLedger, hSeats⟩ := hStill.inOrder.seats
  have hCoh := hSeats.sound.coherent
  rw [hLedger] at hCoh
  have hLine : w.agent ∈ s.ledger.store.line w.row :=
    hCoh.stands.mpr (Or.inr (hSeats.pending_eq hMem))
  refine ⟨hLine, ?_⟩
  cases hHead : s.ledger.store.line w.row with
  | nil => simp [hHead] at hLine
  | cons b rest =>
    have hHolder : s.ledger.store.holder? w.row = some b := by
      rw [hCoh.holder?_eq_head?, hHead]
      rfl
    have hOther : ∀ v ∈ ws, v.row = w.row → v.agent ≠ b := by
      rintro v hv hRow rfl
      have hGranted : s.isGranted v = true := isGranted_iff.mpr (hRow ▸ hHolder)
      rw [(hStill.ahead hv).1] at hGranted
      cases hGranted
    refine ⟨b, fun hSame => hOther w hMem rfl hSame.symm, hHolder, ?_⟩
    -- in front stands one that has locked the row, or one that has been given it
    have hFront : b ∈ s.ledger.store.line w.row := by simp [hHead]
    refine (hCoh.stands.mp hFront).resolve_right fun hPending => ?_
    obtain ⟨v, hv, hAgent, hRow⟩ := hSeats.exists_of_pending hPending
    exact hOther v hv hRow hAgent

/-- After commands were let run, all is still. -/
theorem InOrder.still (env : Surroundings) (hOrder : s.InOrder none [] s.waiters) :
    (s.settle env).1.Still (s.settle env).1.waiters := by
  obtain ⟨xs, ys, hAfter, hPerm, hNobody⟩ :=
    hOrder.settle env [] (Nat.zero_le 1) (by rintro _ ⟨⟩)
  obtain ⟨rfl, rfl⟩ := List.append_eq_nil_iff.mp hPerm.eq_nil
  exact ⟨hAfter, hNobody⟩

end Schedule

end Purse
