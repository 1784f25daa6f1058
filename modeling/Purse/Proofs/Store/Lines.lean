import Purse.Store

/-!
# Rows as lines

A row's lock and its queue are one first-in-first-out line: the agent in front holds the row, the
others wait. A newcomer goes to the end, letting go takes the front away, and giving up a place
closes the gap. What one agent does to a line leaves the others in it, in their order: `Beside`.

## Results

* `line_entered`, `line_released`, `line_left`: the line after each change of a row.
* `Beside.trans`: several doings of one agent are again beside the others.
* `Beside.head?`: the agent in front stays there while another one does something.
* `Beside.head?_cases`: to whom the place in front can go.
-/

namespace Purse

namespace Row

/-- Everybody at a row: who holds it, then those that wait, oldest first. -/
def line (r : Row) : List Agent := r.holder.toList ++ r.queue

/-- Nobody stands in the line twice, and only a row that is held is waited for. -/
structure Sound (r : Row) : Prop where
  nodup : r.line.Nodup
  idle : r.holder = none → r.queue = []

variable {r : Row} {a : Agent}

@[simp] theorem line_free (w : Wallet) : (free w).line = [] := rfl

theorem sound_free (w : Wallet) : (free w).Sound :=
  ⟨List.nodup_nil, fun _ => rfl⟩

/-- The front of the line holds the row. -/
theorem head?_line (hSound : r.Sound) : r.line.head? = r.holder := by
  unfold line
  cases hHolder : r.holder with
  | none => simp [hSound.idle hHolder]
  | some b => rfl

theorem line_of_holder (hHolder : r.holder = some a) : r.line = a :: r.queue := by
  simp [line, hHolder]

/-! ## The line after a change -/

theorem line_entered (hSound : r.Sound) : (r.entered a).line = r.line ++ [a] := by
  unfold entered line
  cases hHolder : r.holder with
  | none => simp [hSound.idle hHolder]
  | some b => simp

/-- The oldest of those that wait holds a row that has been let go of. -/
theorem line_released : r.released.line = r.queue := by
  unfold released line
  cases hQueue : r.queue with
  | nil => rfl
  | cons b rest => rfl

theorem line_left (hHolder : r.holder ≠ some a) : (r.left a).line = r.line.filter (· ≠ a) := by
  unfold left line
  cases h : r.holder with
  | none => simp
  | some b =>
    have hb : b ≠ a := fun heq => hHolder (by rw [h, heq])
    simp [hb]

@[simp] theorem committed_entered : (r.entered a).committed = r.committed := by
  unfold entered
  split <;> rfl

@[simp] theorem committed_released : r.released.committed = r.committed := by
  unfold released
  split <;> rfl

@[simp] theorem committed_left : (r.left a).committed = r.committed := rfl

theorem sound_entered (hSound : r.Sound) (hNew : a ∉ r.line) : (r.entered a).Sound := by
  refine ⟨?_, ?_⟩
  · rw [line_entered hSound]
    exact List.nodup_append.mpr ⟨hSound.nodup, by simp, by
      rintro b hb c hc rfl
      exact hNew (List.mem_singleton.mp hc ▸ hb)⟩
  · -- whoever comes to a free row holds it
    unfold entered
    cases hHolder : r.holder with
    | none => simp
    | some b => simp

theorem sound_released (hSound : r.Sound) (hHolder : r.holder = some a) : r.released.Sound := by
  refine ⟨?_, ?_⟩
  · have hNodup := hSound.nodup
    rw [line_of_holder hHolder] at hNodup
    rw [line_released]
    exact (List.nodup_cons.mp hNodup).2
  · -- a row becomes free only when nobody waits for it
    unfold released
    cases hQueue : r.queue with
    | nil => simp
    | cons b rest => simp

theorem sound_left (hSound : r.Sound) (hHolder : r.holder ≠ some a) : (r.left a).Sound := by
  refine ⟨?_, ?_⟩
  · rw [line_left hHolder]
    exact hSound.nodup.filter _
  · intro hNone
    show r.queue.filter (· ≠ a) = []
    rw [hSound.idle hNone]
    rfl

end Row

/-! ## What one agent does to a line -/

theorem filter_ne_of_not_mem {a : Agent} {l : List Agent} (hNot : a ∉ l) :
    l.filter (· ≠ a) = l := by
  apply List.filter_eq_self.mpr
  intro b hb
  have hNe : b ≠ a := fun heq => hNot (heq ▸ hb)
  simpa using hNe

/-- A line before and after something that one agent did: as it was, or without the agent, or with
the agent at the end. -/
def Beside (a : Agent) (before after : List Agent) : Prop :=
  after = before ∨ after = before.filter (· ≠ a) ∨ after = before.filter (· ≠ a) ++ [a]

namespace Beside

variable {a : Agent} {before mid after : List Agent}

theorem refl (a : Agent) (before : List Agent) : Beside a before before := Or.inl rfl

theorem of_ite {p : Prop} [Decidable p] (a : Agent) (before : List Agent) :
    Beside a before (if p then before.filter (· ≠ a) else before) := by
  split
  · exact Or.inr (Or.inl rfl)
  · exact refl a before

/-- The others keep their order, whatever the agent did. -/
theorem filter_eq (h : Beside a before after) :
    after.filter (· ≠ a) = before.filter (· ≠ a) := by
  rcases h with rfl | rfl | rfl
  · rfl
  · simp
  · simp

theorem trans (h₁ : Beside a before mid) (h₂ : Beside a mid after) : Beside a before after := by
  -- what is left without the agent is the same after the first doing
  have hOthers := h₁.filter_eq
  rcases h₂ with rfl | rfl | rfl
  · exact h₁
  · exact Or.inr (Or.inl hOthers)
  · exact Or.inr (Or.inr (by rw [hOthers]))

/-- The agent in front stays in front while another one does something. -/
theorem head? {b : Agent} (h : Beside a before after) (hNe : b ≠ a)
    (hFront : before.head? = some b) : after.head? = some b := by
  cases before with
  | nil => simp at hFront
  | cons c rest =>
    obtain rfl : c = b := by simpa using hFront
    have hKeep : (c :: rest).filter (· ≠ a) = c :: rest.filter (· ≠ a) := by simp [hNe]
    rcases h with rfl | rfl | rfl
    · rfl
    · rw [hKeep]; rfl
    · rw [hKeep]; rfl

/-- The place in front is handed on from the agent to the next in line, or taken by the agent in an
empty line, or it stays with who has it. -/
theorem head?_cases (h : Beside a before after) (hNodup : before.Nodup) :
    after.head? = before.head? ∨
      (before.head? = some a ∧ after.head? = before.tail.head?) ∨
      (before.head? = none ∧ after.head? = some a) := by
  cases before with
  | nil =>
    rcases h with rfl | rfl | rfl
    · exact Or.inl rfl
    · exact Or.inl rfl
    · exact Or.inr (Or.inr ⟨rfl, rfl⟩)
  | cons b rest =>
    by_cases hb : b = a
    · -- the agent is in front: it stays there, or goes, or goes to the end
      subst hb
      have hRest : (b :: rest).filter (· ≠ b) = rest := by
        rw [List.filter_cons_of_neg (by simp), filter_ne_of_not_mem (List.nodup_cons.mp hNodup).1]
      rcases h with rfl | rfl | rfl
      · exact Or.inl rfl
      · exact Or.inr (Or.inl ⟨rfl, by rw [hRest]; rfl⟩)
      · rw [hRest]
        -- alone in the line, it is in front again
        cases rest with
        | nil => exact Or.inl rfl
        | cons c rest => exact Or.inr (Or.inl ⟨rfl, rfl⟩)
    · exact Or.inl (h.head? hb rfl)

theorem of_append (hNew : a ∉ before) : Beside a before (before ++ [a]) :=
  Or.inr (Or.inr (by rw [filter_ne_of_not_mem hNew]))

end Beside

end Purse
