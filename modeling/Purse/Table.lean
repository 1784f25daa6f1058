/-!
# Tables

A finite map that remembers the order in which its keys came in. Replacing the value of a key keeps
the key's place. No key occurs twice, which the type guarantees. Lookup is the view by which every
operation is told: `get?_put` and `get?_erase`.
-/

namespace Purse

/-- A finite map, in the order of insertion. -/
structure Table (κ α : Type) where
  entries : List (κ × α)
  nodup : (entries.map Prod.fst).Nodup

namespace Table

variable {κ α β : Type} [DecidableEq κ]

/-- The table without entries. -/
def empty : Table κ α := ⟨[], List.nodup_nil⟩

instance : Inhabited (Table κ α) := ⟨empty⟩

/-- The value of a key in a list of entries. -/
def lookup (k : κ) : List (κ × α) → Option α
  | [] => none
  | e :: es => if e.1 = k then some e.2 else lookup k es

/-- The entries with the value of a key replaced, or with the key added at the end. -/
def assign (k : κ) (v : α) : List (κ × α) → List (κ × α)
  | [] => [(k, v)]
  | e :: es => if e.1 = k then (k, v) :: es else e :: assign k v es

theorem mem_keys_assign {k x : κ} {v : α} {es : List (κ × α)} :
    x ∈ (assign k v es).map Prod.fst ↔ x = k ∨ x ∈ es.map Prod.fst := by
  induction es with
  | nil => simp [assign]
  | cons e es ih =>
    by_cases h : e.1 = k
    · simp [assign, h]
    · rw [assign, if_neg h]
      simp only [List.map_cons, List.mem_cons, ih]
      exact or_left_comm

theorem nodup_assign {k : κ} {v : α} {es : List (κ × α)} (h : (es.map Prod.fst).Nodup) :
    ((assign k v es).map Prod.fst).Nodup := by
  induction es with
  | nil => simp [assign]
  | cons e es ih =>
    rw [List.map_cons, List.nodup_cons] at h
    by_cases hk : e.1 = k
    · rw [assign, if_pos hk]
      exact List.nodup_cons.2 ⟨hk ▸ h.1, h.2⟩
    · rw [assign, if_neg hk, List.map_cons, List.nodup_cons]
      refine ⟨fun hmem => ?_, ih h.2⟩
      rcases mem_keys_assign.1 hmem with heq | hin
      · exact hk heq
      · exact h.1 hin

/-- The value of a key. -/
def get? (t : Table κ α) (k : κ) : Option α := lookup k t.entries

/-- Whether a key has a value. -/
def contains (t : Table κ α) (k : κ) : Bool := (t.get? k).isSome

/-- The table with a value given to a key. -/
def put (t : Table κ α) (k : κ) (v : α) : Table κ α := ⟨assign k v t.entries, nodup_assign t.nodup⟩

/-- The table without a key. -/
def erase (t : Table κ α) (k : κ) : Table κ α :=
  ⟨t.entries.filter (·.1 ≠ k), by
    have h : (t.entries.filter (·.1 ≠ k)).Sublist t.entries := List.filter_sublist
    exact (h.map Prod.fst).nodup t.nodup⟩

/-- The table with the values that fail a test left out. -/
def keep (t : Table κ α) (p : α → Bool) : Table κ α :=
  ⟨t.entries.filter fun e => p e.2, by
    have h : (t.entries.filter fun e => p e.2).Sublist t.entries := List.filter_sublist
    exact (h.map Prod.fst).nodup t.nodup⟩

/-- The table with the value of a key, if it has one, changed. -/
def modify (t : Table κ α) (k : κ) (f : α → α) : Table κ α :=
  match t.get? k with
  | some v => t.put k (f v)
  | none => t

/-- How many keys there are. -/
def size (t : Table κ α) : Nat := t.entries.length

/-- The values, in the order of insertion of their keys. -/
def values (t : Table κ α) : List α := t.entries.map Prod.snd

/-- The keys, in the order of insertion. -/
def keys (t : Table κ α) : List κ := t.entries.map Prod.fst

/-! ## Lookup after each operation -/

theorem lookup_assign (k x : κ) (v : α) (es : List (κ × α)) :
    lookup x (assign k v es) = if k = x then some v else lookup x es := by
  induction es with
  | nil => simp [assign, lookup]
  | cons e es ih =>
    by_cases hk : e.1 = k
    · by_cases hx : k = x
      · simp [assign, lookup, hk, hx]
      · simp [assign, lookup, hk, hx]
    · rw [assign, if_neg hk, lookup, lookup, ih]
      by_cases hx : e.1 = x
      · have hkx : k ≠ x := fun h => hk (hx.trans h.symm)
        simp [hx, hkx]
      · simp [hx]

theorem lookup_filter_ne (k x : κ) (es : List (κ × α)) :
    lookup x (es.filter (·.1 ≠ k)) = if x = k then none else lookup x es := by
  induction es with
  | nil => simp [lookup]
  | cons e es ih =>
    by_cases he : e.1 = k
    · rw [List.filter_cons_of_neg (by simpa using he), ih, lookup]
      by_cases hx : x = k
      · simp [hx]
      · have : e.1 ≠ x := fun h => hx (h.symm.trans he)
        simp [hx, this]
    · rw [List.filter_cons_of_pos (by simpa using he), lookup, lookup, ih]
      by_cases hx : e.1 = x
      · have : x ≠ k := fun h => he (hx.trans h)
        simp [hx, this]
      · simp [hx]

@[simp] theorem get?_empty (k : κ) : (empty : Table κ α).get? k = none := rfl

theorem get?_put (t : Table κ α) (k x : κ) (v : α) :
    (t.put k v).get? x = if k = x then some v else t.get? x :=
  lookup_assign k x v t.entries

@[simp] theorem get?_put_self (t : Table κ α) (k : κ) (v : α) : (t.put k v).get? k = some v := by
  simp [get?_put]

theorem get?_put_of_ne (t : Table κ α) {k x : κ} (v : α) (h : k ≠ x) :
    (t.put k v).get? x = t.get? x := by
  simp [get?_put, h]

theorem get?_erase (t : Table κ α) (k x : κ) :
    (t.erase k).get? x = if x = k then none else t.get? x :=
  lookup_filter_ne k x t.entries

theorem get?_modify (t : Table κ α) (k x : κ) (f : α → α) :
    (t.modify k f).get? x = if k = x then (t.get? x).map f else t.get? x := by
  unfold modify
  cases h : t.get? k with
  | none =>
    by_cases hx : k = x
    · subst hx; simp [h]
    · simp [hx]
  | some v =>
    by_cases hx : k = x
    · subst hx; simp [h]
    · simp [get?_put, hx]

end Table

end Purse
