import Purse.Proofs.Decimal.Reach
import Purse.Proofs.Store.Total

/-!
# How far sums are off

A sum that has to be rounded is off by half a step of its last place at most, and it keeps so many digits
that this is hardly anything of the sum itself. When many decimals that are not below zero are added up,
the errors add up too: each is small beside a partial sum, and no partial sum is larger than the last. So
it is near the capacity only that the errors decide whether there is a sum. None of this is to be minded
where nothing is rounded, and whether that is so in every order can be told without any order.

## Definitions

* `Decimal.error`: by how much a decimal misses an exact value.
* `Decimal.sumFrom?`, `Decimal.exactOf`: the sum of many decimals, added up from one on, and the exact one.
* `Decimal.Unrounded`: no addition of many is rounded.
* `Decimal.PartsRepresentable`: no part of many decimals has a sum that would have to be rounded.

## Results

* `Decimal.error_add?`, `Decimal.error_add?_le`: one addition, against its last place and against itself.
* `Decimal.error_sumFrom?`: many additions, from any bound on one.
* `Decimal.error_sum?`, `Decimal.error_sum?_whole`: the two bounds for a sum of many.
* `Decimal.exact_of_sum?_eq_none`, `Decimal.exact_of_sum?_eq_some`: the exact value where there is no sum of
  many, and where there is one.
* `Decimal.Unrounded.sumFrom?_cases`: sums that are not rounded.
* `Decimal.forall_unrounded_iff`: decimals that need no rounding in any order.
-/

namespace Purse

namespace Decimal

variable {a b d t total : Decimal} {ds : List Decimal} {scale : Nat}

/-- By how much a decimal misses an exact value. -/
def error (d : Decimal) (exact : Int) : Nat := (d.units - exact).natAbs

theorem error_eq_zero_iff {exact : Int} : d.error exact = 0 ↔ d.units = exact := by
  unfold error
  omega

-- ---------------------------------------------------------------------------
-- One addition
-- ---------------------------------------------------------------------------

/-- What is fitted of a number is off by what rounding its magnitude is off, as it has the sign of the
number. -/
theorem error_of_fit {sum : Int} {places : Nat} (hScale : scale ≤ maxScale)
    (hFit : fit? (decide (sum < 0)) sum.natAbs scale = some d) (hPlaces : places ≤ scale)
    (hMantissa : d.mantissa = roundOff sum.natAbs places) (hScale' : d.scale = scale - places) :
    d.error (sum * Nat.pow 10 (maxScale - scale)) =
      ((roundOff sum.natAbs places * Nat.pow 10 places : Nat) - (sum.natAbs : Int)).natAbs *
        Nat.pow 10 (maxScale - scale) := by
  have hAbs := natAbs_units_of_fit hScale hPlaces hMantissa hScale'
  have hSign := sign_of_fit hScale hFit
  generalize roundOff sum.natAbs places * Nat.pow 10 places = rounded at hAbs ⊢
  generalize (Nat.pow 10 (maxScale - scale) : Nat) = step at hAbs ⊢
  unfold error
  by_cases hBelow : sum < 0
  · simp only [hBelow, decide_true, if_true] at hSign
    have hUnits : d.units = -(rounded : Int) * step := by
      rw [Int.neg_mul, ← Int.natCast_mul]
      omega
    rw [hUnits, ← Int.sub_mul, Int.natAbs_mul, Int.natAbs_natCast]
    congr 1
    omega
  · simp only [hBelow, decide_false, Bool.false_eq_true, if_false] at hSign
    have hUnits : d.units = (rounded : Int) * step := by
      rw [← Int.natCast_mul]
      omega
    rw [hUnits, ← Int.sub_mul, Int.natAbs_mul, Int.natAbs_natCast]
    congr 1
    omega

/-- A sum is off by half a step of its last place at most; and if it is off at all, it has all the digits
there is room for. -/
theorem error_add? (hAdd : add? a b = some d) :
    2 * d.error (a.units + b.units) ≤ Nat.pow 10 (maxScale - d.scale) ∧
      (d.error (a.units + b.units) ≠ 0 → capacity ≤ d.mantissa * 10) := by
  obtain hExact | ⟨scale, hScale, sum, hSum, hFit⟩ := add?_cases hAdd
  · rw [error_eq_zero_iff.mpr hExact]
    exact ⟨Nat.zero_le _, fun hOff => absurd rfl hOff⟩
  obtain ⟨places, hPlaces, -, hMantissa, hScale', hFewest⟩ := fit?_eq_some hScale hFit
  rw [hSum, error_of_fit hScale hFit hPlaces hMantissa hScale', hMantissa]
  constructor
  · have hSplit : maxScale - d.scale = places + (maxScale - scale) := by omega
    have hBounds := roundedQuotient_bounds (pow_pos places) sum.natAbs
    change _ ≤ 2 * (roundOff sum.natAbs places * _) + _ ∧ 2 * (roundOff sum.natAbs places * _) ≤ _
      at hBounds
    rw [hSplit, pow_add, ← Nat.mul_assoc]
    refine Nat.mul_le_mul_right _ ?_
    omega
  · intro hOff
    cases places with
    | zero =>
      -- without a place given up nothing is off
      have hWhole : roundOff (sum.natAbs * Nat.pow 10 0) 0 * Nat.pow 10 0 = sum.natAbs * Nat.pow 10 0 :=
        congrArg (· * Nat.pow 10 0) (roundOff_mul sum.natAbs 0)
      rw [Nat.mul_one sum.natAbs] at hWhole
      rw [hWhole, Int.sub_self] at hOff
      exact absurd (Nat.zero_mul _) hOff
    | succ fewer => exact capacity_le_roundOff_succ (hFewest fewer (Nat.lt_succ_self fewer))

/-- A sum is off by a small part of itself at most. -/
theorem error_add?_le (hAdd : add? a b = some d) :
    d.error (a.units + b.units) * capacity ≤ 5 * d.units.natAbs := by
  obtain ⟨hHalf, hLong⟩ := error_add? hAdd
  rw [natAbs_units]
  by_cases hOff : d.error (a.units + b.units) = 0
  · rw [hOff, Nat.zero_mul]
    exact Nat.zero_le _
  · have hTimes := Nat.mul_le_mul hHalf (hLong hOff)
    generalize capacity = room at hTimes ⊢
    generalize Nat.pow 10 (maxScale - d.scale) = step at hTimes ⊢
    have hSplit : step * (d.mantissa * 10) = 10 * (d.mantissa * step) := by ring
    have hTwice : 2 * d.error (a.units + b.units) * room =
        2 * (d.error (a.units + b.units) * room) := Nat.mul_assoc 2 _ _
    omega

-- ---------------------------------------------------------------------------
-- Many additions
-- ---------------------------------------------------------------------------

/-- The exact sum of many decimals. -/
def exactOf (ds : List Decimal) : Int := Store.exactSum (ds.map units)

/-- None of many decimals is below zero. -/
def AllNonneg (ds : List Decimal) : Prop := ∀ d ∈ ds, 0 ≤ d.units

/-- The sum of many decimals, added up in order from one on. -/
def sumFrom? (total : Decimal) (ds : List Decimal) : Option Decimal :=
  ds.foldlM (fun total d => add? total d) total

theorem sumFrom?_cons (total d : Decimal) (ds : List Decimal) :
    sumFrom? total (d :: ds) = (add? total d).bind (sumFrom? · ds) :=
  rfl

/-- A sum of many is not below what it was added up from, as long as nothing below zero is added. -/
theorem units_le_sumFrom? (hNonneg : AllNonneg ds) (hSum : sumFrom? total ds = some t) :
    total.units ≤ t.units := by
  induction ds generalizing total with
  | nil =>
    cases hSum
    exact le_rfl
  | cons d ds ih =>
    obtain ⟨hFirst, hRest⟩ := List.forall_mem_cons.mp hNonneg
    rw [sumFrom?_cons] at hSum
    obtain ⟨next, hAdd, hSum⟩ := Option.bind_eq_some_iff.mp hSum
    exact (units_le_add? hAdd hFirst).trans (ih hRest hSum)

/-- Whatever bounds the error of each addition bounds that of many, once for each. Only additions need to
be bounded whose sums are not above the last. -/
theorem error_sumFrom? {factor bound : Nat} (hNonneg : AllNonneg ds)
    (hOne : ∀ {a b d : Decimal}, add? a b = some d → 0 ≤ a.units → 0 ≤ b.units → d.units ≤ t.units →
      d.error (a.units + b.units) * factor ≤ bound)
    (hTotal : 0 ≤ total.units) (hSum : sumFrom? total ds = some t) :
    t.error (total.units + exactOf ds) * factor ≤ ds.length * bound := by
  induction ds generalizing total with
  | nil =>
    cases hSum
    have hExact : t.error (t.units + exactOf []) = 0 :=
      error_eq_zero_iff.mpr (Int.add_zero _).symm
    rw [hExact, Nat.zero_mul]
    exact Nat.zero_le _
  | cons d ds ih =>
    obtain ⟨hFirst, hRest⟩ := List.forall_mem_cons.mp hNonneg
    rw [sumFrom?_cons] at hSum
    obtain ⟨next, hAdd, hSum⟩ := Option.bind_eq_some_iff.mp hSum
    have hNext := hTotal.trans (units_le_add? hAdd hFirst)
    have hStep := hOne hAdd hTotal hFirst (units_le_sumFrom? hRest hSum)
    have hOthers := ih hRest hNext hSum
    have hExact : exactOf (d :: ds) = d.units + exactOf ds := rfl
    have hTriangle : t.error (total.units + exactOf (d :: ds)) ≤
        next.error (total.units + d.units) + t.error (next.units + exactOf ds) := by
      rw [hExact]
      unfold error
      omega
    have hTimes := Nat.mul_le_mul_right factor hTriangle
    rw [Nat.add_mul] at hTimes
    rw [List.length_cons, Nat.add_mul, Nat.one_mul]
    omega

theorem exactOf_perm {es : List Decimal} (hOrder : ds.Perm es) : exactOf ds = exactOf es :=
  Store.exactSum_perm (hOrder.map units)

theorem exactOf_nonneg (hNonneg : AllNonneg ds) : 0 ≤ exactOf ds := by
  induction ds with
  | nil => exact le_rfl
  | cons d ds ih =>
    obtain ⟨hFirst, hRest⟩ := List.forall_mem_cons.mp hNonneg
    exact Int.add_nonneg hFirst (ih hRest)

/-- The sum of many decimals is off by a small part of itself for each of them at most. -/
theorem error_sum? (hNonneg : AllNonneg ds) (hSum : sum? ds = some t) :
    t.error (exactOf ds) * capacity ≤ ds.length * (5 * t.units.natAbs) := by
  have hZero : zero.units = 0 := by decide
  have hOne : ∀ {a b d : Decimal}, add? a b = some d → 0 ≤ a.units → 0 ≤ b.units →
      d.units ≤ t.units → d.error (a.units + b.units) * capacity ≤ 5 * t.units.natAbs := by
    intro a b d hAdd hA hB hLe
    have hSumNonneg := hA.trans (units_le_add? hAdd hB)
    exact (error_add?_le hAdd).trans (by omega)
  have hFrom : sumFrom? zero ds = some t := hSum
  have hError := error_sumFrom? hNonneg hOne hZero.ge hFrom
  rwa [hZero, Int.zero_add] at hError

/-- The sum of many decimals is off by half of one for each of them at most. -/
theorem error_sum?_whole (hNonneg : AllNonneg ds) (hSum : sum? ds = some t) :
    t.error (exactOf ds) * 2 ≤ ds.length * Nat.pow 10 maxScale := by
  have hZero : zero.units = 0 := by decide
  have hOne : ∀ {a b d : Decimal}, add? a b = some d →
      d.error (a.units + b.units) * 2 ≤ Nat.pow 10 maxScale := by
    intro a b d hAdd
    rw [Nat.mul_comm]
    exact (error_add? hAdd).1.trans (Nat.pow_le_pow_right (by decide) (Nat.sub_le _ _))
  have hFrom : sumFrom? zero ds = some t := hSum
  have hError := error_sumFrom? hNonneg (fun hAdd _ _ _ => hOne hAdd) hZero.ge hFrom
  rwa [hZero, Int.zero_add] at hError

-- ---------------------------------------------------------------------------
-- Where there is no sum
-- ---------------------------------------------------------------------------

theorem exactOf_append (ds es : List Decimal) : exactOf (ds ++ es) = exactOf ds + exactOf es := by
  induction ds with
  | nil => exact (Int.zero_add _).symm
  | cons d ds ih =>
    show d.units + exactOf (ds ++ es) = d.units + exactOf ds + exactOf es
    rw [ih, Int.add_assoc]

/-- Where there is no sum of many, there is one addition that has none. -/
theorem sumFrom?_eq_none (hSum : sumFrom? total ds = none) :
    ∃ before next d after, ds = before ++ d :: after ∧ sumFrom? total before = some next ∧
      add? next d = none := by
  induction ds generalizing total with
  | nil => cases hSum
  | cons d ds ih =>
    rw [sumFrom?_cons] at hSum
    cases hAdd : add? total d with
    | none => exact ⟨[], total, d, ds, rfl, rfl, hAdd⟩
    | some next =>
      rw [hAdd, Option.bind_some] at hSum
      obtain ⟨before, last, d', after, rfl, hBefore, hLast⟩ := ih hSum
      refine ⟨d :: before, last, d', after, rfl, ?_, hLast⟩
      rw [sumFrom?_cons, hAdd, Option.bind_some, hBefore]

/-- If there is no sum of many decimals, the exact value has the capacity, but for half of one for each of
them at most. -/
theorem exact_of_sum?_eq_none (hNonneg : AllNonneg ds) (hSum : sum? ds = none) :
    2 * capacity * Nat.pow 10 maxScale ≤ 2 * (exactOf ds).natAbs + ds.length * Nat.pow 10 maxScale := by
  obtain ⟨before, next, d, after, rfl, hBefore, hLast⟩ := sumFrom?_eq_none hSum
  obtain ⟨hNonnegBefore, hNonnegRest⟩ := List.forall_mem_append.mp hNonneg
  obtain ⟨hFirst, hNonnegAfter⟩ := List.forall_mem_cons.mp hNonnegRest
  have hError := error_sum?_whole hNonnegBefore hBefore
  have hReach := add?_eq_none_iff.mp hLast
  have hZero : zero.units = 0 := by decide
  have hNext := units_le_sumFrom? hNonnegBefore hBefore
  have hAfter := exactOf_nonneg hNonnegAfter
  have hExact : exactOf (before ++ d :: after) = exactOf before + (d.units + exactOf after) :=
    exactOf_append before (d :: after)
  rw [hZero] at hNext
  unfold OutOfReach at hReach
  unfold error at hError
  generalize capacity = room at hReach ⊢
  generalize Nat.pow 10 maxScale = whole at hReach hError ⊢
  rw [hExact, List.length_append, List.length_cons, Nat.add_mul, Nat.add_mul, Nat.one_mul]
  rw [Nat.sub_mul, Nat.one_mul] at hReach
  omega

/-- If there is a sum of many decimals, the exact value is below the capacity, but for half of one for each
of them at most. -/
theorem exact_of_sum?_eq_some (hNonneg : AllNonneg ds) (hSum : sum? ds = some t) :
    2 * (exactOf ds).natAbs < 2 * capacity * Nat.pow 10 maxScale + ds.length * Nat.pow 10 maxScale := by
  have hError := error_sum?_whole hNonneg hSum
  have hReach := t.not_outOfReach_units
  have hExact := exactOf_nonneg hNonneg
  unfold OutOfReach at hReach
  unfold error at hError
  have hWhole : 0 < Nat.pow 10 maxScale := pow_pos maxScale
  generalize capacity = room at hReach ⊢
  generalize Nat.pow 10 maxScale = whole at hReach hError hWhole ⊢
  rw [Nat.sub_mul, Nat.one_mul] at hReach
  omega

-- ---------------------------------------------------------------------------
-- Sums that are not rounded
-- ---------------------------------------------------------------------------

/-- No addition is rounded when many decimals are added up in order from one on, as far as there are
sums. -/
def Unrounded : Decimal → List Decimal → Prop
  | _, [] => True
  | total, d :: ds => ∀ next ∈ add? total d, next.units = total.units + d.units ∧ Unrounded next ds

theorem OutOfReach.mono {x y : Int} (hReach : OutOfReach x) (hAbove : 0 ≤ x) (hLe : x ≤ y) :
    OutOfReach y := by
  unfold OutOfReach at *
  omega

/-- Where no addition is rounded, the sum is exact, or else the exact value is too large for any decimal. -/
theorem Unrounded.sumFrom?_cases (hExact : Unrounded total ds) (hNonneg : AllNonneg ds)
    (hTotal : 0 ≤ total.units) :
    sumFrom? total ds = none ∧ OutOfReach (total.units + exactOf ds) ∨
      ∃ t, sumFrom? total ds = some t ∧ t.units = total.units + exactOf ds := by
  induction ds generalizing total with
  | nil => exact Or.inr ⟨total, rfl, (Int.add_zero _).symm⟩
  | cons d ds ih =>
    obtain ⟨hFirst, hRest⟩ := List.forall_mem_cons.mp hNonneg
    have hSplit : total.units + exactOf (d :: ds) = total.units + d.units + exactOf ds :=
      (Int.add_assoc _ _ _).symm
    have hAfter := exactOf_nonneg hRest
    rw [sumFrom?_cons, hSplit]
    cases hAdd : add? total d with
    | none =>
      exact Or.inl ⟨rfl, (add?_eq_none_iff.mp hAdd).mono (by omega) (by omega)⟩
    | some next =>
      obtain ⟨hNext, hOthers⟩ := hExact next hAdd
      rw [Option.bind_some, ← hNext]
      exact ih hOthers hRest (by omega)

theorem Unrounded.of_append {es : List Decimal} (hExact : Unrounded total (ds ++ es)) :
    Unrounded total ds := by
  induction ds generalizing total with
  | nil => trivial
  | cons d ds ih =>
    intro next hAdd
    obtain ⟨hNext, hOthers⟩ := hExact next hAdd
    exact ⟨hNext, ih hOthers⟩

/-- Each part of some decimals has a sum that is the value of a decimal, or one that is too large for any. -/
def PartsRepresentable (ds : List Decimal) : Prop :=
  ∀ part, part.Subperm ds → Representable (exactOf part) ∨ OutOfReach (exactOf part)

theorem unrounded_of_parts {before es : List Decimal} (hParts : PartsRepresentable (before ++ es))
    (hTotal : total.units = exactOf before) : Unrounded total es := by
  induction es generalizing before total with
  | nil => trivial
  | cons d es ih =>
    intro next hAdd
    have hSplit : exactOf (before ++ [d]) = total.units + d.units := by
      rw [exactOf_append, hTotal]
      exact congrArg _ (Int.add_zero _)
    have hSub : (before ++ [d]).Subperm (before ++ d :: es) :=
      (List.Sublist.append_left (List.cons_sublist_cons.mpr (List.nil_sublist es)) before).subperm
    have hNext : next.units = total.units + d.units := by
      have hPart := hParts _ hSub
      rw [hSplit] at hPart
      rcases hPart with hValue | hReach
      · exact (exact_add?_iff hAdd).mpr hValue
      · cases hAdd.symm.trans (add?_eq_none_iff.mpr hReach)
    have hRest : PartsRepresentable (before ++ [d] ++ es) := by
      rwa [List.append_assoc]
    exact ⟨hNext, ih hRest (hNext.trans hSplit.symm)⟩

/-- No order needs rounding if and only if every part of the decimals has a sum that is the value of a
decimal, or is too large for any. -/
theorem forall_unrounded_iff (hNonneg : AllNonneg ds) :
    (∀ es, es.Perm ds → Unrounded zero es) ↔ PartsRepresentable ds := by
  have hZero : zero.units = 0 := by decide
  constructor
  · rintro hOrders part ⟨part', hSame, hSub⟩
    obtain ⟨rest, hRest⟩ := hSub.exists_perm_append
    have hOrder : (part ++ rest).Perm ds := (hSame.symm.append_right rest).trans hRest.symm
    have hNonnegPart : AllNonneg part := fun d hMem =>
      hNonneg d (hOrder.mem_iff.mp (List.mem_append_left rest hMem))
    have hCases := (hOrders _ hOrder).of_append.sumFrom?_cases hNonnegPart hZero.ge
    rw [hZero, Int.zero_add] at hCases
    rcases hCases with ⟨-, hReach⟩ | ⟨t, -, hUnits⟩
    · exact Or.inr hReach
    · exact Or.inl ⟨t, hUnits⟩
  · intro hParts es hOrder
    have hAll : PartsRepresentable ([] ++ es) := fun part hSub =>
      hParts part (hSub.trans hOrder.subperm)
    exact unrounded_of_parts hAll hZero

theorem exactOf_eq_steps (hScale : scale ≤ maxScale) (hScales : ∀ d ∈ ds, d.scale ≤ scale) :
    ∃ n : Int, exactOf ds = n * Nat.pow 10 (maxScale - scale) := by
  induction ds with
  | nil => exact ⟨0, (Int.zero_mul _).symm⟩
  | cons d ds ih =>
    obtain ⟨hFirst, hRest⟩ := List.forall_mem_cons.mp hScales
    obtain ⟨n, hSteps⟩ := ih hRest
    refine ⟨d.alignedTo scale + n, ?_⟩
    rw [Int.add_mul, ← hSteps, ← units_eq_alignedTo hFirst hScale]
    rfl

/-- An exact sum that fits at a scale that none of the decimals is beyond is the value of a decimal: it is a
number of steps at that scale. -/
theorem representable_of_fits (hNonneg : AllNonneg ds) (hScale : scale ≤ maxScale)
    (hScales : ∀ d ∈ ds, d.scale ≤ scale)
    (hFits : exactOf ds < (capacity * Nat.pow 10 (maxScale - scale) : Nat)) :
    Representable (exactOf ds) := by
  have hSum := exactOf_nonneg hNonneg
  obtain ⟨n, hSteps⟩ := exactOf_eq_steps hScale hScales
  rw [hSteps] at hSum hFits ⊢
  have hStep : (0 : Int) < Nat.pow 10 (maxScale - scale) := Int.natCast_pos.mpr (pow_pos _)
  have hSteps' : 0 ≤ n := nonneg_of_mul_nonneg_left hSum hStep
  have hLess : n < (capacity : Nat) := by
    refine lt_of_mul_lt_mul_right (a := (Nat.pow 10 (maxScale - scale) : Int)) ?_ hStep.le
    rwa [← Int.natCast_mul]
  obtain ⟨m, rfl⟩ := Int.eq_ofNat_of_zero_le hSteps'
  exact ⟨⟨false, m, scale, Int.ofNat_lt.mp hLess, hScale⟩, rfl⟩

/-- Decimals whose exact sum fits at a scale that none of them is beyond need no rounding, as the sum of a
part of them fits as well. -/
theorem partsRepresentable_of_fits (hNonneg : AllNonneg ds) (hScale : scale ≤ maxScale)
    (hScales : ∀ d ∈ ds, d.scale ≤ scale)
    (hFits : exactOf ds < (capacity * Nat.pow 10 (maxScale - scale) : Nat)) :
    PartsRepresentable ds := by
  rintro part ⟨part', hSame, hSub⟩
  obtain ⟨rest, hRest⟩ := hSub.exists_perm_append
  have hMem : ∀ d ∈ part' ++ rest, d ∈ ds := fun d hMem => hRest.mem_iff.mpr hMem
  have hPart : AllNonneg part' := fun d hIn => hNonneg d (hMem d (List.mem_append_left rest hIn))
  have hOthers := exactOf_nonneg fun d hIn => hNonneg d (hMem d (List.mem_append_right part' hIn))
  rw [exactOf_perm hRest, exactOf_append] at hFits
  rw [← exactOf_perm hSame]
  exact Or.inl (representable_of_fits hPart hScale
    (fun d hIn => hScales d (hMem d (List.mem_append_left rest hIn))) (by omega))

end Decimal

end Purse
