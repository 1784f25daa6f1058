import Purse.Error

/-!
# The errors of a result

Which errors a result can be, told by the parts that it is made of (`FailsOnly`), and results that come
to the same up to a relation on their values (`Agree`).
-/

namespace Purse

variable {α β : Type} {P : LedgerError → Prop}

/-- If the result is an error, it is one of the kind. -/
def FailsOnly (P : LedgerError → Prop) (x : Result α) : Prop := ∀ e, x = .error e → P e

namespace FailsOnly

theorem ok (a : α) : FailsOnly P (.ok a) := nofun

theorem error {e : LedgerError} (hKind : P e) : FailsOnly P (.error e : Result α) := by
  rintro _ ⟨⟩
  exact hKind

theorem bind {x : Result α} {f : α → Result β} (hFirst : FailsOnly P x)
    (hThen : ∀ a, FailsOnly P (f a)) : FailsOnly P (x >>= f) := by
  cases x with
  | error e => exact error (hFirst e rfl)
  | ok a => exact hThen a

theorem map {x : Result α} {f : α → β} (hFirst : FailsOnly P x) : FailsOnly P (f <$> x) := by
  cases x with
  | error e => exact error (hFirst e rfl)
  | ok a => exact ok (f a)

theorem mapM {f : α → Result β} (hEach : ∀ a, FailsOnly P (f a)) (as : List α) :
    FailsOnly P (as.mapM f) := by
  induction as with
  | nil => exact ok []
  | cons a as ih =>
    rw [List.mapM_cons]
    exact (hEach a).bind fun b => ih.bind fun bs => ok (b :: bs)

theorem mono {Q : LedgerError → Prop} {x : Result α} (hKind : FailsOnly P x)
    (hImp : ∀ e, P e → Q e) : FailsOnly Q x :=
  fun e hError => hImp e (hKind e hError)

end FailsOnly

/-- Two results are one error, or values that go together. -/
inductive Agree (R : α → β → Prop) : Result α → Result β → Prop where
  | ok {a : α} {b : β} (hValues : R a b) : Agree R (.ok a) (.ok b)
  | error (e : LedgerError) : Agree R (.error e) (.error e)

theorem Agree.of_eq {R : α → α → Prop} (hRefl : ∀ a, R a a) (x : Result α) : Agree R x x := by
  cases x with
  | ok a => exact .ok (hRefl a)
  | error e => exact .error e

end Purse
