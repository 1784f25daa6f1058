import Purse.Proofs.Crowd.Sights
import Purse.Proofs.Crowd.TopupVerdict
import Purse.Proofs.Service.Alike

/-!
# Commands are local

A top-up or a transfer (`Payment`) comes to what the wallets and the key that it names let it come to,
and leaves everything else as it is. So it does the same over two ledgers that agree on these, whatever
the rest of them is, and two payments that name different wallets and different keys can be made in
either order.

## Definitions

* `Scope`: some wallets and a key; `Program.Inside`: a program touches nothing else.
* `Sight.Keeps`: nothing outside of a scope has changed; `Near`: two ledgers agree on a scope.
* `Payment`, `Payment.Agree`, `Payment.Apart`: payments, and what they have in common.

## Results

* `Comes.keeps`, `Near.comes`: a call changes nothing outside of its scope, and is answered by what is
  inside.
* `Near.perform`, `Near.drive`: a call and a program over two ledgers that agree on a scope.
* `Payment.independent`: payments are local, and those apart from each other commute.
-/

namespace Purse

open Store

-- ---------------------------------------------------------------------------
-- Scopes
-- ---------------------------------------------------------------------------

/-- Some wallets, and a key. -/
structure Scope where
  wallets : List WalletId
  key? : Option String

/-- A call on wallets and keys of a scope only. -/
def Call.Inside (σ : Scope) : Call → Prop
  | .begin | .commit | .rollback => True
  | .lock id _ | .addWithin id _ | .add id _ => id ∈ σ.wallets
  | .claim key | .release key => σ.key? = some key
  | .insert _ | .get _ | .list _ | .newId | .readClock => False

/-- A wallet that is locked has the id that it is locked by. -/
def Call.Fair : (c : Call) → Result c.Answer → Prop
  | .lock id _, .ok (some w) => w.id = id
  | _, _ => True

/-- A program touches wallets and keys of a scope only, makes each call when it can be made, and has
nothing to tell in the end. -/
def Program.Inside (σ : Scope) : Bool → Program Reply → Prop
  | isOpen, .done r => isOpen = false ∧ ∀ reply, r = .ok reply → reply = .unit
  | isOpen, .call c next => c.fits isOpen = true ∧ c.Inside σ ∧
    ∀ answer, c.Fair answer → (next answer).Inside σ (c.leavesOpen isOpen answer)

theorem Program.inside_error (σ : Scope) (e : LedgerError) : (Program.done (.error e)).Inside σ false := by
  refine ⟨rfl, ?_⟩
  rintro reply ⟨⟩

theorem Program.inside_map (σ : Scope) (r : Result Unit) :
    (Program.done (r.map fun _ => Reply.unit)).Inside σ false := by
  refine ⟨rfl, fun reply hReply => ?_⟩
  cases r with
  | error e => cases hReply
  | ok u => exact (Except.ok.inj hReply).symm

theorem Call.Inside.isLocal {σ : Scope} {c : Call} (hInside : c.Inside σ) : c.isLocal = true := by
  cases c with
  | insert | get | list | newId | readClock => exact hInside.elim
  | _ => rfl

/-- Nothing outside of a scope is other than it was. -/
structure Sight.Keeps (σ : Scope) (v v' : Sight) : Prop where
  shown : ∀ id ∉ σ.wallets, v'.shown id = v.wallet? id
  wallets : ∀ id ∉ σ.wallets, v'.wallet? id = v.wallet? id
  armed : ∀ id ∉ σ.wallets, id ∈ v'.armed ↔ id ∈ v.armed
  claims : ∀ key, σ.key? ≠ some key → v'.keys.claims.get? key = v.keys.claims.get? key
  lifetime : v'.keys.lifetime = v.keys.lifetime
  mint : v'.mint = v.mint
  now : v'.now = v.now

/-- The claim of a key in two ledgers is as it was in both, or one and the same. -/
def Paired (key : String) (start start' k k' : Keys) : Prop :=
  k.claims.get? key = start.claims.get? key ∧ k'.claims.get? key = start'.claims.get? key ∨
    k'.claims.get? key = k.claims.get? key

/-- Two ledgers agree on a scope, in what an agent by itself sees of each: the wallets are the same but
for their times, and the claim of the key is as it was at the start, or the same. -/
structure Near (σ : Scope) (start start' : Keys) (v v' : Sight) : Prop where
  shown : ∀ id ∈ σ.wallets, Option.Rel Wallet.Alike (v.shown id) (v'.shown id)
  wallets : ∀ id ∈ σ.wallets, Option.Rel Wallet.Alike (v.wallet? id) (v'.wallet? id)
  armed : ∀ id ∈ σ.wallets, id ∈ v'.armed ↔ id ∈ v.armed
  claim : ∀ key, σ.key? = some key → Paired key start start' v.keys v'.keys
  lifetime : v'.keys.lifetime = v.keys.lifetime
  now : v'.now = v.now

-- ---------------------------------------------------------------------------
-- One call
-- ---------------------------------------------------------------------------

variable {σ : Scope} {v v' w w' : Sight} {start start' : Keys}

theorem Adds.of_ne {id x : WalletId} {amount : Decimal} {r : Result Unit}
    {wallet? wallet?' : WalletId → Option Wallet} (hAdds : Adds id amount wallet? wallet?' r)
    (hx : x ≠ id) : wallet?' x = wallet? x := by
  cases r with
  | error e => exact congrFun hAdds x
  | ok u =>
    obtain ⟨w, w', now, -, -, rfl⟩ := hAdds
    exact Function.update_of_ne hx _ _

/-- The claim of a key leaves other keys alone, and how long claims last. -/
theorem Keys.claim_eq_ok {k k' : Keys} {now : Instant} {key : String} {inUse : Bool}
    (hClaim : k.claim now key = .ok (inUse, k')) :
    k'.lifetime = k.lifetime ∧ ∀ x, x ≠ key → k'.claims.get? x = k.claims.get? x := by
  cases inUse with
  | true =>
    obtain ⟨-, rfl⟩ := claim_inUse hClaim
    exact ⟨rfl, fun x _ => rfl⟩
  | false =>
    obtain ⟨-, rfl⟩ := claim_free hClaim
    exact ⟨rfl, fun x hOther => Table.get?_put_of_ne _ _ (Ne.symm hOther)⟩

theorem Call.Comes.claim_ne_error {key : String} {answer : Result Bool} {fault : Fault}
    (hComes : Call.Comes v (.claim key) answer v') : v.keys.claim v.now key ≠ .error fault := by
  cases hComes with
  | claim hClaim =>
    rw [hClaim]
    rintro ⟨⟩

/-- A call changes nothing outside of its scope. -/
theorem Call.Comes.keeps {c : Call} {answer : Result c.Answer} (hComes : c.Comes w answer w')
    (hInside : c.Inside σ) (hKeeps : v.Keeps σ w) : v.Keeps σ w' := by
  obtain ⟨hShown, hWallets, hArmed, hClaims, hLifetime, hMint, hNow⟩ := hKeeps
  cases hComes with
  | begin => exact ⟨hWallets, hWallets, hArmed, hClaims, hLifetime, hMint, hNow⟩
  | commit => exact ⟨hShown, hShown, hArmed, hClaims, hLifetime, hMint, hNow⟩
  | rollback => exact ⟨hWallets, hWallets, hArmed, hClaims, hLifetime, hMint, hNow⟩
  | lock => exact ⟨hShown, hWallets, hArmed, hClaims, hLifetime, hMint, hNow⟩
  | @strike id amount hMem =>
    refine ⟨hShown, hWallets, fun x hOut => ?_, hClaims, hLifetime, hMint, hNow⟩
    have hOther : x ≠ id := fun hSame => hOut (hSame ▸ hInside)
    rw [← hArmed x hOut]
    simp [hOther]
  | @addWithin id amount now shown hFree hAdds =>
    refine ⟨fun x hOut => ?_, hWallets, hArmed, hClaims, hLifetime, hMint, hNow⟩
    have hOther : x ≠ id := fun hSame => hOut (hSame ▸ hInside)
    exact (hAdds.of_ne hOther).trans (hShown x hOut)
  | @add id amount now wallet? hAdds =>
    have hSame : ∀ x ∉ σ.wallets, wallet? x = v.wallet? x := by
      intro x hOut
      have hOther : x ≠ id := fun hSame => hOut (hSame ▸ hInside)
      exact (hAdds.of_ne hOther).trans (hWallets x hOut)
    exact ⟨hSame, hSame, hArmed, hClaims, hLifetime, hMint, hNow⟩
  | @claim key inUse keys hClaim =>
    obtain ⟨hSameLifetime, hOthers⟩ := Keys.claim_eq_ok hClaim
    refine ⟨hShown, hWallets, hArmed, fun x hOut => ?_, hSameLifetime.trans hLifetime, hMint, hNow⟩
    have hOther : x ≠ key := fun hSame => hOut (hSame ▸ hInside)
    exact (hOthers x hOther).trans (hClaims x hOut)
  | release key =>
    refine ⟨hShown, hWallets, hArmed, fun x hOut => ?_, hLifetime, hMint, hNow⟩
    have hOther : x ≠ key := fun hSame => hOut (hSame ▸ hInside)
    exact ((Keys.get?_release _ _ _).trans (if_neg hOther)).trans (hClaims x hOut)

-- ---------------------------------------------------------------------------
-- One call over two ledgers
-- ---------------------------------------------------------------------------

/-- A key is claimed in two ledgers alike if its claim is as it was in both, where it was alike, or the
same. -/
theorem Paired.isLive_eq {key : String} {k k' : Keys} {now : Instant}
    (hPaired : Paired key start start' k k')
    (hLive : start'.isLive now key = start.isLive now key) :
    k'.isLive now key = k.isLive now key := by
  have hSame : ∀ {k k' : Keys}, k'.claims.get? key = k.claims.get? key →
      k'.isLive now key = k.isLive now key := by
    intro k k' hGet
    unfold Keys.isLive
    rw [hGet]
  rcases hPaired with ⟨hGet, hGet'⟩ | hEqual
  · rw [hSame hGet, hSame hGet', hLive]
  · exact hSame hEqual

/-- Such a key is claimed with success in both ledgers or in neither. -/
theorem Paired.claim_eq_ok {key : String} {k k' keys keys' : Keys} {now : Instant} {inUse inUse' : Bool}
    (hPaired : Paired key start start' k k')
    (hLive : start'.isLive now key = start.isLive now key) (hLifetime : k'.lifetime = k.lifetime)
    (hClaim : k.claim now key = .ok (inUse, keys))
    (hClaim' : k'.claim now key = .ok (inUse', keys')) :
    inUse = inUse' ∧ Paired key start start' keys keys' := by
  have hSame := hPaired.isLive_eq hLive
  cases inUse with
  | true =>
    obtain ⟨hUsed, rfl⟩ := Keys.claim_inUse hClaim
    cases inUse' with
    | true =>
      obtain ⟨-, rfl⟩ := Keys.claim_inUse hClaim'
      exact ⟨rfl, hPaired⟩
    | false =>
      obtain ⟨hFree, -⟩ := Keys.claim_free hClaim'
      rw [hSame, hUsed] at hFree
      cases hFree
  | false =>
    obtain ⟨hFree, rfl⟩ := Keys.claim_free hClaim
    cases inUse' with
    | true =>
      obtain ⟨hUsed, -⟩ := Keys.claim_inUse hClaim'
      rw [hSame, hFree] at hUsed
      cases hUsed
    | false =>
      obtain ⟨-, rfl⟩ := Keys.claim_free hClaim'
      refine ⟨rfl, Or.inr ?_⟩
      rw [Table.get?_put_self, Table.get?_put_self, hLifetime]

theorem Wallet.Alike.matches {w v : Wallet} (hAlike : w.Alike v) : w.Matches v := by
  unfold Alike at hAlike
  rw [hAlike]
  exact ⟨rfl, rfl, rfl, rfl, rfl, rfl, rfl⟩

theorem Wallet.rel_matches {w? v? : Option Wallet} (hSame : Option.Rel Alike w? v?) :
    Option.Rel Matches w? v? := by
  cases hSame with
  | none => exact .none
  | some hAlike => exact .some hAlike.matches

namespace Near

/-- Over ledgers that agree on its scope a call is answered alike, and they still agree then. -/
theorem comes {c : Call} {answer answer' : Result c.Answer} (hNear : Near σ start start' v w)
    (hLive : ∀ key, σ.key? = some key → start'.isLive v.now key = start.isLive v.now key)
    (hInside : c.Inside σ) (hComes : c.Comes v answer v') (hComes' : c.Comes w answer' w') :
    Agree c.Matches answer answer' ∧ Near σ start start' v' w' := by
  obtain ⟨hShown, hWallets, hArmed, hClaim, hLifetime, hNow⟩ := hNear
  cases hComes with
  | begin =>
    cases hComes'
    exact ⟨.ok rfl, hWallets, hWallets, hArmed, hClaim, hLifetime, hNow⟩
  | commit =>
    cases hComes'
    exact ⟨.ok rfl, hShown, hShown, hArmed, hClaim, hLifetime, hNow⟩
  | rollback =>
    cases hComes'
    exact ⟨.ok rfl, hWallets, hWallets, hArmed, hClaim, hLifetime, hNow⟩
  | lock id user =>
    cases hComes'
    refine ⟨.ok ?_, hShown, hWallets, hArmed, hClaim, hLifetime, hNow⟩
    exact Wallet.rel_matches (Wallet.rel_filter_isOwnedBy (hShown id hInside) user)
  | @strike id amount hMem =>
    cases hComes' with
    | strike hMem' =>
      refine ⟨.error _, hShown, hWallets, fun x hx => ?_, hClaim, hLifetime, hNow⟩
      rw [List.mem_filter, List.mem_filter, hArmed x hx]
    | addWithin hFree => exact absurd ((hArmed id hInside).mpr hMem) hFree
  | @addWithin id amount now shown hFree hAdds =>
    cases hComes' with
    | strike hMem => exact absurd ((hArmed id hInside).mp hMem) hFree
    | @addWithin _ _ later shown' hFree' hAdds' =>
      have hThere := hShown id hInside
      rw [Wallet.added_congr hThere amount now later] at hAdds' ⊢
      exact ⟨.of_eq (fun _ => rfl) _, fun x hx => hAdds.rel hAdds' hThere (hShown x hx), hWallets,
        hArmed, hClaim, hLifetime, hNow⟩
  | @add id amount now wallet? hAdds =>
    cases hComes' with
    | @add _ _ later other? hAdds' =>
      have hThere := hWallets id hInside
      rw [Wallet.added_congr hThere amount now later] at hAdds' ⊢
      have hRest := fun x hx => hAdds.rel hAdds' hThere (hWallets x hx)
      exact ⟨.of_eq (fun _ => rfl) _, hRest, hRest, hArmed, hClaim, hLifetime, hNow⟩
  | @claim key inUse keys hKeys =>
    cases hComes' with
    | @claim _ inUse' keys' hKeys' =>
      rw [hNow] at hKeys'
      obtain ⟨rfl, hPaired⟩ :=
        (hClaim key hInside).claim_eq_ok (hLive key hInside) hLifetime hKeys hKeys'
      refine ⟨.ok rfl, hShown, hWallets, hArmed, fun x hx => ?_, ?_, hNow⟩
      · obtain rfl : key = x := Option.some.inj (hInside.symm.trans hx)
        exact hPaired
      · exact (Keys.claim_eq_ok hKeys').1.trans (hLifetime.trans (Keys.claim_eq_ok hKeys).1.symm)
  | release key =>
    cases hComes'
    refine ⟨.ok rfl, hShown, hWallets, hArmed, fun x hx => Or.inr ?_, hLifetime, hNow⟩
    obtain rfl : key = x := Option.some.inj (hInside.symm.trans hx)
    rw [Keys.get?_release, Keys.get?_release, if_pos rfl, if_pos rfl]

end Near

-- ---------------------------------------------------------------------------
-- A program over two ledgers
-- ---------------------------------------------------------------------------

/-- An agent by itself has changed nothing outside of a scope. -/
structure Confined (σ : Scope) (base : Sight) (a : Agent) (isOpen : Bool) (l : Ledger) : Prop where
  work : AtWork a isOpen l
  keeps : base.Keeps σ (l.sight a)

section Drive

variable {a a' : Agent} {l l' : Ledger} {isOpen : Bool} {base base' : Sight}

/-- A wallet that is locked is the one that was asked for. -/
theorem Call.Comes.fair {c : Call} {answer : Result c.Answer} {v' : Sight} (hWork : AtWork a isOpen l)
    (hComes : c.Comes (l.sight a) answer v') : c.Fair answer := by
  cases hComes with
  | lock id user =>
    cases hShown : (l.sight a).shown id with
    | none => trivial
    | some w =>
      rw [Option.filter_some]
      split
      · exact id_of_shown? hWork.solo.coherent.keyed hShown
      · trivial
  | addWithin hArmed hAdds => trivial
  | add hAdds => trivial
  | _ => trivial

theorem Near.claim_eq_error {key : String} {fault : Fault} (hNear : Near σ start start' v w)
    (hLive : ∀ key, σ.key? = some key → start'.isLive v.now key = start.isLive v.now key)
    (hKey : σ.key? = some key) :
    w.keys.claim w.now key = .error fault ↔ v.keys.claim v.now key = .error fault := by
  have hSame := (hNear.claim key hKey).isLive_eq (hLive key hKey)
  rw [Keys.claim_eq_error_iff, Keys.claim_eq_error_iff, hNear.now, hSame, hNear.lifetime]

/-- Answers that agree leave a transaction open alike. -/
theorem Agree.leavesOpen_eq {c : Call} {answer answer' : Result c.Answer}
    (hSame : Agree c.Matches answer answer') (isOpen : Bool) :
    c.leavesOpen isOpen answer' = c.leavesOpen isOpen answer := by
  cases hSame with
  | ok hValues => cases c <;> rfl
  | error e => rfl

/-- A call over two ledgers that agree on its scope is answered alike over both, or breaks off over both.
They still agree then, and nothing else has changed in either. -/
theorem Near.perform {c : Call} (env env' : Surroundings) (hFits : c.fits isOpen = true)
    (hTouches : c.Inside σ) (hSide : Confined σ base a isOpen l)
    (hSide' : Confined σ base' a' isOpen l')
    (hNear : Near σ base.keys base'.keys (l.sight a) (l'.sight a'))
    (hLive : ∀ key, σ.key? = some key →
      base'.keys.isLive base.now key = base.keys.isLive base.now key) :
    (∃ answer answer' m m' others others', l.perform env a c = .replied answer m others ∧
      l'.perform env' a' c = .replied answer' m' others' ∧ Agree c.Matches answer answer' ∧
      c.Fair answer ∧ c.Fair answer' ∧ Confined σ base a (c.leavesOpen isOpen answer) m ∧
      Confined σ base' a' (c.leavesOpen isOpen answer) m' ∧
      Near σ base.keys base'.keys (m.sight a) (m'.sight a')) ∨
    ∃ fault m m', c.isWithin = false ∧ l.perform env a c = .faulted fault m ∧
      l'.perform env' a' c = .faulted fault m' ∧ Confined σ base a isOpen m ∧
      Confined σ base' a' isOpen m' ∧ Near σ base.keys base'.keys (m.sight a) (m'.sight a') := by
  have hLive' : ∀ key, σ.key? = some key →
      base'.keys.isLive (l.sight a).now key = base.keys.isLive (l.sight a).now key := by
    rw [hSide.keeps.now]
    exact hLive
  rcases hSide.work.perform hFits hTouches.isLocal env with
    ⟨answer, m, others, hPerform, hWork, hComes⟩ |
    ⟨key, fault, m, rfl, hClaim, hPerform, hWork, hSight⟩
  · rcases hSide'.work.perform hFits hTouches.isLocal env' with
      ⟨answer', m', others', hPerform', hWork', hComes'⟩ | ⟨key, fault, m', rfl, hClaim', -⟩
    · obtain ⟨hSame, hNear'⟩ := hNear.comes hLive' hTouches hComes hComes'
      rw [hSame.leavesOpen_eq] at hWork'
      exact Or.inl ⟨answer, answer', m, m', others, others', hPerform, hPerform', hSame,
        hComes.fair hSide.work, hComes'.fair hSide'.work,
        ⟨hWork, hComes.keeps hTouches hSide.keeps⟩, ⟨hWork', hComes'.keeps hTouches hSide'.keeps⟩,
        hNear'⟩
    · -- a key is claimed in both ledgers or in neither
      exact absurd ((hNear.claim_eq_error hLive' hTouches).mp hClaim') hComes.claim_ne_error
  · rcases hSide'.work.perform hFits hTouches.isLocal env' with
      ⟨answer', m', others', -, -, hComes'⟩ |
      ⟨key', fault', m', hCall, hClaim', hPerform', hWork', hSight'⟩
    · exact absurd ((hNear.claim_eq_error hLive' hTouches).mpr hClaim) hComes'.claim_ne_error
    · obtain rfl : key = key' := Call.claim.inj hCall
      have hSame := (hNear.claim_eq_error hLive' hTouches).mp hClaim'
      obtain rfl : fault = fault' := Except.error.inj (hClaim.symm.trans hSame)
      refine Or.inr ⟨fault, m, m', rfl, hPerform, hPerform', ⟨hWork, ?_⟩, ⟨hWork', ?_⟩, ?_⟩
      · rw [hSight]
        exact hSide.keeps
      · rw [hSight']
        exact hSide'.keeps
      · rw [hSight, hSight']
        exact hNear

/-- A program that keeps to a scope on which two ledgers agree ends alike over both. They agree then, and
nothing else has changed in either. -/
theorem Near.drive {p p' : Program Reply} (env env' : Surroundings)
    (hAlike : Program.Alike isOpen p p') (hInside : p.Inside σ isOpen) (hInside' : p'.Inside σ isOpen)
    (hSide : Confined σ base a isOpen l) (hSide' : Confined σ base' a' isOpen l')
    (hNear : Near σ base.keys base'.keys (l.sight a) (l'.sight a'))
    (hLive : ∀ key, σ.key? = some key →
      base'.keys.isLive base.now key = base.keys.isLive base.now key)
    (woken woken' : List Agent) :
    ∃ ending m m' others others', l.drive env a p woken = Ending.progress m others ending ∧
      l'.drive env' a' p' woken' = Ending.progress m' others' ending ∧
      Confined σ base a false m ∧ Confined σ base' a' false m' ∧
      Near σ base.keys base'.keys (m.sight a) (m'.sight a') := by
  induction hAlike generalizing l l' woken woken' with
  | @done r r' hResult =>
    have hSame : r = r' := by
      cases hResult with
      | error e => rfl
      | ok hReply =>
        rw [hInside.2 _ rfl, hInside'.2 _ rfl]
    subst hSame
    exact ⟨.result r, l, l', woken, woken', rfl, rfl, hSide, hSide', hNear⟩
  | @call isOpen c next next' hWithin hStores hNext ih =>
    obtain ⟨hFits, hTouches, hRest⟩ := hInside
    obtain ⟨-, -, hRest'⟩ := hInside'
    rcases hNear.perform env env' hFits hTouches hSide hSide' hLive with
      ⟨answer, answer', m, m', others, others', hPerform, hPerform', hSame, hFair, hFair', hThere,
        hThere', hAgain⟩ |
      ⟨fault, m, m', hOutside, hPerform, hPerform', hThere, hThere', hAgain⟩
    · have hInside' := hRest' answer' hFair'
      rw [hSame.leavesOpen_eq] at hInside'
      obtain ⟨ending, n, n', rest, rest', hDrive, hDrive', hEnd⟩ :=
        ih answer answer' hSame (hRest answer hFair) hInside' hThere hThere' hAgain
          (woken ++ others) (woken' ++ others')
      refine ⟨ending, n, n', rest, rest', ?_, ?_, hEnd⟩
      · rw [Ledger.drive_replied hPerform, hDrive]
      · rw [Ledger.drive_replied hPerform', hDrive']
    · obtain rfl : false = isOpen := hOutside.symm.trans hWithin
      exact ⟨.fault fault, m, m', woken, woken', Ledger.drive_faulted hPerform next woken,
        Ledger.drive_faulted hPerform' next' woken', hThere, hThere', hAgain⟩
  | insert hWallet hBalance hNext ih => exact hInside.2.1.elim

end Drive

-- ---------------------------------------------------------------------------
-- Payments
-- ---------------------------------------------------------------------------

/-- A command that moves money. -/
inductive Payment where
  | topup (request : Topup)
  | transfer (request : Transfer)

namespace Payment

def command : Payment → Command
  | topup r => .topup r
  | transfer r => .transfer r

/-- The wallets that a payment names, and its key. -/
def scope : Payment → Scope
  | topup r => ⟨(WalletId.parseTrimmed? r.walletId).toList, some r.key⟩
  | transfer r => ⟨[r.senderWalletId, r.receiverWalletId].filterMap WalletId.parseTrimmed?, none⟩

end Payment

/-- The wallets of both parties are in a scope. -/
structure Legs.Within (σ : Scope) (legs : Legs) : Prop where
  sender : legs.sender.wallet ∈ σ.wallets
  receiver : legs.receiver.wallet ∈ σ.wallets

namespace Stage

variable {legs : Legs} {stage stage' : Stage}

/-- The wallets that a transfer has found are in a scope. -/
def Names (σ : Scope) : Stage → Prop
  | lockingSecond first => ∀ w, first = some w → w.id ∈ σ.wallets
  | debiting sender receiver => sender.id ∈ σ.wallets ∧ receiver.id ∈ σ.wallets
  | crediting _ receiver => receiver.id ∈ σ.wallets
  | opening | lockingFirst | committing _ _ | undoing _ => True

theorem lockOrder_within (hLegs : legs.Within σ) :
    legs.lockOrder.1.wallet ∈ σ.wallets ∧ legs.lockOrder.2.wallet ∈ σ.wallets := by
  unfold Legs.lockOrder
  split
  · exact ⟨hLegs.sender, hLegs.receiver⟩
  · exact ⟨hLegs.receiver, hLegs.sender⟩

theorem Names.inside_call (hNames : stage.Names σ) (hLegs : legs.Within σ) :
    (stage.call legs).Inside σ := by
  cases stage with
  | lockingFirst => exact (lockOrder_within hLegs).1
  | lockingSecond first => exact (lockOrder_within hLegs).2
  | debiting sender receiver => exact hNames.1
  | crediting sender receiver => exact hNames
  | opening | committing | undoing => trivial

/-- The two wallets that were found are those that were asked for. -/
theorem names_ofPair {first second : Option Wallet}
    (hFirst : ∀ w, first = some w → w.id ∈ σ.wallets)
    (hSecond : ∀ w, second = some w → w.id ∈ σ.wallets) :
    (ofPair legs (pair legs first second)).Names σ := by
  obtain ⟨e, hUndoing⟩ | ⟨sender, receiver, hPair, hDebiting⟩ :=
    ofPair_cases legs (pair legs first second)
  · rw [hUndoing]
    trivial
  · rw [hDebiting]
    unfold pair at hPair
    split at hPair
    · obtain ⟨rfl, rfl⟩ := Prod.mk.inj hPair
      exact ⟨hFirst sender rfl, hSecond receiver rfl⟩
    · obtain ⟨rfl, rfl⟩ := Prod.mk.inj hPair
      exact ⟨hSecond sender rfl, hFirst receiver rfl⟩

theorem Names.after {answer : Result (stage.call legs).Answer} (hNames : stage.Names σ)
    (hLegs : legs.Within σ) (hFair : (stage.call legs).Fair answer)
    (hNext : stage.after legs answer = .inl stage') : stage'.Names σ := by
  obtain ⟨hFirstRow, hSecondRow⟩ := lockOrder_within hLegs
  cases answer with
  | error e =>
    cases stage with
    | committing => cases hNext
    | opening | undoing => cases hNext
    | lockingFirst | lockingSecond | debiting | crediting =>
      obtain rfl := Sum.inl.inj hNext
      trivial
  | ok value =>
    cases stage with
    | opening =>
      obtain rfl := Sum.inl.inj hNext
      trivial
    | lockingFirst =>
      obtain rfl := Sum.inl.inj hNext
      rintro w rfl
      rw [show w.id = legs.lockOrder.1.wallet from hFair]
      exact hFirstRow
    | lockingSecond first =>
      obtain rfl := Sum.inl.inj hNext
      refine names_ofPair hNames ?_
      rintro w rfl
      rw [show w.id = legs.lockOrder.2.wallet from hFair]
      exact hSecondRow
    | debiting sender receiver =>
      obtain rfl := Sum.inl.inj hNext
      exact hNames.2
    | crediting sender receiver =>
      obtain rfl := Sum.inl.inj hNext
      trivial
    | committing | undoing => cases hNext

/-- A transfer touches the wallets of its parties only. -/
theorem inside_program (hLegs : legs.Within σ) (stage : Stage) (hNames : stage.Names σ) :
    (stage.program legs).Inside σ ((stage.call legs).fits true) := by
  induction stage using Stage.induction legs with
  | hStep stage ih =>
    rw [program_eq]
    refine ⟨stage.fits_call legs, hNames.inside_call hLegs, fun answer hFair => ?_⟩
    show (rest legs (stage.after legs answer)).Inside σ _
    rw [leavesOpen_after]
    cases hNext : stage.after legs answer with
    | inl stage' => exact ih answer stage' hNext (hNames.after hLegs hFair hNext)
    | inr result => exact Program.inside_map σ result

end Stage

namespace Payment

/-- What is left of a top-up once it has come for its key. -/
theorem inside_claimed (r : Topup) (inUse : Result Bool) :
    (r.claimed inUse).Inside (scope (.topup r)) false := by
  rcases inUse with e | _ | _
  · exact Program.inside_error _ e
  · rw [Topup.claimed, Topup.applying]
    cases hCheck : r.check with
    | error e => exact ⟨rfl, rfl, fun _ _ => Program.inside_error _ e⟩
    | ok id =>
      have hNamed : (scope (.topup r)).wallets = [id] := by
        rw [scope, (Topup.flaw?_of_ok hCheck).2]
        rfl
      have hMem : Call.Inside (scope (.topup r)) (.add id r.amount) := by
        show id ∈ (scope (.topup r)).wallets
        rw [hNamed]
        exact List.mem_singleton_self id
      exact ⟨rfl, hMem, fun answer _ => Program.inside_map _ answer⟩
  · exact Program.inside_error _ _

/-- A payment touches nothing but what it names. -/
theorem inside (p : Payment) : p.command.program.Inside p.scope false := by
  cases p with
  | topup r =>
    rw [command, Command.program, toppingUp_some]
    cases r.key.isEmpty with
    | true =>
      rw [if_pos rfl]
      exact Program.inside_error _ _
    | false =>
      rw [if_neg Bool.false_ne_true]
      exact ⟨rfl, rfl, fun inUse _ => inside_claimed r inUse⟩
  | transfer r =>
    rw [command, Command.program, transferring_some]
    cases hCheck : r.check with
    | error e => exact Program.inside_error _ e
    | ok legs =>
      obtain ⟨-, -, hFrom, hInto, -⟩ := Transfer.legs_of_check hCheck
      have hNamed : (scope (.transfer r)).wallets = [legs.sender.wallet, legs.receiver.wallet] := by
        simp only [scope, List.filterMap_cons, hFrom, hInto, List.filterMap_nil]
      have hLegs : legs.Within (scope (.transfer r)) := by
        refine ⟨?_, ?_⟩
        · rw [hNamed]
          exact List.mem_cons_self
        · rw [hNamed]
          exact List.mem_cons_of_mem _ List.mem_cons_self
      exact Stage.inside_program hLegs .opening trivial

end Payment

-- ---------------------------------------------------------------------------
-- Payments that are run to their ends
-- ---------------------------------------------------------------------------

/-- No row of a ledger is locked, and no call is arranged to fail. -/
structure Ledger.Unlocked (l : Ledger) : Prop where
  resting : l.store.Resting
  failing : ∀ m, l.failing.get? m = none

namespace Payment

/-- Two ledgers agree on what a payment names: on the wallets, but for their times, on the updates of
them that are armed to fail, on whether its key has a live claim, and on the clock. Claims last equally
long in both. -/
structure Agree (p : Payment) (l l' : Ledger) : Prop where
  wallets : ∀ id ∈ p.scope.wallets,
    Option.Rel Wallet.Alike (l.store.wallet? id) (l'.store.wallet? id)
  armed : ∀ id ∈ p.scope.wallets, id ∈ l'.store.armed ↔ id ∈ l.store.armed
  live : ∀ key, p.scope.key? = some key → l'.keys.isLive l.now key = l.keys.isLive l.now key
  now : l'.now = l.now
  lifetime : l'.keys.lifetime = l.keys.lifetime

/-- A ledger is as before in all that a payment does not name. -/
structure Spares (p : Payment) (l l' : Ledger) : Prop where
  wallets : ∀ id ∉ p.scope.wallets, l'.store.wallet? id = l.store.wallet? id
  armed : ∀ id ∉ p.scope.wallets, id ∈ l'.store.armed ↔ id ∈ l.store.armed
  claims : ∀ key, p.scope.key? ≠ some key → l'.keys.claims.get? key = l.keys.claims.get? key
  lifetime : l'.keys.lifetime = l.keys.lifetime
  mint : l'.mint = l.mint
  now : l'.now = l.now

/-- Two payments name different wallets, and different keys if both have one. -/
structure Apart (p q : Payment) : Prop where
  wallets : ∀ id ∈ p.scope.wallets, id ∉ q.scope.wallets
  keys : ∀ key, p.scope.key? = some key → q.scope.key? ≠ some key

variable {p q : Payment} {l l' : Ledger} {s s' : Schedule}

theorem Agree.refl (p : Payment) (l : Ledger) : p.Agree l l :=
  ⟨fun id _ => WalletsAlike.refl _ id, fun _ _ => Iff.rfl, fun _ _ => rfl, rfl, rfl⟩

theorem Spares.symm (hSpares : p.Spares l l') : p.Spares l' l :=
  ⟨fun id hOut => (hSpares.wallets id hOut).symm, fun id hOut => (hSpares.armed id hOut).symm,
    fun key hOut => (hSpares.claims key hOut).symm, hSpares.lifetime.symm, hSpares.mint.symm,
    hSpares.now.symm⟩

theorem Apart.symm (hApart : p.Apart q) : q.Apart p :=
  ⟨fun id hMem hOther => hApart.wallets id hOther hMem,
    fun key hKey hOther => hApart.keys key hOther hKey⟩

/-- What one payment spares another one finds as it was. -/
theorem Spares.agree (hSpares : p.Spares l l') (hApart : p.Apart q) : q.Agree l l' := by
  refine ⟨fun id hMem => ?_, fun id hMem => hSpares.armed id (hApart.symm.wallets id hMem),
    fun key hKey => ?_, hSpares.now, hSpares.lifetime⟩
  · rw [hSpares.wallets id (hApart.symm.wallets id hMem)]
    exact WalletsAlike.refl _ id
  · unfold Keys.isLive
    rw [hSpares.claims key (hApart.symm.keys key hKey)]

/-- A ledger after a payment was made in it. -/
structure Made (p : Payment) (l l' : Ledger) : Prop where
  unlocked : l'.Unlocked
  spares : p.Spares l l'

/-- A ledger that nobody is at work in is confined to any scope. -/
theorem confined_start (hFree : l.Unlocked) (σ : Scope) (a : Agent) :
    Confined σ (l.sight a) a false l := by
  refine ⟨.of_resting hFree.resting hFree.failing a, ?_⟩
  rw [Ledger.sight_of_nil (hFree.resting.idle a)]
  exact ⟨fun _ _ => rfl, fun _ _ => rfl, fun _ _ => Iff.rfl, fun _ _ => rfl, rfl, rfl, rfl⟩

/-- A payment that has kept to its scope and is over has been made. -/
theorem made_of_confined {a : Agent} {m : Ledger} (hSide : Confined p.scope (l.sight a) a false m)
    (hKeeps : m.Keeps l') (hMint : l'.mint = m.mint) (hWallets : l'.store.wallet? = m.store.wallet?)
    (hResting : m.store.Resting → l'.store.Resting) : p.Made l l' := by
  obtain ⟨hWork, -, hSpared, hArmed, hClaims, hLifetime, hSameMint, hNow⟩ := hSide
  refine ⟨⟨hResting hWork.resting, ?_⟩, ?_, ?_, ?_, ?_, hMint.trans hSameMint,
    hKeeps.now.trans hNow⟩
  · rw [hKeeps.failing]
    exact hWork.failing
  · rw [hWallets]
    exact hSpared
  · rw [hKeeps.store.armed]
    exact hArmed
  · rw [hKeeps.keys]
    exact hClaims
  · rw [hKeeps.keys]
    exact hLifetime

/-- A payment is made over two ledgers that agree on what it names with the same result, and leaves them
with the same wallets of those, but for their times, and with the same claim of its key if there was
one claim before. -/
theorem execute_alike (hFree : s.ledger.Unlocked) (hFree' : s'.ledger.Unlocked)
    (hAgree : p.Agree s.ledger s'.ledger) (env env' : Surroundings)
    (deadline deadline' : Option Instant) :
    ∃ ending t t', s.execute env p.command.program deadline = (t, ending, []) ∧
      s'.execute env' p.command.program deadline' = (t', ending, []) ∧
      p.Made s.ledger t.ledger ∧ p.Made s'.ledger t'.ledger ∧
      (∀ id ∈ p.scope.wallets,
        Option.Rel Wallet.Alike (t.ledger.store.wallet? id) (t'.ledger.store.wallet? id)) ∧
      ∀ key, p.scope.key? = some key →
        Paired key s.ledger.keys s'.ledger.keys t.ledger.keys t'.ledger.keys := by
  have hNear : Near p.scope s.ledger.keys s'.ledger.keys (s.ledger.sight s.nextAgent)
      (s'.ledger.sight s'.nextAgent) := by
    rw [Ledger.sight_of_nil (hFree.resting.idle _), Ledger.sight_of_nil (hFree'.resting.idle _)]
    exact ⟨hAgree.wallets, hAgree.wallets, hAgree.armed, fun _ _ => Or.inl ⟨rfl, rfl⟩,
      hAgree.lifetime, hAgree.now⟩
  obtain ⟨ending, m, m', woken, woken', hDrive, hDrive', hSide, hSide', hNear'⟩ :=
    hNear.drive env env' (Program.Alike.command p.command) p.inside p.inside
      (confined_start hFree p.scope _) (confined_start hFree' p.scope _) hAgree.live [] []
  obtain ⟨t, hExecute, hKeeps, hMint, hWallets, hResting⟩ :=
    Schedule.exists_execute hDrive deadline
  obtain ⟨t', hExecute', hKeeps', hMint', hWallets', hResting'⟩ :=
    Schedule.exists_execute hDrive' deadline'
  refine ⟨ending, t, t', hExecute, hExecute',
    made_of_confined hSide hKeeps hMint hWallets hResting,
    made_of_confined hSide' hKeeps' hMint' hWallets' hResting', ?_, ?_⟩
  · rw [hWallets, hWallets']
    exact hNear'.wallets
  · rw [hKeeps.keys, hKeeps'.keys]
    exact hNear'.claim

/-- Payments apart from each other are made in either order with the same results, and leave the same
wallets, but for their times, and the same claims. -/
theorem commute (hFree : s.ledger.Unlocked) (hApart : p.Apart q) (env env' : Surroundings)
    (deadline deadline' : Option Instant) :
    ∃ ending ending' t u t' u', s.execute env p.command.program deadline = (t, ending, []) ∧
      t.execute env' q.command.program deadline' = (u, ending', []) ∧
      s.execute env' q.command.program deadline' = (t', ending', []) ∧
      t'.execute env p.command.program deadline = (u', ending, []) ∧
      WalletsAlike u.ledger.store.wallet? u'.ledger.store.wallet? ∧
      ∀ key, u'.ledger.keys.claims.get? key = u.ledger.keys.claims.get? key := by
  obtain ⟨ending, t, -, hP, -, ⟨hFreeT, hPST⟩, -⟩ :=
    execute_alike hFree hFree (Agree.refl p _) env env deadline deadline
  -- the second one comes to the same after the first one and without it
  obtain ⟨ending', u, t', hPQ, hQ, ⟨-, hQTU⟩, ⟨hFreeT', hQST'⟩, hWalletsQ, hClaimQ⟩ :=
    execute_alike hFreeT hFree (hPST.symm.agree hApart) env' env' deadline' deadline'
  -- and so does the first one after the second one and without it
  obtain ⟨ending₂, t₂, u', hP₂, hQP, -, ⟨-, hPTU'⟩, hWalletsP, hClaimP⟩ :=
    execute_alike hFree hFreeT' (hQST'.agree hApart.symm) env env deadline deadline
  obtain ⟨rfl, hEnding⟩ := Prod.mk.inj (hP.symm.trans hP₂)
  obtain rfl : ending = ending₂ := (Prod.mk.inj hEnding).1
  refine ⟨ending, ending', t, u, t', u', hP, hPQ, hQ, hQP, fun id => ?_, fun key => ?_⟩
  · by_cases hInP : id ∈ p.scope.wallets
    · rw [hQTU.wallets id (hApart.wallets id hInP)]
      exact hWalletsP id hInP
    · rw [hPTU'.wallets id hInP]
      by_cases hInQ : id ∈ q.scope.wallets
      · exact hWalletsQ id hInQ
      · rw [hQTU.wallets id hInQ, hPST.wallets id hInP, hQST'.wallets id hInQ]
        exact WalletsAlike.refl _ id
  · by_cases hKeyP : p.scope.key? = some key
    · have hOtherQ := hApart.keys key hKeyP
      rw [hQTU.claims key hOtherQ]
      rcases hClaimP key hKeyP with ⟨hSameT, hSameU'⟩ | hSame
      · rw [hSameT, hSameU', hQST'.claims key hOtherQ]
      · exact hSame
    · rw [hPTU'.claims key hKeyP]
      by_cases hKeyQ : q.scope.key? = some key
      · rcases hClaimQ key hKeyQ with ⟨hSameU, hSameT'⟩ | hSame
        · rw [hSameU, hSameT', hPST.claims key hKeyP]
        · exact hSame
      · rw [hQTU.claims key hKeyQ, hPST.claims key hKeyP, hQST'.claims key hKeyQ]

/-- Payments are local, so that those apart from each other commute. Over any two ledgers with no row
locked that agree on what a payment names, the payment has the same result, leaves the wallets of those
names the same but for their times, and leaves all else in each as it was. And two payments that name
different wallets and different keys have the same results in either order, and leave the same wallets
and the same claims. -/
theorem independent (hFree : s.ledger.Unlocked) (p : Payment) (env : Surroundings)
    (deadline : Option Instant) :
    (∀ (s' : Schedule) (env' : Surroundings) (deadline' : Option Instant), s'.ledger.Unlocked →
      p.Agree s.ledger s'.ledger →
      ∃ ending t t', s.execute env p.command.program deadline = (t, ending, []) ∧
        s'.execute env' p.command.program deadline' = (t', ending, []) ∧
        (∀ id ∈ p.scope.wallets,
          Option.Rel Wallet.Alike (t.ledger.store.wallet? id) (t'.ledger.store.wallet? id)) ∧
        p.Spares s.ledger t.ledger ∧ p.Spares s'.ledger t'.ledger) ∧
    ∀ (q : Payment) (env' : Surroundings) (deadline' : Option Instant), p.Apart q →
      ∃ ending ending' t u t' u', s.execute env p.command.program deadline = (t, ending, []) ∧
        t.execute env' q.command.program deadline' = (u, ending', []) ∧
        s.execute env' q.command.program deadline' = (t', ending', []) ∧
        t'.execute env p.command.program deadline = (u', ending, []) ∧
        WalletsAlike u.ledger.store.wallet? u'.ledger.store.wallet? ∧
        ∀ key, u'.ledger.keys.claims.get? key = u.ledger.keys.claims.get? key := by
  refine ⟨fun s' env' deadline' hFree' hAgree => ?_, fun q env' deadline' hApart => ?_⟩
  · obtain ⟨ending, t, t', hExecute, hExecute', hMade, hMade', hWallets, -⟩ :=
      execute_alike hFree hFree' hAgree env env' deadline deadline'
    exact ⟨ending, t, t', hExecute, hExecute', hWallets, hMade.spares, hMade'.spares⟩
  · exact commute hFree hApart env env' deadline deadline'

end Payment

namespace Crowd

/-- A schedule over the wallets of users 1 and 2, with 10 coins each, and a wallet of user 3. -/
def trioSchedule (third : Decimal) : Schedule :=
  { Schedule.empty 0 with
    ledger := { Ledger.empty 60000 with
      store := .ofWallets [walletOf 1 (coins 10), walletOf 2 (coins 10), walletOf 3 third] } }

/-- Another one, in which user 3 has less, the next update of the wallet is armed to fail, and a key has
been claimed. -/
def busyTrio : Schedule :=
  { trioSchedule (coins 1) with
    ledger := { (trioSchedule (coins 1)).ledger with
      store := (trioSchedule (coins 1)).ledger.store.arm (.ofNat 3)
      keys := ⟨60000, Table.empty.put "key" 5⟩ } }

/-- A top-up of the wallet of user 3 with 3 coins. -/
def thirdTopup : Topup :=
  ⟨(WalletId.ofNat 3).text, (UserId.ofNat 3).text, coins 3, "key"⟩

theorem unlocked_trioSchedule (third : Decimal) : (trioSchedule third).ledger.Unlocked :=
  ⟨Store.resting_ofWallets _, fun _ => rfl⟩

theorem unlocked_busyTrio : busyTrio.ledger.Unlocked := by
  obtain ⟨hFree, hKeyed, hIdle⟩ := (unlocked_trioSchedule (coins 1)).resting
  exact ⟨⟨hFree, hKeyed, hIdle⟩, fun _ => rfl⟩

/-- Five coins go from user 1 to user 2 whatever is the matter with user 3, before or after user 3 has
three more. -/
theorem transfer_apart_from_topup :
    (trioSchedule (coins 7)).ledger.Unlocked ∧ busyTrio.ledger.Unlocked ∧
      (Payment.transfer fiveCoins).Agree (trioSchedule (coins 7)).ledger busyTrio.ledger ∧
      (Payment.transfer fiveCoins).Apart (.topup thirdTopup) ∧
      (∃ ending t t',
        (trioSchedule (coins 7)).execute stillness (Command.transfer fiveCoins).program none =
          (t, ending, []) ∧
        busyTrio.execute stillness (Command.transfer fiveCoins).program none =
          (t', ending, []) ∧
        (Payment.transfer fiveCoins).Spares busyTrio.ledger t'.ledger) ∧
      ∃ ending ending' t u t' u',
        (trioSchedule (coins 7)).execute stillness (Command.transfer fiveCoins).program none =
          (t, ending, []) ∧
        t.execute stillness (Command.topup thirdTopup).program none = (u, ending', []) ∧
        (trioSchedule (coins 7)).execute stillness (Command.topup thirdTopup).program none =
          (t', ending', []) ∧
        t'.execute stillness (Command.transfer fiveCoins).program none = (u', ending, []) ∧
        WalletsAlike u.ledger.store.wallet? u'.ledger.store.wallet? := by
  have hFacts : (Payment.transfer fiveCoins).scope.wallets = [.ofNat 1, .ofNat 2] ∧
      (Payment.topup thirdTopup).scope.wallets = [.ofNat 3] ∧
      (∀ id ∈ [WalletId.ofNat 1, .ofNat 2],
        busyTrio.ledger.store.wallet? id = (trioSchedule (coins 7)).ledger.store.wallet? id ∧
        id ∉ busyTrio.ledger.store.armed ∧ id ∉ (trioSchedule (coins 7)).ledger.store.armed ∧
        id ∉ [WalletId.ofNat 3]) := by
    decide +kernel
  obtain ⟨hNamed, hNamed', hOnBoth⟩ := hFacts
  have hAgree : (Payment.transfer fiveCoins).Agree (trioSchedule (coins 7)).ledger
      busyTrio.ledger := by
    refine ⟨fun id hMem => ?_, fun id hMem => ?_, fun key hKey => ?_, rfl, rfl⟩
    · rw [hNamed] at hMem
      rw [(hOnBoth id hMem).1]
      exact WalletsAlike.refl _ id
    · rw [hNamed] at hMem
      obtain ⟨-, hOut, hOut', -⟩ := hOnBoth id hMem
      exact iff_of_false hOut hOut'
    · cases hKey
  have hApart : (Payment.transfer fiveCoins).Apart (.topup thirdTopup) := by
    refine ⟨fun id hMem => ?_, fun key hKey => ?_⟩
    · rw [hNamed] at hMem
      rw [hNamed']
      exact (hOnBoth id hMem).2.2.2
    · cases hKey
  obtain ⟨hLocal, hCommute⟩ := Payment.independent (unlocked_trioSchedule (coins 7))
    (.transfer fiveCoins) stillness none
  obtain ⟨ending, t, t', hExecute, hExecute', -, -, hSpares⟩ :=
    hLocal busyTrio stillness none unlocked_busyTrio hAgree
  obtain ⟨first, second, v, u, v', u', hP, hPQ, hQ, hQP, hAlike, -⟩ :=
    hCommute (.topup thirdTopup) stillness none hApart
  exact ⟨unlocked_trioSchedule _, unlocked_busyTrio, hAgree, hApart,
    ⟨ending, t, t', hExecute, hExecute', hSpares⟩,
    first, second, v, u, v', u', hP, hPQ, hQ, hQP, hAlike⟩

end Crowd

end Purse
