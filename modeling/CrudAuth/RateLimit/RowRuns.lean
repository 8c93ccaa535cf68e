import CrudAuth.RateLimit.Escalation
import CrudAuth.RateLimit.KeyRows

/-
  Sequential runs of the policy where its keys share no row:
  what they do in the rows is what they would do under the
  keys themselves.

  Main declarations:
    * `Attempt.under`
    * `Placed.perform`
    * `Placed.after`
    * `Placed.trips_iff`
-/

namespace CrudAuth

namespace RateLimit

open Concurrency

------------------------------------------------------------
-- Runs On Rows
------------------------------------------------------------

/- An attempt that uses no other keys than these. -/
def Attempt.Uses
    {ρ : Type}
    (policy : LockoutPolicy)
    (keys : Set Key) : Attempt ρ → Prop
  | .tick _ => True
  | .check ipAddress username _ =>
      policy.keys ipAddress username ⊆ keys

/- What an attempt is to the counters of some keys. -/
noncomputable def Attempt.under
    {ρ : Type}
    (row : Key → ρ)
    (keys : Set Key) : Attempt ρ → Attempt Key
  | .tick step => .tick (step.under row keys)
  | .check ipAddress username success =>
      .check ipAddress username success

section Runs

variable {ρ ρ' : Type} [DecidableEq ρ] [DecidableEq ρ']
variable {policy : LockoutPolicy}
variable {backend : Backend}
variable {place : ρ' → ρ}
variable {rows : Set ρ'}
variable {row : Key → ρ}
variable {row' : Key → ρ'}
variable {keys : Set Key}
variable {limiter : Limiter ρ}
variable {limiter' : Limiter ρ'}
variable {keyed : Limiter Key}
variable {ipAddress username : String}

/- A call on the rows ends like the one in their places. -/
theorem Placed.perform
    (backend : Backend)
    (success : Bool)
    (hPlaced : Placed place rows limiter limiter')
    (hPlace : Set.InjOn place rows)
    (hRows : RowsAt place rows row row'
      (policy.keys ipAddress username)) :
    (policy.perform backend row ipAddress username success
        limiter).1 =
      (policy.perform backend row' ipAddress username success
        limiter').1 ∧
    Placed place rows
      (policy.perform backend row ipAddress username success
        limiter).2
      (policy.perform backend row' ipAddress username success
        limiter').2 :=
  hPlaced.run backend [] hPlace hRows
    (LockoutPolicy.checkAndRecord_within subset_rfl success)

/- One attempt on the rows is one on the keys. -/
theorem Placed.next
    {attempt : Attempt ρ}
    (hPlaced : Placed row keys limiter keyed)
    (hApart : Set.InjOn row keys)
    (hUses : attempt.Uses policy keys) :
    Placed row keys
      (policy.next backend row limiter attempt)
      (policy.next backend id keyed
        (attempt.under row keys)) := by
  cases attempt with
  | tick step => exact hPlaced.tick backend step hApart
  | check ip user success =>
      exact (hPlaced.perform backend success hApart
        (rowsAt_id.mono hUses)).2

/- A run on the rows is one on the keys. -/
theorem Placed.after
    {attempts : List (Attempt ρ)}
    (hPlaced : Placed row keys limiter keyed)
    (hApart : Set.InjOn row keys)
    (hUses : ∀ attempt ∈ attempts,
      attempt.Uses policy keys) :
    Placed row keys
      (policy.after backend row attempts limiter)
      (policy.after backend id
        (attempts.map (Attempt.under row keys)) keyed) := by
  induction attempts generalizing limiter keyed with
  | nil => exact hPlaced
  | cons attempt attempts ih =>
      refine ih (hPlaced.next hApart ?_) ?_
      · exact hUses attempt List.mem_cons_self
      · intro other hOther
        exact hUses other (List.mem_cons_of_mem _ hOther)

/- A call finds the locks that it finds in their places. -/
theorem Placed.activeLockout
    (backend : Backend)
    (hPlaced : Placed place rows limiter limiter')
    (hRows : RowsAt place rows row row'
      (policy.keys ipAddress username)) :
    policy.activeLockout backend row ipAddress username
        limiter =
      policy.activeLockout backend row' ipAddress username
        limiter' := by
  have hTtl : ∀ key ∈ policy.keys ipAddress username,
      (backend.exec row (.getTtl key) limiter).1 =
        (backend.exec row' (.getTtl key) limiter').1 := by
    intro key hKey
    simp only [Backend.exec]
    rw [(hRows key hKey).2, hPlaced.live (hRows key hKey).1,
      hPlaced.clock]
  unfold LockoutPolicy.activeLockout
  rw [hTtl _ (by simp [LockoutPolicy.keys]),
    hTtl _ (by simp [LockoutPolicy.keys])]

/- A call trips if it does in their places. -/
theorem Placed.trips_iff
    {duration : Nat}
    (hPlaced : Placed place rows limiter limiter')
    (hPlace : Set.InjOn place rows)
    (hRows : RowsAt place rows row row'
      (policy.keys ipAddress username)) :
    policy.Trips backend row ipAddress username limiter
        duration ↔
      policy.Trips backend row' ipAddress username limiter'
        duration := by
  unfold LockoutPolicy.Trips
  rw [hPlaced.activeLockout backend hRows,
    (hPlaced.perform backend false hPlace hRows).1]

end Runs

end RateLimit

end CrudAuth
