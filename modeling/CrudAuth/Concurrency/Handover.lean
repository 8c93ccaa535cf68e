import Mathlib.Data.Set.Insert
import Mathlib.Logic.Function.Basic

/-
  One item in use, and holders that replace it: a holder
  draws a new item, stores it, swaps it for the item in use,
  and drops the one it has got in return.

  A handover carries what keeps this safe: the item in use
  is stored, every other stored item has a holder, and no
  two holders have the same item.

  Main declarations:
    * `Handover`
    * `draw`, `store`, `swap`, `drop`
    * `stored_eq_of_free`
-/

------------------------------------------------------------
-- Handovers
------------------------------------------------------------

namespace CrudAuth

namespace Concurrency

/- No two holders have the same item. -/
def Apart {ι κ : Type} (holds : ι → Option κ) : Prop :=
  ∀ holder holder' item,
    holds holder = some item →
    holds holder' = some item →
    holder = holder'

/- One holder gets an item that nobody has. -/
theorem Apart.update
    {ι κ : Type} [DecidableEq ι]
    {holds : ι → Option κ}
    {item : κ}
    (hApart : Apart holds)
    (holder : ι)
    (hUnheld : ∀ other, holds other ≠ some item) :
    Apart (Function.update holds holder (some item)) := by
  intro first second held hFirst hSecond
  by_cases hHolder : first = holder
  · subst hHolder
    rw [Function.update_self] at hFirst
    by_contra hOther
    rw [Function.update_of_ne (Ne.symm hOther), ← hFirst]
      at hSecond
    exact hUnheld second hSecond
  · rw [Function.update_of_ne hHolder] at hFirst
    by_cases hHolder' : second = holder
    · subst hHolder'
      rw [Function.update_self] at hSecond
      rw [← hSecond] at hFirst
      exact absurd hFirst (hUnheld first)
    · rw [Function.update_of_ne hHolder'] at hSecond
      exact hApart first second held hFirst hSecond

/- The item in use, what is stored, and who holds what. -/
structure Handover (ι κ : Type) where
  named : κ
  stored : Set κ
  holds : ι → Option κ
  named_stored : named ∈ stored
  owned : ∀ item ∈ stored,
    item = named ∨ ∃ holder, holds holder = some item
  spare : ∀ holder, holds holder ≠ some named
  apart : Apart holds

namespace Handover

variable {ι κ : Type} [DecidableEq ι]
variable (handover : Handover ι κ)
variable {holder : ι}
variable {item : κ}

/- A holder without an item gets one that nobody has. -/
def draw
    (hFree : handover.holds holder = none)
    (hUnused : item ≠ handover.named)
    (hUnheld : ∀ other, handover.holds other ≠ some item) :
    Handover ι κ where
  named := handover.named
  stored := handover.stored
  holds :=
    Function.update handover.holds holder (some item)
  named_stored := handover.named_stored
  owned := by
    intro old hOld
    rcases handover.owned old hOld with
      hNamed | ⟨owner, hOwner⟩
    · exact Or.inl hNamed
    · right
      refine ⟨owner, ?_⟩
      rw [Function.update_of_ne]
      · exact hOwner
      · rintro rfl
        rw [hFree] at hOwner
        cases hOwner
  spare := by
    intro other
    by_cases hOther : other = holder
    · subst hOther
      rw [Function.update_self]
      intro hSame
      exact hUnused (Option.some.inj hSame)
    · rw [Function.update_of_ne hOther]
      exact handover.spare other
  apart := handover.apart.update holder hUnheld

/- What is held is stored. -/
def store
    (hHolds : handover.holds holder = some item) :
    Handover ι κ where
  named := handover.named
  stored := insert item handover.stored
  holds := handover.holds
  named_stored := Or.inr handover.named_stored
  owned := by
    intro old hOld
    rcases hOld with rfl | hOld
    · exact Or.inr ⟨holder, hHolds⟩
    · exact handover.owned old hOld
  spare := handover.spare
  apart := handover.apart

/- The item in use and a stored one change their places. -/
def swap
    (hHolds : handover.holds holder = some item)
    (hStored : item ∈ handover.stored) :
    Handover ι κ where
  named := item
  stored := handover.stored
  holds :=
    Function.update handover.holds holder
      (some handover.named)
  named_stored := hStored
  owned := by
    intro old hOld
    rcases handover.owned old hOld with rfl | ⟨owner, hOwner⟩
    · exact Or.inr ⟨holder, Function.update_self ..⟩
    · by_cases hHolder : owner = holder
      · subst hHolder
        exact Or.inl
          (Option.some.inj (hOwner.symm.trans hHolds))
      · right
        refine ⟨owner, ?_⟩
        rw [Function.update_of_ne hHolder]
        exact hOwner
  spare := by
    intro other
    by_cases hOther : other = holder
    · subst hOther
      rw [Function.update_self, ← hHolds]
      exact (handover.spare other).symm
    · rw [Function.update_of_ne hOther]
      intro hSame
      exact hOther
        (handover.apart other holder item hSame hHolds)
  apart := handover.apart.update holder handover.spare

/- What is held is dropped. -/
def drop
    (hHolds : handover.holds holder = some item) :
    Handover ι κ where
  named := handover.named
  stored := handover.stored \ {item}
  holds := Function.update handover.holds holder none
  named_stored := by
    refine ⟨handover.named_stored, ?_⟩
    rintro rfl
    exact handover.spare holder hHolds
  owned := by
    rintro old ⟨hOld, hOther⟩
    rcases handover.owned old hOld with
      hNamed | ⟨owner, hOwner⟩
    · exact Or.inl hNamed
    · right
      refine ⟨owner, ?_⟩
      rw [Function.update_of_ne]
      · exact hOwner
      · rintro rfl
        exact hOther
          (Option.some.inj (hOwner.symm.trans hHolds))
  spare := by
    intro other
    by_cases hOther : other = holder
    · subst hOther
      rw [Function.update_self]
      intro hSame
      cases hSame
    · rw [Function.update_of_ne hOther]
      exact handover.spare other
  apart := by
    intro first second held hFirst hSecond
    have hNotHolder
        (other : ι)
        (hOther :
          Function.update handover.holds holder none other =
            some held) :
        other ≠ holder ∧ handover.holds other =
          some held := by
      by_cases hSame : other = holder
      · subst hSame
        rw [Function.update_self] at hOther
        cases hOther
      · rw [Function.update_of_ne hSame] at hOther
        exact ⟨hSame, hOther⟩
    exact handover.apart first second held
      (hNotHolder first hFirst).2
        (hNotHolder second hSecond).2

omit [DecidableEq ι] in
/- Where nobody holds anything, one item is stored. -/
theorem stored_eq_of_free
    (hFree : ∀ holder, handover.holds holder = none) :
    handover.stored = {handover.named} := by
  apply Set.eq_singleton_iff_unique_mem.mpr
  constructor
  · exact handover.named_stored
  · intro item hItem
    rcases handover.owned item hItem with
      hNamed | ⟨holder, hHolds⟩
    · exact hNamed
    · rw [hFree holder] at hHolds
      cases hHolds

end Handover

end Concurrency

end CrudAuth
