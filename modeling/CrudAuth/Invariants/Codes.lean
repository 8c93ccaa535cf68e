import CrudAuth.Invariants.Fresh

/-
  Recovery codes in rows.  A batch is retired when it has
  been drawn and no thread can write it any more; a code of
  a retired batch that is not stored never comes back.

  Main declarations:
    * `Retired`
    * `codes_rowAfter`
    * `retired_of_row`
    * `Gone`
    * `gone_along`
-/

namespace CrudAuth

open Concurrency

variable {ι : Type} [DecidableEq ι]
variable {runtime : Runtime}
variable {request : Request}
variable {requests : ι → Request}
variable {past : List Act}
variable {condition : Condition ι interface World}
variable {start state world : World}
variable {opening history : List (Ev ι)}
variable {thread : ι}
variable {op : Op}
variable {id : UserId}
variable {row : User}
variable {code : RecoveryCode}
variable {value : Nat}

------------------------------------------------------------
-- Retired Batches
------------------------------------------------------------

/- The unspent codes of a row. -/
def User.codes (user : User) : List RecoveryCode :=
  user.mfaRecoveryCodes.getD []

/- A value drawn just now, or just before the clock. -/
def InHand (past : List Act) (value : Nat) : Prop :=
  Drawn past value ∨
    ∃ now, [⟨.now, now⟩, ⟨.fresh, value⟩] <+: past

/- Drawn in the past, and in nobody's hand. -/
structure Retired
    (state : World)
    (history : List (Ev ι))
    (value : Nat) : Prop where
  lt : value < state.nonce
  free : ∀ thread, ¬ InHand (own thread history) value

/- Values drawn before the start are retired. -/
theorem retired_of_lt
    (hLt : value < start.nonce) :
    Retired start ([] : List (Ev ι)) value := by
  refine ⟨hLt, ?_⟩
  rintro thread (hDrawn | ⟨now, hPrefix⟩)
  · simp [Drawn] at hDrawn
  · simp at hPrefix

/- A value in hand has been drawn by its thread. -/
theorem fresh_of_inHand
    (hHand : InHand (own thread history) value) :
    (⟨thread, .fresh, value⟩ : Ev ι) ∈ history := by
  rcases hHand with hDrawn | ⟨now, hPrefix⟩
  · exact fresh_of_drawn hDrawn
  · have hMem :
        (⟨.fresh, value⟩ : Act) ∈ own thread history :=
      hPrefix.subset (by simp)
    exact mem_own_iff.mp hMem

/- A retired batch stays retired. -/
theorem Retired.exec
    (hRetired : Retired state history value)
    (thread : ι) :
    Retired (World.exec op state).2
      (⟨thread, op, (World.exec op state).1⟩ :: history)
      value := by
  refine ⟨hRetired.lt.trans_le
    (World.nonce_le_exec state op), ?_⟩
  intro other hHand
  by_cases hThread : thread = other
  · subst hThread
    have hOwn :
        own thread
            (⟨thread, op, (World.exec op state).1⟩ ::
              history) =
          ⟨op, (World.exec op state).1⟩ ::
            own thread history :=
      own_cons_self _ _
    rw [hOwn] at hHand
    rcases hHand with hDrawn | ⟨now, hPrefix⟩
    · have hHead :
          (⟨op, (World.exec op state).1⟩ : Act) =
            ⟨.fresh, value⟩ := by
        simpa [Drawn] using hDrawn
      cases op with
      | fresh =>
          have hValue : state.nonce = value := by
            simpa [World.exec] using hHead
          have hLt := hRetired.lt
          omega
      | _ => cases hHead
    · have hOlder := (List.cons_prefix_cons.mp hPrefix).2
      rcases hOlder with ⟨older, hOlder⟩
      exact hRetired.free thread
        (Or.inl (by simp [Drawn, ← hOlder]))
  · rw [own_cons_of_ne hThread] at hHand
    exact hRetired.free other hHand

/- A retired value stays so as time passes. -/
theorem Retired.tick
    (hRetired : Retired state history value)
    (tick : Nat) :
    Retired (machine.tick tick state) history value :=
  ⟨hRetired.lt, hRetired.free⟩

/- A value that was in hand is retired by being written. -/
theorem retired_of_hand
    (hRuns : runtime.Runs requests condition start []
      state history)
    (hHand : InHand (own thread history) value)
    (hFresh : op ≠ .fresh)
    (hNow : op ≠ .now) :
    Retired (World.exec op state).2
      (⟨thread, op, (World.exec op state).1⟩ :: history)
      value := by
  rcases fresh_of_runs hRuns with ⟨hLt, hUnique⟩
  have hDrawn := fresh_of_inHand hHand
  refine ⟨(hLt thread value hDrawn).trans_le
    (World.nonce_le_exec state op), ?_⟩
  intro other hOther
  by_cases hThread : thread = other
  · subst hThread
    have hOwn :
        own thread
            (⟨thread, op, (World.exec op state).1⟩ ::
              history) =
          ⟨op, (World.exec op state).1⟩ ::
            own thread history :=
      own_cons_self _ _
    rw [hOwn] at hOther
    rcases hOther with hHead | ⟨now, hPrefix⟩
    · have hSame :
          (⟨op, (World.exec op state).1⟩ : Act) =
            ⟨.fresh, value⟩ := by
        simpa [Drawn] using hHead
      exact hFresh (Concurrency.Action.mk.inj hSame).1
    · have hSame := (List.cons_prefix_cons.mp hPrefix).1
      exact hNow (Concurrency.Action.mk.inj hSame).1.symm
  · rw [own_cons_of_ne hThread] at hOther
    exact hThread (hUnique thread other value hDrawn
      (fresh_of_inHand hOther))

------------------------------------------------------------
-- Codes In Rows
------------------------------------------------------------

/- A written batch holds the codes of one value. -/
theorem batch_of_mem
    {batch count : Nat}
    (hCode : code ∈ recoveryBatch batch count) :
    code.batch = batch := by
  rcases List.mem_map.mp hCode with ⟨index, -, rfl⟩
  rfl

/- Where a code comes from that a commit leaves behind. -/
theorem codes_flush
    {loaded : User}
    {data : Patch}
    (hCode : code ∈ (data.flush loaded row).codes) :
    code ∈ row.codes ∨
      ∃ codes, data.mfaRecoveryCodes = some (some codes) ∧
        code ∈ codes := by
  rcases flushColumn_cases loaded.mfaRecoveryCodes
      row.mfaRecoveryCodes data.mfaRecoveryCodes with
    hKept | hSet
  · left
    simp only [User.codes, Patch.flush] at hCode ⊢
    rwa [hKept] at hCode
  · right
    simp only [User.codes, Patch.flush] at hCode
    cases hAfter : flushColumn loaded.mfaRecoveryCodes
        data.mfaRecoveryCodes row.mfaRecoveryCodes with
    | none => simp [hAfter] at hCode
    | some codes =>
        rw [hAfter] at hCode hSet
        exact ⟨codes, hSet, hCode⟩

/-
  A code of a row was there before, or belongs to a batch
  that its thread had in hand.
-/
theorem codes_rowAfter
    (hRule : runtime.rule request past op)
    (hCode : code ∈ (world.rowAfter op row).codes) :
    code ∈ row.codes ∨
      (op ≠ .fresh ∧ op ≠ .now ∧
        InHand past code.batch) := by
  cases op with
  | commit loaded data =>
      rcases hRule with ⟨-, -, hWrite⟩
      simp only [World.rowAfter] at hCode
      split at hCode
      · rcases codes_flush hCode with
          hKept | ⟨codes, hData, hNew⟩
        · exact Or.inl hKept
        · refine Or.inr ⟨Op.noConfusion, Op.noConfusion, ?_⟩
          cases hWrite with
          | codes hDrawn =>
              obtain rfl := by
                simpa [codesPatch] using hData
              rw [batch_of_mem hNew]
              exact Or.inl hDrawn
          | @field field value hRequest =>
              cases field <;>
                simp [Runtime.canonical,
                  Runtime.fieldPatch] at hData
          | _ =>
              simp [Runtime.pendingPatch, disablePatch,
                Runtime.canonical, Runtime.linkPatch,
                Runtime.claimPatch] at hData
      · exact Or.inl hCode
  | updateIf target guard data =>
      rcases hRule with ⟨-, -, hSwap⟩
      simp only [World.rowAfter] at hCode
      split at hCode
      · rename_i hHolds
        rcases codes_flush hCode with
          hKept | ⟨codes, hData, hNew⟩
        · exact Or.inl hKept
        · cases hSwap with
          | enable hDrawn =>
              obtain rfl := by
                simpa [enablePatch] using hData
              rw [batch_of_mem hNew]
              exact Or.inr ⟨Op.noConfusion, Op.noConfusion,
                Or.inr ⟨_, hDrawn⟩⟩
          | @spend stored spent hSubmitted hMem =>
              left
              have hStored :
                  row.mfaRecoveryCodes = stored := by
                simpa [World.holds] using hHolds.2
              obtain rfl := by
                simpa [without, codesPatch] using hData
              rw [User.codes, hStored]
              exact (List.mem_filter.mp hNew).1
      · exact Or.inl hCode
  | incrementVersion target =>
      left
      simp only [World.rowAfter] at hCode
      split at hCode <;> exact hCode
  | claimStep target step =>
      left
      simp only [World.rowAfter] at hCode
      split at hCode <;> exact hCode
  | _ => exact Or.inl hCode

/- The batches of stored codes are retired. -/
theorem retired_of_row
    (hStart : start.Seasoned)
    (hRuns : runtime.Runs requests condition start []
      state history) :
    ∀ id row, state.row? id = some row →
      ∀ code ∈ row.codes,
        Retired state history code.batch := by
  refine rows_along
    (fun state history row =>
      ∀ code ∈ row.codes,
        Retired state history code.batch)
    hRuns ?_ ?_ ?_ ?_
  · intro id row hRow code hCode
    refine retired_of_lt
      (hStart.drawn id row hRow code.batch ?_)
    simp only [User.drawn, List.mem_append]
    exact Or.inr (Or.inr (List.mem_map_of_mem hCode))
  · intro state history thread op id row hSoFar hRule hRow
      hRetired code hCode
    rcases codes_rowAfter hRule hCode with
      hKept | ⟨hFresh, hNow, hHand⟩
    · exact (hRetired code hKept).exec thread
    · exact retired_of_hand hSoFar hHand hFresh hNow
  · rintro state history thread created hSoFar
      ⟨-, -, hCodes, -⟩ code hCode
    simp [User.codes, hCodes] at hCode
  · intro state history tick row hRetired code hCode
    exact (hRetired code hCode).tick tick

/- It stays so along every run. -/
theorem retired_along
    (hRuns : runtime.Runs requests condition start opening
      state history)
    (hRetired : Retired start opening value) :
    Retired state history value := by
  refine Trace.invariant
    (fun state history => Retired state history value)
    hRuns hRetired ?_ ?_
  · intro state history thread op _ _ _ hSoFar
    exact hSoFar.exec thread
  · intro state history tick hSoFar
    exact hSoFar.tick tick

------------------------------------------------------------
-- Codes That Are Gone
------------------------------------------------------------

/- A code that is not stored and cannot be written. -/
structure Gone
    (id : UserId)
    (code : RecoveryCode)
    (state : World)
    (history : List (Ev ι)) : Prop where
  retired : Retired state history code.batch
  absent : ∃ row, state.row? id = some row ∧
    code ∉ row.codes

/- What is gone from a row never comes back to it. -/
theorem gone_along
    (hRuns : runtime.Runs requests condition start opening
      state history)
    (hGone : Gone id code start opening) :
    Gone id code state history := by
  refine Trace.invariant (Gone id code) hRuns hGone ?_ ?_
  · rintro state history thread op - hRule -
      ⟨hRetired, row, hRow, hAbsent⟩
    refine ⟨hRetired.exec thread, _,
      World.row?_exec hRow op, fun hCode => ?_⟩
    rcases codes_rowAfter hRule hCode with
      hKept | ⟨-, -, hHand⟩
    · exact hAbsent hKept
    · exact hRetired.free thread hHand
  · rintro state history tick ⟨hRetired, hAbsent⟩
    exact ⟨hRetired.tick tick, hAbsent⟩

end CrudAuth
