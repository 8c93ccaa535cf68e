import CrudAuth.Invariants.Rows

/-
  Random values are drawn once and used once.

  A value is spent when it has been drawn and no thread has
  it in hand any more; then nobody can use it as new.

  Main declarations:
    * `Spent`
    * `spent_along`
    * `spent_of_fresh`
    * `spent_of_row`
    * `spent_of_copy`
-/

namespace CrudAuth

open Concurrency

variable {ι : Type} [DecidableEq ι]
variable {runtime : Runtime}
variable {requests : ι → Request}
variable {condition : Condition ι interface World}
variable {start state world : World}
variable {opening history : List (Ev ι)}
variable {thread thread' : ι}
variable {value : Nat}

------------------------------------------------------------
-- Drawn Values
------------------------------------------------------------

/- Drawn in the past, and in nobody's hand. -/
structure Spent
    (state : World)
    (history : List (Ev ι))
    (value : Nat) : Prop where
  lt : value < state.nonce
  free : ∀ thread, ¬ Drawn (own thread history) value

/- A value below the first one drawn is never drawn. -/
theorem spent_of_lt
    (hLt : value < start.nonce) :
    Spent start ([] : List (Ev ι)) value := by
  refine ⟨hLt, ?_⟩
  intro thread hDrawn
  simp [Drawn] at hDrawn

/- A spent value stays spent. -/
theorem Spent.exec
    {op : Op}
    (hSpent : Spent state history value)
    (thread : ι) :
    Spent (World.exec op state).2
      (⟨thread, op, (World.exec op state).1⟩ :: history)
      value := by
  refine ⟨hSpent.lt.trans_le
    (World.nonce_le_exec state op), ?_⟩
  intro other hDrawn
  by_cases hThread : thread = other
  · subst hThread
    have hHead :
        (⟨op, (World.exec op state).1⟩ : Act) =
          ⟨.fresh, value⟩ := by
      simpa [Drawn, own, Event.action] using hDrawn
    cases op with
    | fresh =>
        have hValue : state.nonce = value := by
          simpa [World.exec] using hHead
        have hLt := hSpent.lt
        omega
    | _ => cases hHead
  · apply hSpent.free other
    simpa [Drawn, own, hThread] using hDrawn

/- The same, for an event that has been recorded. -/
theorem Spent.event
    {event : Ev ι}
    (hSpent : Spent state history value)
    (hRet : event.ret = (World.exec event.op state).1) :
    Spent (World.exec event.op state).2
      (event :: history) value := by
  rcases event with ⟨thread, op, ret⟩
  obtain rfl : ret = (World.exec op state).1 := hRet
  exact hSpent.exec thread

/- A spent value stays spent. -/
theorem spent_along
    (hRuns : runtime.Runs requests condition start opening
      state history)
    (hSpent : Spent start opening value) :
    Spent state history value := by
  refine Trace.invariant
    (fun state history => Spent state history value)
    hRuns hSpent ?_ ?_
  · intro state history thread op _ _ _ hSoFar
    exact hSoFar.exec thread
  · intro state history tick hSoFar
    exact ⟨hSoFar.lt, hSoFar.free⟩

/- Whatever was drawn was drawn by one thread only. -/
theorem fresh_of_runs
    (hRuns : runtime.Runs requests condition start []
      state history) :
    (∀ thread (value : Nat),
      (⟨thread, .fresh, value⟩ : Ev ι) ∈ history →
        value < state.nonce) ∧
    ∀ thread thread' (value : Nat),
      (⟨thread, .fresh, value⟩ : Ev ι) ∈ history →
      (⟨thread', .fresh, value⟩ : Ev ι) ∈ history →
        thread = thread' := by
  refine Trace.invariant
    (fun state (history : List (Ev ι)) =>
      (∀ thread (value : Nat),
        (⟨thread, .fresh, value⟩ : Ev ι) ∈ history →
          value < state.nonce) ∧
      ∀ thread thread' (value : Nat),
        (⟨thread, .fresh, value⟩ : Ev ι) ∈ history →
        (⟨thread', .fresh, value⟩ : Ev ι) ∈ history →
          thread = thread')
    hRuns (by simp) ?_ ?_
  · rintro state history active op _ _ _ ⟨hLt, hUnique⟩
    have hGrows := World.nonce_le_exec state op
    have hOld (thread : ι) (value : Nat)
        (hMem : (⟨thread, .fresh, value⟩ : Ev ι) ∈
          ⟨active, op, (World.exec op state).1⟩ ::
            history) :
        (thread = active ∧ value = state.nonce ∧
          (World.exec op state).2.nonce =
            state.nonce + 1) ∨
        (⟨thread, .fresh, value⟩ : Ev ι) ∈ history := by
      rcases List.mem_cons.mp hMem with hNew | hOld
      · cases hNew
        exact Or.inl ⟨rfl, rfl, rfl⟩
      · exact Or.inr hOld
    refine ⟨?_, ?_⟩
    · intro thread value hMem
      rcases hOld thread value hMem with
        ⟨-, hValue, hNonce⟩ | hMem
      · exact (hValue.trans_lt (Nat.lt_succ_self _)).trans_eq
          hNonce.symm
      · exact (hLt thread value hMem).trans_le hGrows
    · intro thread thread' value hMem hMem'
      rcases hOld thread value hMem with
        ⟨hThread, hValue, -⟩ | hMem
      · rcases hOld thread' value hMem' with
          ⟨hThread', -, -⟩ | hMem'
        · exact hThread.trans hThread'.symm
        · have := hLt thread' value hMem'
          omega
      · rcases hOld thread' value hMem' with
          ⟨-, hValue', -⟩ | hMem'
        · have := hLt thread value hMem
          omega
        · exact hUnique thread thread' value hMem hMem'
  · intro state history tick hSoFar
    exact hSoFar

/- A value drawn is a step of the run. -/
theorem fresh_of_drawn
    (hDrawn : Drawn (own thread history) value) :
    (⟨thread, .fresh, value⟩ : Ev ι) ∈ history := by
  have hMem :
      (⟨.fresh, value⟩ : Act) ∈ own thread history :=
    List.mem_of_mem_head? hDrawn
  rw [mem_own_iff] at hMem
  exact hMem

/- The next operation of its thread spends a value. -/
theorem spent_of_fresh
    {op : Op}
    {ret : op.Ret}
    (hRuns : runtime.Runs requests condition start []
      state history)
    (hFresh : (⟨thread, .fresh, value⟩ : Ev ι) ∈ history)
    (hOp : op ≠ .fresh) :
    Spent (World.exec op state).2
      (⟨thread, op, ret⟩ :: history) value := by
  rcases fresh_of_runs hRuns with ⟨hLt, hUnique⟩
  refine ⟨(hLt thread value hFresh).trans_le
    (World.nonce_le_exec state op), ?_⟩
  intro other hDrawn
  by_cases hThread : thread = other
  · subst hThread
    have hHead :
        (⟨op, ret⟩ : Act) = ⟨.fresh, value⟩ := by
      simpa [Drawn, own, Event.action] using hDrawn
    cases op with
    | fresh => exact hOp rfl
    | _ => cases hHead
  · have hDrawn' : Drawn (own other history) value := by
      simpa [Drawn, own, hThread] using hDrawn
    exact hThread (hUnique thread other value hFresh
      (fresh_of_drawn hDrawn'))

/- Time brings no value back. -/
theorem Spent.tick
    (hSpent : Spent state history value)
    (tick : Nat) :
    Spent (machine.tick tick state) history value :=
  ⟨hSpent.lt, hSpent.free⟩

------------------------------------------------------------
-- Random Values In Rows
------------------------------------------------------------

/- The random part of a stored hash. -/
def StoredHash.salts : StoredHash → List Nat
  | .unusable suffix => [suffix]
  | .bcrypt _ salt => [salt]
  | .missing => []
  | .foreign _ => []

/- The secret of a stored, unconfirmed enrollment. -/
def Plaintext.pending : Plaintext → List Secret
  | .bound _ secret => [secret]
  | .bare _ => []
  | .unreadable => []

/- The random values a row is made with. -/
def User.drawn (user : User) : List Nat :=
  user.hashedPassword.salts ++
    (user.totpSecretEncrypted.toList.flatMap
        Plaintext.pending ++
      (user.mfaRecoveryCodes.getD []).map
        RecoveryCode.batch)

/- The random values an update can write. -/
def Patch.drawn (data : Patch) : List Nat :=
  data.hashedPassword.toList.flatMap StoredHash.salts ++
    (data.totpSecretEncrypted.join.toList.flatMap
        Plaintext.pending ++
      (data.mfaRecoveryCodes.join.getD []).map
        RecoveryCode.batch)

/- A flush brings in nothing else. -/
theorem Patch.drawn_flush
    {data : Patch}
    {loaded stored : User}
    (hValue : value ∈ (data.flush loaded stored).drawn) :
    value ∈ stored.drawn ∨ value ∈ data.drawn := by
  simp only [User.drawn, Patch.drawn, Patch.flush,
    List.mem_append] at hValue ⊢
  rcases hValue with hSalt | hSecret | hCode
  · rcases flushColumn_cases loaded.hashedPassword
        stored.hashedPassword data.hashedPassword with
      hKept | hSet
    · rw [hKept] at hSalt
      exact Or.inl (Or.inl hSalt)
    · rw [hSet]
      exact Or.inr (Or.inl (by simpa using hSalt))
  · rcases flushColumn_cases loaded.totpSecretEncrypted
        stored.totpSecretEncrypted
        data.totpSecretEncrypted with
      hKept | hSet
    · rw [hKept] at hSecret
      exact Or.inl (Or.inr (Or.inl hSecret))
    · rw [hSet]
      exact Or.inr (Or.inr (Or.inl (by
        simpa using hSecret)))
  · rcases flushColumn_cases loaded.mfaRecoveryCodes
        stored.mfaRecoveryCodes data.mfaRecoveryCodes with
      hKept | hSet
    · rw [hKept] at hCode
      exact Or.inl (Or.inr (Or.inr hCode))
    · rw [hSet]
      exact Or.inr (Or.inr (Or.inr (by
        simpa using hCode)))

variable {request : Request}
variable {past : List Act}
variable {loaded row user : User}
variable {data : Patch}
variable {op : Op}

private theorem batch_of_recoveryBatch
    {batch count : Nat}
    (hValue :
      value ∈ (recoveryBatch batch count).map
        RecoveryCode.batch) :
    value = batch := by
  rcases List.mem_map.mp hValue with ⟨code, hCode, rfl⟩
  rcases List.mem_map.mp hCode with ⟨index, -, rfl⟩
  rfl

/- What a commit writes at random was drawn for it. -/
theorem drawn_of_write
    (hWrite : runtime.Write request past loaded data)
    (hValue : value ∈ data.drawn) :
    Drawn past value := by
  cases hWrite with
  | password hDrawn hAuthorized =>
      obtain rfl := by
        simpa [Patch.drawn, StoredHash.salts] using hValue
      exact hDrawn
  | pending hDrawn hNotEnrolled =>
      obtain rfl := by
        simpa [Patch.drawn, Runtime.pendingPatch,
          Plaintext.pending] using hValue
      exact hDrawn
  | codes hDrawn hCount hEnrolled =>
      have hBatch := batch_of_recoveryBatch (by
        simpa [Patch.drawn, codesPatch] using hValue)
      rw [hBatch]
      exact hDrawn
  | claim hRequest hUnverified hDrawn =>
      obtain rfl := by
        simpa [Patch.drawn, Runtime.claimPatch,
          disablePatch, StoredHash.salts] using hValue
      exact hDrawn
  | @field field value hRequest =>
      cases field <;>
        simp [Patch.drawn, Runtime.canonical,
          Runtime.fieldPatch] at hValue
  | disable => simp [Patch.drawn, disablePatch] at hValue
  | emailVerified => simp [Patch.drawn] at hValue
  | factorVerified => simp [Patch.drawn] at hValue
  | email =>
      simp [Patch.drawn, Runtime.canonical] at hValue
  | link => simp [Patch.drawn, Runtime.linkPatch] at hValue

/- The random values of a row: kept, or drawn before. -/
theorem drawn_rowAfter
    (hRule : runtime.rule request past op)
    (hValue : value ∈ (world.rowAfter op row).drawn) :
    value ∈ row.drawn ∨
      (op ≠ .fresh ∧ (⟨.fresh, value⟩ : Act) ∈ past) := by
  cases op with
  | commit loaded data =>
      rcases hRule with ⟨-, -, hWrite⟩
      simp only [World.rowAfter] at hValue
      split at hValue
      · rcases Patch.drawn_flush hValue with hKept | hNew
        · exact Or.inl hKept
        · exact Or.inr ⟨by simp,
            List.mem_of_mem_head?
              (drawn_of_write hWrite hNew)⟩
      · exact Or.inl hValue
  | updateIf target guard data =>
      rcases hRule with ⟨-, -, hSwap⟩
      simp only [World.rowAfter] at hValue
      split at hValue
      · rename_i hHolds
        rcases Patch.drawn_flush hValue with hKept | hNew
        · exact Or.inl hKept
        · cases hSwap with
          | enable hDrawn =>
              have hBatch := batch_of_recoveryBatch (by
                simpa [Patch.drawn, enablePatch,
                  Plaintext.pending] using hNew)
              rw [hBatch]
              exact Or.inr ⟨by simp,
                hDrawn.subset (by simp)⟩
          | @spend stored code hSubmitted hCode =>
              left
              have hStored :
                  row.mfaRecoveryCodes = stored := by
                simpa [World.holds] using hHolds.2
              simp only [Patch.drawn, without, codesPatch,
                List.mem_append, User.drawn] at hNew ⊢
              right
              right
              rw [hStored]
              obtain ⟨kept, ⟨hKept, -⟩, rfl⟩ := by
                simpa using hNew
              exact List.mem_map_of_mem hKept
      · exact Or.inl hValue
  | incrementVersion target =>
      left
      simp only [World.rowAfter] at hValue
      split at hValue <;> exact hValue
  | claimStep target step =>
      left
      simp only [World.rowAfter] at hValue
      split at hValue <;> exact hValue
  | _ => exact Or.inl hValue

/- Every random value of a row has been drawn before. -/
structure World.Seasoned (world : World) : Prop where
  wellFormed : world.WellFormed
  drawn : ∀ id row, world.row? id = some row →
    ∀ value ∈ row.drawn, value < world.nonce

/- The random values of every row are spent. -/
theorem spent_of_row
    (hStart : start.Seasoned)
    (hRuns : runtime.Runs requests condition start []
      state history) :
    ∀ id row, state.row? id = some row →
      ∀ value ∈ row.drawn, Spent state history value := by
  refine rows_along
    (fun state history row =>
      ∀ value ∈ row.drawn, Spent state history value)
    hRuns ?_ ?_ ?_ ?_
  · intro id row hRow value hValue
    exact spent_of_lt (hStart.drawn id row hRow value hValue)
  · intro state history thread op id row hSoFar hRule hRow
      hSpent value hValue
    rcases drawn_rowAfter hRule hValue with
      hKept | ⟨hOp, hFresh⟩
    · exact (hSpent value hKept).exec thread
    · rw [mem_own_iff] at hFresh
      exact spent_of_fresh hSoFar hFresh hOp
  · rintro state history thread created hSoFar
      ⟨-, hSecret, hCodes, suffix, hHash, hFresh⟩ value
      hValue
    obtain rfl : value = suffix := by
      simpa [User.drawn, StoredHash.salts, hHash, hSecret,
        hCodes] using hValue
    rw [mem_own_iff] at hFresh
    exact spent_of_fresh hSoFar hFresh (by simp)
  · intro state history tick row hSpent value hValue
    exact (hSpent value hValue).tick tick

/- So are those of every copy a thread has read. -/
theorem spent_of_copy
    {action : Act}
    (hStart : start.Seasoned)
    (hRuns : runtime.Runs requests condition start []
      state history)
    (hAction : action ∈ own thread history)
    (hCopy : copyOf action = some user)
    (hValue : value ∈ user.drawn) :
    Spent state history value := by
  rcases moment_of_copy hStart.wellFormed hRuns hAction
      hCopy with
    ⟨moment, earlier, hThen, hAfter, hRow⟩
  exact spent_along hAfter
    (spent_of_row hStart hThen user.id user hRow value
      hValue)

------------------------------------------------------------
-- Pending Secrets
------------------------------------------------------------

/- A stored secret was drawn. -/
theorem mem_drawn_of_bound
    {version : Nat}
    {secret : Secret}
    (hStored :
      user.totpSecretEncrypted =
        some (.bound version secret)) :
    secret ∈ user.drawn := by
  simp [User.drawn, Plaintext.pending, hStored]

/- A pending secret that is written was drawn for it. -/
theorem pending_of_write
    {version : Nat}
    {secret : Secret}
    (hWrite : runtime.Write request past loaded data)
    (hSecret :
      data.totpSecretEncrypted =
        some (some (.bound version secret))) :
    Drawn past secret ∧
      version = runtime.tokenVersion loaded := by
  refine ⟨drawn_of_write hWrite (by
    simp [Patch.drawn, Plaintext.pending, hSecret]), ?_⟩
  cases hWrite with
  | pending hDrawn hNotEnrolled =>
      obtain ⟨rfl, -⟩ := by
        simpa [Runtime.pendingPatch] using hSecret
      rfl
  | @field field value hRequest =>
      cases field <;>
        simp [Runtime.canonical, Runtime.fieldPatch]
          at hSecret
  | password => simp at hSecret
  | disable => simp [disablePatch] at hSecret
  | codes => simp [codesPatch] at hSecret
  | emailVerified => simp at hSecret
  | factorVerified => simp at hSecret
  | email => simp [Runtime.canonical] at hSecret
  | link => simp [Runtime.linkPatch] at hSecret
  | claim =>
      simp [Runtime.claimPatch, disablePatch] at hSecret

/-
  The ciphertext of a row after an operation: unchanged, of
  no pending enrollment, or the one a commit sets.
-/
theorem ciphertext_rowAfter
    {version : Nat}
    {secret : Secret}
    (hRule : runtime.rule request past op)
    (hAfter :
      (world.rowAfter op row).totpSecretEncrypted =
        some (.bound version secret)) :
    row.totpSecretEncrypted = some (.bound version secret) ∨
      ∃ loaded data,
        op = .commit loaded data ∧
        data.totpSecretEncrypted =
          some (some (.bound version secret)) := by
  cases op with
  | commit loaded data =>
      simp only [World.rowAfter] at hAfter
      split at hAfter
      · rcases flushColumn_cases loaded.totpSecretEncrypted
            row.totpSecretEncrypted
            data.totpSecretEncrypted with
          hKept | hSet
        · exact Or.inl (hKept.symm.trans hAfter)
        · exact Or.inr ⟨loaded, data, rfl,
            hSet.trans (congrArg some hAfter)⟩
      · exact Or.inl hAfter
  | updateIf target guard data =>
      rcases hRule with ⟨-, -, hSwap⟩
      left
      simp only [World.rowAfter] at hAfter
      split at hAfter
      · cases hSwap with
        | enable =>
            simp [Patch.assign, Patch.flush, enablePatch]
              at hAfter
        | spend =>
            simpa [Patch.assign, Patch.flush, without,
              codesPatch] using hAfter
      · exact hAfter
  | incrementVersion target =>
      left
      simp only [World.rowAfter] at hAfter
      split at hAfter <;> exact hAfter
  | claimStep target step =>
      left
      simp only [World.rowAfter] at hAfter
      split at hAfter <;> exact hAfter
  | _ => exact Or.inl hAfter

end CrudAuth
