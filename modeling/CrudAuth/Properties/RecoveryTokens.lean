import CrudAuth.Scenario

/-
  Signed tokens and the account state they were minted for:
  can an account come back to a state it has left?

  Main declarations:
    * `Returns`
    * `NoReturn`
    * `fingerprint_rowAfter`
    * `TokensStayDead`
    * `tokensStayDead_of_noReturn`
-/

namespace CrudAuth

open Concurrency

variable {ι : Type} [DecidableEq ι]
variable {runtime : Runtime}
variable {request : Request}
variable {requests : ι → Request}
variable {past : List Act}
variable {condition : Condition ι interface World}
variable {start state world : World}
variable {history opening : List (Ev ι)}
variable {id : UserId}
variable {row row' loaded copy : User}
variable {thread : ι}
variable {purpose : Purpose}

------------------------------------------------------------
-- Minting And Returning
------------------------------------------------------------

/-
  The email or the recovery value comes back to the one of
  a token's state, the rest of which still holds.
-/
def Returns
    (runtime : Runtime)
    (state : Fingerprint)
    (row row' : User) : Prop :=
  match state with
  | .verify value =>
      runtime.recoveryValue row ≠ value ∧
        runtime.recoveryValue row' = value
  | .reset hash value =>
      row.hashedPassword = hash ∧
        runtime.recoveryValue row ≠ value ∧
        runtime.recoveryValue row' = value
  | .change hash email version =>
      row.hashedPassword = hash ∧
        runtime.tokenVersion row = version ∧
        row.email ≠ email ∧
        row'.email = email

instance (state : Fingerprint) (row row' : User) :
    Decidable (Returns runtime state row row') :=
  match state with
  | .verify value =>
      inferInstanceAs (Decidable
        (runtime.recoveryValue row ≠ value ∧
          runtime.recoveryValue row' = value))
  | .reset hash value =>
      inferInstanceAs (Decidable
        (row.hashedPassword = hash ∧
          runtime.recoveryValue row ≠ value ∧
          runtime.recoveryValue row' = value))
  | .change hash email version =>
      inferInstanceAs (Decidable
        (row.hashedPassword = hash ∧
          runtime.tokenVersion row = version ∧
          row.email ≠ email ∧
          row'.email = email))

/- The account an operation commits changes to. -/
def commitsTo? : Op → Option UserId
  | .commit loaded _ => some loaded.id
  | _ => none

/-
  No commit brings an account back to the email or the
  recovery value a minting request has read it with.
-/
def NoReturn
    (runtime : Runtime)
    (requests : ι → Request) :
    Condition ι interface World :=
  fun state history _ op =>
    ∀ id ∈ commitsTo? op,
      ∀ row ∈ state.row? id,
      ∀ event ∈ history,
      ∀ purpose ∈ (requests event.thread).mints,
      ∀ copy ∈ copyOf event.action,
        copy.id = id →
        ¬ Returns runtime
          (runtime.stateFingerprint purpose copy) row
          (state.rowAfter op row)

instance :
    ∀ (state : World) (history : List (Ev ι))
      (thread : ι) (op : Op),
      Decidable
        (NoReturn runtime requests state history thread
          op) :=
  fun state history _ op =>
    inferInstanceAs (Decidable
      (∀ id ∈ commitsTo? op,
        ∀ row ∈ state.row? id,
        ∀ event ∈ history,
        ∀ purpose ∈ (requests event.thread).mints,
        ∀ copy ∈ copyOf event.action,
          copy.id = id →
          ¬ Returns runtime
            (runtime.stateFingerprint purpose copy) row
            (state.rowAfter op row)))

/-
  Delivered tokens carry the state of a copy their request
  has read.  Once the account has left that state, no token
  of it is redeemed again.
-/
structure TokensStayDead
    (runtime : Runtime)
    (requests : ι → Request)
    (condition : Condition ι interface World)
    (start : World) : Prop where
  minted : ∀ config thread intent token,
    runtime.Reachable requests condition start config →
    (⟨thread, .deliver intent, ()⟩ : Ev ι) ∈
      config.history →
    intent.token = some token →
    (requests thread).mints = some token.state.purpose ∧
    ∃ action ∈ own thread config.history, ∃ copy,
      copyOf action = some copy ∧
      token.sub = copy.id ∧
      token.state =
        runtime.stateFingerprint token.state.purpose copy
  dead : ∀ config config' thread purpose action copy row
      token,
    runtime.Reachable requests condition start config →
    Reaches machine condition config config' →
    (requests thread).mints = some purpose →
    action ∈ own thread config.history →
    copyOf action = some copy →
    config.state.row? copy.id = some row →
    runtime.stateFingerprint purpose row ≠
      runtime.stateFingerprint purpose copy →
    token.sub = copy.id →
    token.state = runtime.stateFingerprint purpose copy →
    ∀ purpose',
      ((runtime.redeemToken token purpose').run World.exec
        config'.state).1 = .error Runtime.invalidToken

------------------------------------------------------------
-- One Step
------------------------------------------------------------

/- A hash that is set carries a value drawn for it. -/
private theorem salt_of_write
    {data : Patch}
    {hash : StoredHash}
    (hWrite : runtime.Write request past loaded data)
    (hSet : data.hashedPassword = some hash) :
    ∃ salt ∈ hash.salts, Drawn past salt := by
  have hSalts : hash.salts ≠ [] := by
    cases hWrite with
    | password =>
        obtain rfl := by simpa using hSet
        simp [StoredHash.salts]
    | claim =>
        obtain rfl := by simpa [Runtime.claimPatch]
          using hSet
        simp [StoredHash.salts]
    | @field field value hRequest =>
        cases field <;>
          simp [Runtime.canonical, Runtime.fieldPatch]
            at hSet
    | pending => simp [Runtime.pendingPatch] at hSet
    | disable => simp [disablePatch] at hSet
    | codes => simp [codesPatch] at hSet
    | emailVerified => simp at hSet
    | factorVerified => simp at hSet
    | email => simp [Runtime.canonical] at hSet
    | link => simp [Runtime.linkPatch] at hSet
  rcases List.exists_mem_of_ne_nil _ hSalts with
    ⟨salt, hSalt⟩
  refine ⟨salt, hSalt, drawn_of_write hWrite ?_⟩
  simp [Patch.drawn, hSet, hSalt]

/- A hash that was ever stored is never set again. -/
private theorem hash_of_rowAfter
    {op : Op}
    {hash : StoredHash}
    (hRule :
      runtime.rule (requests thread) (own thread history)
        op)
    (hSpent : ∀ salt ∈ hash.salts,
      Spent state history salt)
    (hAfter :
      (state.rowAfter op row).hashedPassword = hash) :
    row.hashedPassword = hash := by
  cases op with
  | commit loaded data =>
      simp only [World.rowAfter] at hAfter
      split at hAfter
      · rcases flushColumn_cases loaded.hashedPassword
            row.hashedPassword data.hashedPassword with
          hKept | hSet
        · exact hKept.symm.trans hAfter
        · rcases salt_of_write hRule.2.2
              (hSet.trans (congrArg some hAfter)) with
            ⟨salt, hSalt, hDrawn⟩
          exact absurd hDrawn
            ((hSpent salt hSalt).free thread)
      · exact hAfter
  | updateIf target guard data =>
      rcases hRule with ⟨-, -, hSwap⟩
      simp only [World.rowAfter] at hAfter
      split at hAfter
      · cases hSwap with
        | enable => exact hAfter
        | spend => exact hAfter
      · exact hAfter
  | incrementVersion target =>
      simp only [World.rowAfter] at hAfter
      split at hAfter <;> exact hAfter
  | claimStep target step =>
      simp only [World.rowAfter] at hAfter
      split at hAfter <;> exact hAfter
  | _ => exact hAfter

/- Only commits touch what recovery goes by. -/
private theorem email_rowAfter
    {op : Op}
    (hRule : runtime.rule request past op)
    (hOp : commitsTo? op ≠ some row.id) :
    (state.rowAfter op row).email = row.email ∧
      runtime.recoveryValue (state.rowAfter op row) =
        runtime.recoveryValue row := by
  cases op with
  | commit loaded data =>
      have hOther : loaded.id ≠ row.id := by
        simpa [commitsTo?] using hOp
      rw [World.rowAfter_commit_of_ne hOther]
      exact ⟨rfl, rfl⟩
  | updateIf target guard data =>
      rcases hRule with ⟨-, -, hSwap⟩
      simp only [World.rowAfter]
      split
      · cases hSwap <;> exact ⟨rfl, rfl⟩
      · exact ⟨rfl, rfl⟩
  | incrementVersion target =>
      simp only [World.rowAfter]
      split <;> exact ⟨rfl, rfl⟩
  | claimStep target step =>
      simp only [World.rowAfter]
      split <;> exact ⟨rfl, rfl⟩
  | _ => exact ⟨rfl, rfl⟩

/- Coming back to a state is coming back to its value. -/
theorem fingerprint_rowAfter
    {op : Op}
    (hRule :
      runtime.rule (requests thread) (own thread history)
        op)
    (hSpent : ∀ salt ∈ copy.hashedPassword.salts,
      Spent state history salt)
    (hVersion : copy.tokenVersion ≤ row.tokenVersion)
    (hLeft :
      runtime.stateFingerprint purpose row ≠
        runtime.stateFingerprint purpose copy)
    (hBack :
      runtime.stateFingerprint purpose
          (state.rowAfter op row) =
        runtime.stateFingerprint purpose copy) :
    Returns runtime
      (runtime.stateFingerprint purpose copy) row
      (state.rowAfter op row) := by
  cases purpose with
  | verify =>
      simp only [Runtime.stateFingerprint, ne_eq,
        Fingerprint.verify.injEq] at hLeft hBack
      exact ⟨hLeft, hBack⟩
  | reset =>
      simp only [Runtime.stateFingerprint, ne_eq,
        Fingerprint.reset.injEq, not_and] at hLeft hBack
      have hHash := hash_of_rowAfter hRule hSpent hBack.1
      exact ⟨hHash, hLeft hHash, hBack.2⟩
  | change =>
      simp only [Runtime.stateFingerprint, ne_eq,
        Fingerprint.change.injEq, not_and] at hLeft hBack
      rcases hBack with ⟨hHash', hEmail', hVersion'⟩
      have hHash := hash_of_rowAfter hRule hSpent hHash'
      have hGrows := version_le_rowAfter state op row
      have hSame :
          runtime.tokenVersion row =
            runtime.tokenVersion copy := by
        unfold Runtime.tokenVersion at hVersion' ⊢
        split
        · rename_i hColumn
          rw [if_pos hColumn, if_pos hColumn] at hVersion'
          omega
        · rfl
      refine ⟨hHash, hSame, ?_, hEmail'⟩
      intro hEmail
      exact hLeft hHash hEmail hSame

/- A state that has been left stays left. -/
theorem left_step
    {op : Op}
    {action : Act}
    (hRule :
      runtime.rule (requests thread) (own thread history)
        op)
    (hNoReturn :
      NoReturn runtime requests state history thread op)
    {minter : ι}
    (hMints : (requests minter).mints = some purpose)
    (hAction : action ∈ own minter history)
    (hCopy : copyOf action = some copy)
    (hRow : state.row? copy.id = some row)
    (hSpent : ∀ salt ∈ copy.hashedPassword.salts,
      Spent state history salt)
    (hVersion : copy.tokenVersion ≤ row.tokenVersion)
    (hLeft :
      runtime.stateFingerprint purpose row ≠
        runtime.stateFingerprint purpose copy) :
    runtime.stateFingerprint purpose
        (state.rowAfter op row) ≠
      runtime.stateFingerprint purpose copy := by
  intro hBack
  have hReturns := fingerprint_rowAfter hRule hSpent
    hVersion hLeft hBack
  have hId : row.id = copy.id := World.id_of_row? hRow
  by_cases hOp : commitsTo? op = some row.id
  · rw [mem_own_iff] at hAction
    exact hNoReturn row.id hOp row (hId ▸ hRow) _ hAction
      purpose hMints copy hCopy hId.symm hReturns
  · have hKept :
        (state.rowAfter op row).email = row.email ∧
          runtime.recoveryValue (state.rowAfter op row) =
            runtime.recoveryValue row :=
      email_rowAfter hRule hOp
    rcases hKept with ⟨hEmail, hValue⟩
    cases purpose with
    | verify =>
        rcases hReturns with ⟨hDiffers, hSame⟩
        exact hDiffers (hValue.symm.trans hSame)
    | reset =>
        rcases hReturns with ⟨-, hDiffers, hSame⟩
        exact hDiffers (hValue.symm.trans hSame)
    | change =>
        rcases hReturns with ⟨-, -, hDiffers, hSame⟩
        exact hDiffers (hEmail.symm.trans hSame)

------------------------------------------------------------
-- Whole Runs
------------------------------------------------------------

/- From any moment on, a state that is left stays left. -/
theorem left_along
    {config config' :
      Config ι interface World HttpError Unit}
    {action : Act}
    (hStart : start.Seasoned)
    (hReachable :
      runtime.Reachable requests
        (NoReturn runtime requests) start config)
    (hReaches :
      Reaches machine (NoReturn runtime requests) config
        config')
    (hMints : (requests thread).mints = some purpose)
    (hAction : action ∈ own thread config.history)
    (hCopy : copyOf action = some copy)
    (hRow : config.state.row? copy.id = some row)
    (hLeft :
      runtime.stateFingerprint purpose row ≠
        runtime.stateFingerprint purpose copy) :
    ∃ row',
      config'.state.row? copy.id = some row' ∧
        runtime.stateFingerprint purpose row' ≠
          runtime.stateFingerprint purpose copy := by
  have hFirst := Runtime.runs_of_reachable hReachable
  have hRuns :=
    Runtime.runs_of_reaches hReachable hReaches
  have hSalts (salt : Nat)
      (hSalt : salt ∈ copy.hashedPassword.salts) :
      Spent config.state config.history salt := by
    refine spent_of_copy hStart hFirst hAction hCopy ?_
    simp [User.drawn, hSalt]
  have hVersion :
      copy.tokenVersion ≤ row.tokenVersion := by
    rcases row_of_read hStart.wellFormed hFirst hAction
        hCopy with
      ⟨found, hFound, hLe⟩
    obtain rfl : found = row := by
      simpa [hFound] using hRow
    exact hLe
  have hAlong := Trace.invariant
    (fun state history =>
      (∀ salt ∈ copy.hashedPassword.salts,
        Spent state history salt) ∧
      action ∈ own thread history ∧
      ∃ row',
        state.row? copy.id = some row' ∧
        copy.tokenVersion ≤ row'.tokenVersion ∧
        runtime.stateFingerprint purpose row' ≠
          runtime.stateFingerprint purpose copy)
    hRuns ⟨hSalts, hAction, row, hRow, hVersion, hLeft⟩
    ?_ ?_
  · rcases hAlong with ⟨-, -, row', hRow', -, hLeft'⟩
    exact ⟨row', hRow', hLeft'⟩
  · rintro state history active op - hRule hNoReturn
      ⟨hSpent, hMem, row', hRow', hLe, hGone⟩
    refine ⟨fun salt hSalt =>
      (hSpent salt hSalt).exec active, ?_, ?_⟩
    · exact (own_suffix thread
        (List.suffix_cons _ _)).subset hMem
    · exact ⟨_, World.row?_exec hRow' op,
        hLe.trans (version_le_rowAfter state op row'),
        left_step hRule hNoReturn hMints hMem hCopy hRow'
          hSpent hLe hGone⟩
  · rintro state history tick ⟨hSpent, hMem, hRest⟩
    exact ⟨fun salt hSalt => (hSpent salt hSalt).tick tick,
      hMem, hRest⟩

/- A token whose state has been left is refused. -/
theorem redeemToken_refused
    {token : SignedToken}
    (hLeft : ∀ row, world.row? token.sub = some row →
      runtime.stateFingerprint token.state.purpose row ≠
        token.state)
    (purpose : Purpose) :
    ((runtime.redeemToken token purpose).run World.exec
      world).1 = .error Runtime.invalidToken := by
  have hSelect :
      world.select (.byId token.sub) =
        world.row? token.sub :=
    rfl
  by_cases hEarly :
      token.exp ≤ world.clock ∨
        token.state.purpose ≠ purpose
  · simp [Runtime.redeemToken, call, Program.call,
      World.exec,
      hEarly]
  · rw [not_or, not_not] at hEarly
    rcases hEarly with ⟨hLive, rfl⟩
    cases hRow : world.row? token.sub with
    | none =>
        simp [Runtime.redeemToken, call, Program.call,
          World.exec,
          hLive, Runtime.getById, hSelect, hRow]
    | some row =>
        have hMoved := Ne.symm (hLeft row hRow)
        simp [Runtime.redeemToken, call, Program.call,
          World.exec,
          hLive, Runtime.getById, hSelect, hRow, hMoved]

/-
  Where nothing brings a value back, a token stays dead
  once the account has left the state it was minted for.
-/
theorem tokensStayDead_of_noReturn
    (runtime : Runtime)
    (requests : ι → Request)
    (start : World)
    (hStart : start.Seasoned) :
    TokensStayDead runtime requests
      (NoReturn runtime requests) start := by
  refine ⟨?_, ?_⟩
  · intro config thread intent token hReachable hDelivered
      hToken
    have hRuns := Runtime.runs_of_reachable hReachable
    rcases hRuns.at_member hDelivered with
      ⟨before, earlier, hOlder, -, hRule, -⟩
    rcases hRule token hToken with
      ⟨hMints, action, copy, hAction, hCopy, hSub, hState,
        -⟩
    refine ⟨hMints, action, ?_, copy, hCopy, hSub, hState⟩
    exact (own_suffix thread hOlder).subset hAction
  · intro config config' thread purpose action copy row
      token hReachable hReaches hMints hAction hCopy hRow
      hLeft hSub hState purpose'
    rcases left_along hStart hReachable hReaches hMints
        hAction hCopy hRow hLeft with
      ⟨row', hRow', hLeft'⟩
    apply redeemToken_refused
    intro found hFound
    rw [hSub] at hFound
    obtain rfl : found = row' := by
      simpa [hFound] using hRow'
    rw [hState, Runtime.purpose_stateFingerprint]
    exact hLeft'

------------------------------------------------------------
-- There And Back Again
------------------------------------------------------------

/- A change of the member's address, ready to confirm. -/
def movedTo (old new : String) : SignedToken where
  sub := 1
  state := .change (.bcrypt "old" 1) (some old) 0
  newEmail := some new
  exp := 4600

/- A reset is requested, and the address changed twice. -/
def thereAndBack : Nat → Request
  | 0 => .requestReset "ada@example.org"
  | 1 =>
      .requestEmailChange (.session 7) "ada@example.net"
        "old"
  | 2 =>
      .confirmEmailChange
        (movedTo "ada@example.org" "ada@example.net")
  | 3 =>
      .requestEmailChange (.session 7) "ada@example.org"
        "old"
  | _ =>
      .confirmEmailChange
        (movedTo "ada@example.net" "ada@example.org")

/- The steps in which the address changes. -/
def leave : List (Choice Nat Nat) :=
  Scenario.steps 0 6 ++ Scenario.steps 1 10 ++
    Scenario.steps 2 9

/- Those in which it changes back. -/
def comeBack : List (Choice Nat Nat) :=
  Scenario.steps 3 10 ++ Scenario.steps 4 9

/- The row the reset was minted for. -/
def resetRead : Act where
  op := .select (.byField .email "ada@example.org")
  ret := some Scenario.member

/- Once the address has changed, the token is refused. -/
theorem left_refused :
    ((Scenario.runtime.redeemToken
      (Scenario.resetToken Scenario.member) .reset).run
        World.exec
        (Scenario.runtime.scheduled thereAndBack
          (NoReturn Scenario.runtime thereAndBack)
          Scenario.memberStart leave
          (by decide)).state).1 =
      .error Runtime.invalidToken := by
  have hLeft := Runtime.reachable_scheduled
    Scenario.runtime thereAndBack
    (NoReturn Scenario.runtime thereAndBack)
    Scenario.memberStart leave (by decide)
  have hRead :
      (own 0 (Scenario.runtime.scheduled thereAndBack
        (NoReturn Scenario.runtime thereAndBack)
        Scenario.memberStart leave
        (by decide)).history)[3]? = some resetRead :=
    rfl
  exact (tokensStayDead_of_noReturn Scenario.runtime
    thereAndBack Scenario.memberStart
    Scenario.memberStart_seasoned).dead _ _ 0 .reset
    resetRead Scenario.member _ _ hLeft .start rfl
    (List.mem_of_getElem? hRead) rfl rfl (by decide) rfl
    rfl .reset

theorem comeBack_ends :
    ((Scenario.runtime.scheduled thereAndBack anyStep
      Scenario.memberStart leave (by decide)).run machine
        anyStep comeBack).isSome = true := by
  decide

/- Back at the old address, it is accepted once more. -/
theorem not_tokensStayDead_of_return :
    ¬ TokensStayDead Scenario.runtime thereAndBack anyStep
      Scenario.memberStart := by
  intro hDead
  have hLeft := Runtime.reachable_scheduled
    Scenario.runtime thereAndBack anyStep
    Scenario.memberStart leave (by decide)
  have hRead :
      (own 0 (Scenario.runtime.scheduled thereAndBack
        anyStep Scenario.memberStart leave
        (by decide)).history)[3]? = some resetRead :=
    rfl
  have hRefused := hDead.dead _ _ 0 .reset resetRead
    Scenario.member _ (Scenario.resetToken Scenario.member)
    hLeft
    (Reaches.of_run (Option.some_get comeBack_ends).symm)
    rfl (List.mem_of_getElem? hRead) rfl rfl (by decide) rfl
    rfl .reset
  have hAccepted := congrArg Except.isOk hRefused
  exact absurd hAccepted (by decide)

end CrudAuth
