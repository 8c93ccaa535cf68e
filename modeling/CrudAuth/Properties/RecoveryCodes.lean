import CrudAuth.Invariants.Codes
import CrudAuth.Properties.TimeSteps
import CrudAuth.Scenario

/-
  Recovery codes are spent once.

  A code stands for its hash, which is what the stored set
  holds; generated sets are distinct because each is drawn
  as a batch of its own.

  Main declarations:
    * `SpentBy`
    * `StoredFor`
    * `CodesOnce`
    * `codesOnce_of_seasoned`
-/

namespace CrudAuth

open Concurrency
open Concurrency.Program

variable {ι : Type} [DecidableEq ι]
variable {runtime : Runtime}
variable {requests : ι → Request}
variable {condition : Condition ι interface World}
variable {start state : World}
variable {history later between earlier : List (Ev ι)}
variable {first second event : Ev ι}
variable {thread : ι}
variable {id : UserId}
variable {row : User}
variable {code : RecoveryCode}
variable {stored : Option (List RecoveryCode)}

------------------------------------------------------------
-- Spending A Code
------------------------------------------------------------

/- A compare-and-set that took a code out of the set. -/
def SpentBy
    (id : UserId)
    (code : RecoveryCode)
    (event : Ev ι) : Prop :=
  ∃ stored : Option (List RecoveryCode),
    code ∈ stored.getD [] ∧
    event.action =
      ⟨.updateIf id (.mfaRecoveryCodes stored)
        (without stored code), true⟩

/- The row without a code, and otherwise as it was. -/
def User.spend (user : User) (code : RecoveryCode) : User :=
  { user with
    mfaRecoveryCodes :=
      some (user.codes.filter (· ≠ code)) }

/- A spend that succeeds removes its code and no other. -/
theorem row?_of_spent
    (hSpent :
      (World.exec
        (.updateIf id (.mfaRecoveryCodes stored)
          (without stored code)) state).1 = true) :
    ∃ row,
      state.row? id = some row ∧
      row.mfaRecoveryCodes = stored ∧
      (World.exec
        (.updateIf id (.mfaRecoveryCodes stored)
          (without stored code)) state).2.row? id =
        some (row.spend code) := by
  cases hRow : state.row? id with
  | none =>
      simp [World.exec, World.updateWhere, hRow] at hSpent
  | some row =>
      rw [World.updateIf_ret hRow] at hSpent
      have hStored : row.mfaRecoveryCodes = stored := by
        simpa [World.holds] using hSpent
      refine ⟨row, rfl, hStored, ?_⟩
      have hId : row.id = id := World.id_of_row? hRow
      rw [World.row?_exec hRow]
      simp [World.rowAfter, hId, hSpent, Patch.assign,
        Patch.flush, without, codesPatch, User.spend,
        User.codes, hStored]

/- A spent code is gone from its row. -/
theorem not_mem_spend :
    code ∉ (row.spend code).codes := by
  simp [User.spend, User.codes]

/- A code is stored when it is spent. -/
theorem stored_of_spent
    {op : Op}
    (hSpent :
      (⟨op, (World.exec op state).1⟩ : Act) =
        ⟨.updateIf id (.mfaRecoveryCodes stored)
          (without stored code), true⟩)
    (hMem : code ∈ stored.getD []) :
    ∃ row,
      state.row? id = some row ∧
      code ∈ row.codes ∧
      (World.exec op state).2.row? id =
        some (row.spend code) := by
  rcases Concurrency.Action.mk.inj hSpent with ⟨rfl, hRet⟩
  rcases row?_of_spent (eq_of_heq hRet) with
    ⟨row, hRow, hStored, hAfter⟩
  refine ⟨row, hRow, ?_, hAfter⟩
  rw [User.codes, hStored]
  exact hMem

/- Once spent, a code is gone. -/
theorem gone_of_spent
    (hStart : start.Seasoned)
    (hRuns : runtime.Runs requests condition start []
      state (later ++ event :: earlier))
    (hSpent : SpentBy id code event) :
    Gone id code state (later ++ event :: earlier) := by
  rcases hSpent with ⟨stored, hMem, hAction⟩
  rcases hRuns.at_event with
    ⟨before, hBefore, -, -, hRet, -, hAfter⟩
  rcases event with ⟨thread, op, ret⟩
  obtain rfl : ret = (World.exec op before).1 := hRet
  rcases stored_of_spent hAction hMem with
    ⟨row, hRow, hCode, hSpend⟩
  have hRetired :=
    retired_of_row hStart hBefore id row hRow code hCode
  exact gone_along hAfter
    ⟨hRetired.exec thread, _, hSpend, not_mem_spend⟩

/- A code that is gone is not spent. -/
theorem not_spent_of_gone
    {opening : List (Ev ι)}
    (hRuns : runtime.Runs requests condition start opening
      state history)
    (hGone : Gone id code start opening)
    (hHistory : history = later ++ opening)
    (hEvent : event ∈ later) :
    ¬ SpentBy id code event := by
  rintro ⟨stored, hMem, hAction⟩
  rcases List.append_of_mem hEvent with
    ⟨newer, older, rfl⟩
  subst hHistory
  have hSplit : runtime.Runs requests condition start
      opening state
      (newer ++ event :: (older ++ opening)) := by
    simpa using hRuns
  rcases hSplit.at_newer with ⟨before, hBefore, -, hRet⟩
  rcases event with ⟨thread, op, ret⟩
  obtain rfl : ret = (World.exec op before).1 := hRet
  rcases stored_of_spent hAction hMem with
    ⟨row, hRow, hCode, -⟩
  rcases (gone_along hBefore hGone).absent with
    ⟨row', hRow', hAbsent⟩
  obtain rfl : row = row' :=
    Option.some.inj (hRow.symm.trans hRow')
  exact hAbsent hCode

------------------------------------------------------------
-- Lost Races
------------------------------------------------------------

/- A call that loads a row and checks a recovery code. -/
def MfaConfig.verifying
    (config : MfaConfig)
    (id : UserId)
    (code : RecoveryCode) : Flow Bool := do
  match ← Runtime.getById id with
  | none => return false
  | some user =>
      let (accepted, _) ←
        config.verifyCode user (.recovery code)
      return accepted

/- The account is enrolled, and the code is in its set. -/
def Holding
    (id : UserId)
    (code : RecoveryCode)
    (state : World) : Prop :=
  ∃ row, state.row? id = some row ∧
    row.isEnrolled = true ∧
    code ∈ row.codes

/- So it is whenever the reader takes a step. -/
def StoredFor
    (reader : ι)
    (id : UserId)
    (code : RecoveryCode) : Condition ι interface World :=
  fun state _ thread _ =>
    thread = reader → Holding id code state

/- A compare-and-set on the codes that lost its race. -/
def isLost : Act → Bool
  | ⟨.updateIf _ (.mfaRecoveryCodes _) _, won⟩ => !won
  | _ => false

/- How many compare-and-sets were lost. -/
def lostRaces (past : List Act) : Nat :=
  past.countP isLost

/- An action that shows the code to its thread. -/
def ShowsCode (code : RecoveryCode) : Act → Prop
  | ⟨.select _, found⟩ =>
      ∃ user, found = some user ∧
        user.isEnrolled = true ∧ code ∈ user.codes
  | ⟨.refresh _, found⟩ =>
      ∃ user, found = some user ∧
        user.isEnrolled = true ∧ code ∈ user.codes
  | _ => True

/- A call only reads the one row. -/
def consulting (id : UserId) : Contract interface where
  rule _
    | .select selector => selector = .byId id
    | .refresh target => target = id
    | _ => True
  answer := answers

/-
  The codes of the account are spent once each.  The last
  part holds whatever the other threads are: a call whose
  code is stored at each of its steps comes back with a
  refusal only after three lost races.
-/
structure CodesOnce
    (runtime : Runtime)
    (requests : ι → Request)
    (condition : Condition ι interface World)
    (start : World) : Prop where
  once :
    ∀ (config : Config ι interface World HttpError Unit)
      later between earlier first second id code,
      runtime.Reachable requests condition start config →
      config.history =
        later ++ second :: (between ++ first :: earlier) →
      SpentBy id code first →
      ¬ SpentBy id code second
  removed :
    ∀ (config : Config ι interface World HttpError Unit)
      thread id stored data,
      runtime.Reachable requests condition start config →
      config.next? thread =
        some (.updateIf id (.mfaRecoveryCodes stored)
          data) →
      (World.exec
        (.updateIf id (.mfaRecoveryCodes stored) data)
        config.state).1 = true →
      ∃ row code,
        (requests thread).code? = some (.recovery code) ∧
        config.state.row? id = some row ∧
        code ∈ row.codes ∧
        (World.exec
          (.updateIf id (.mfaRecoveryCodes stored) data)
          config.state).2.row? id =
            some (row.spend code)
  replaced :
    ∀ (config config' config'' :
        Config ι interface World HttpError Unit)
      id code row row' later,
      runtime.Reachable requests condition start config →
      Reaches machine condition config config' →
      Reaches machine condition config' config'' →
      config.state.row? id = some row →
      code ∈ row.codes →
      config'.state.row? id = some row' →
      code ∉ row'.codes →
      config''.history = later ++ config'.history →
      ∀ event ∈ later, ¬ SpentBy id code event
  accepted :
    ∀ (config : Config ι interface World HttpError Unit)
      later earlier event code,
      runtime.Reachable requests condition start config →
      config.history = later ++ event :: earlier →
      (requests event.thread).code? =
        some (.recovery code) →
      completes event.op →
      ∃ id,
        runtime.Entitled (requests event.thread)
          (own event.thread earlier) id ∧
        ∃ spent ∈ earlier,
          spent.thread = event.thread ∧
          SpentBy id code spent
  refused :
    ∀ (mfa : MfaConfig) (pool : ι → Flow Bool)
      (config : Config ι interface World HttpError Bool)
      reader id code,
      pool reader = mfa.verifying id code →
      Reaches machine (StoredFor reader id code)
        ⟨start, [], pool⟩ config →
      config.pool reader = .done false →
      lostRaces (own reader config.history) =
        MfaConfig.recoveryCodeClaimAttempts

/- A compare-and-set, and the copy that is read after it. -/
theorem updateIfUnchanged_consults
    {past : List Act}
    {user : User}
    {guard : Guard}
    {values : Patch}
    (hId : user.id = id) :
    Obeys (consulting id) past
      (Runtime.updateIfUnchanged user guard values)
      (Returns fun past' result =>
        result.2.id = id ∧
        past' =
          ⟨.refresh user.id, some result.2⟩ ::
            ⟨.updateIf user.id guard values, result.1⟩ ::
              past) := by
  refine obeys_step trivial fun updated _ => ?_
  refine obeys_step hId fun found hAnswer => ?_
  cases found with
  | none => simp
  | some user' =>
      simp only [returns_ok, done_bind, pure_eq_done,
        obeys_done, and_true]
      exact (hAnswer user' rfl).trans hId

/- A copy without the code ends the call at once. -/
theorem consumeRecoveryCode_of_not_mem
    {user : User}
    (hCode : code ∉ user.codes)
    (attempts : Nat) :
    MfaConfig.consumeRecoveryCode code attempts user =
      .done (false, user) := by
  cases attempts with
  | zero => rfl
  | succ attempts =>
      have hMem :
          ¬ code ∈ user.mfaRecoveryCodes.getD [] :=
        hCode
      unfold MfaConfig.consumeRecoveryCode
      simp only [hMem, if_false, pure_eq_done]

/- A claim on a stored code fails by losing each race. -/
theorem consumeRecoveryCode_loses
    {attempts : Nat}
    {past : List Act}
    {user : User}
    (hId : user.id = id)
    (hCode : code ∈ user.codes) :
    Obeys (consulting id) past
      (MfaConfig.consumeRecoveryCode code attempts user)
      (Returns fun past' result =>
        result.1 = false →
        (∀ action ∈ past', ShowsCode code action) →
        lostRaces past' = lostRaces past + attempts) := by
  induction attempts generalizing past user with
  | zero => simp [MfaConfig.consumeRecoveryCode]
  | succ attempts ih =>
      have hMem : code ∈ user.mfaRecoveryCodes.getD [] :=
        hCode
      unfold MfaConfig.consumeRecoveryCode
      simp only [hMem, if_true]
      apply Obeys.andThen (updateIfUnchanged_consults hId)
      rintro past' ⟨spent, user'⟩ - ⟨hId', rfl⟩
      cases spent with
      | true => simp
      | false =>
          simp only [Bool.false_eq_true, if_false]
          by_cases hCode' : code ∈ user'.codes
          · apply Obeys.mono (ih hId' hCode')
            intro past' result _ hPost value hResult hFalse
              hShows
            rw [hPost value hResult hFalse hShows]
            simp only [lostRaces, isLost,
              List.countP_cons_of_pos, Bool.not_false,
              List.countP_cons_of_neg, Bool.false_eq_true,
              not_false_eq_true]
            omega
          · rw [consumeRecoveryCode_of_not_mem hCode']
            simp only [obeys_done, returns_ok]
            intro _ hShows
            rcases hShows _ List.mem_cons_self with
              ⟨shown, hShown, -, hStored⟩
            obtain rfl := Option.some.inj hShown
            exact absurd hStored hCode'

/- So does a copy of an account that is not enrolled. -/
theorem verifyCode_of_bad
    {config : MfaConfig}
    {user : User}
    (hBad :
      ¬ (user.isEnrolled = true ∧ code ∈ user.codes)) :
    config.verifyCode user (.recovery code) =
      .done (false, user) := by
  unfold MfaConfig.verifyCode
  by_cases hEnrolled : user.isEnrolled = true
  · simp only [hEnrolled, if_true]
    apply consumeRecoveryCode_of_not_mem
    intro hCode
    exact hBad ⟨hEnrolled, hCode⟩
  · simp [hEnrolled]

/- The same for a call from its first read on. -/
theorem verifying_loses
    (config : MfaConfig) :
    Obeys (consulting id) []
      (config.verifying id code)
      (Returns fun past accepted =>
        accepted = false →
        (∀ action ∈ past, ShowsCode code action) →
        lostRaces past =
          MfaConfig.recoveryCodeClaimAttempts) := by
  refine obeys_step rfl fun found hAnswer => ?_
  cases found with
  | none =>
      simp only [obeys_pure, returns_ok]
      intro _ hShows
      rcases hShows _ List.mem_cons_self with
        ⟨user, hUser, -⟩
      cases hUser
  | some user =>
      have hId : user.id = id := by
        simpa [World.matchesSelector] using
          hAnswer user rfl
      by_cases hGood :
          user.isEnrolled = true ∧ code ∈ user.codes
      · simp only [MfaConfig.verifyCode, hGood.1, if_true]
        apply Obeys.andThen
          (consumeRecoveryCode_loses hId hGood.2)
        rintro past ⟨accepted, user'⟩ _ hPost
        simp only [obeys_pure, returns_ok]
        intro hFalse hShows
        rw [hPost hFalse hShows]
        rfl
      · have hDone :=
          @verifyCode_of_bad _ config _ hGood
        simp only [hDone, bind_eq, done_bind, obeys_pure,
          returns_ok]
        intro _ hShows
        rcases hShows _ List.mem_cons_self with
          ⟨shown, hShown, hStored⟩
        obtain rfl := Option.some.inj hShown
        exact absurd hStored hGood

/- Any program keeps a contract that asks for nothing. -/
private theorem obeys_freely
    {α : Type}
    (program : Flow α)
    (past : List Act) :
    Obeys ⟨fun _ _ => True, answers⟩ past program
      (fun _ _ => True) := by
  induction program generalizing past with
  | done value => trivial
  | raise error => trivial
  | perform op next ih =>
      exact ⟨trivial, fun ret _ => ih ret _⟩

/- What a reader sees while the code is stored for it. -/
theorem showsCode_of_holding
    {op : Op}
    {past : List Act}
    (hHolding : Holding id code state)
    (hRule : (consulting id).rule past op) :
    ShowsCode code ⟨op, (World.exec op state).1⟩ := by
  rcases hHolding with ⟨row, hRow, hEnrolled, hCode⟩
  cases op with
  | select selector =>
      obtain rfl : selector = .byId id := hRule
      exact ⟨row, hRow, hEnrolled, hCode⟩
  | refresh target =>
      obtain rfl : target = id := hRule
      exact ⟨row, hRow, hEnrolled, hCode⟩
  | _ => trivial

/- A call that is refused has lost every race it may. -/
theorem refused_after_races
    {mfa : MfaConfig}
    {pool : ι → Flow Bool}
    {config : Config ι interface World HttpError Bool}
    {reader : ι}
    (hPool : pool reader = mfa.verifying id code)
    (hReaches :
      Reaches machine (StoredFor reader id code)
        ⟨start, [], pool⟩ config)
    (hDone : config.pool reader = .done false) :
    lostRaces (own reader config.history) =
      MfaConfig.recoveryCodeClaimAttempts := by
  let contract : ι → Contract interface := fun thread =>
    if thread = reader then
      consulting id
    else
      ⟨fun _ _ => True, answers⟩
  let post :
      ι → List Act → Except HttpError Bool → Prop :=
    fun thread past result =>
      thread = reader →
        result = .ok false →
        (∀ action ∈ past, ShowsCode code action) →
        lostRaces past =
          MfaConfig.recoveryCodeClaimAttempts
  have hReader : contract reader = consulting id :=
    if_pos rfl
  have hObeys (thread : ι) :
      Obeys (contract thread) [] (pool thread)
        (post thread) := by
    by_cases hThread : thread = reader
    · subst hThread
      rw [hReader, hPool]
      apply Obeys.mono (verifying_loses mfa)
      intro past result _ hPost _ hResult hShows
      exact hPost false hResult rfl hShows
    · have hFree : contract thread =
          ⟨fun _ _ => True, answers⟩ :=
        if_neg hThread
      rw [hFree]
      apply Obeys.mono (obeys_freely (pool thread) [])
      intro past result _ _ hSame
      exact absurd hSame hThread
  have hAnswer (thread : ι) (op : Op) (state : World) :
      (contract thread).answer op
        (machine.exec op state).1 := by
    by_cases hThread : thread = reader
    · rw [hThread, hReader]
      exact answers_exec op state
    · simp only [contract, if_neg hThread]
      exact answers_exec op state
  have hEnd := Reaches.obeys hObeys hAnswer hReaches reader
  rw [hDone] at hEnd
  apply hEnd rfl rfl
  have hTrace := Reaches.trace hObeys hAnswer hReaches
  apply Trace.invariant
    (fun _ history =>
      ∀ action ∈ own reader history, ShowsCode code action)
    hTrace
  · simp
  · intro state history thread op _ hRule hStored hShows
      action hAction
    by_cases hThread : thread = reader
    · subst hThread
      have hOwn :
          own thread
              (⟨thread, op, (machine.exec op state).1⟩ ::
                history) =
            ⟨op, (machine.exec op state).1⟩ ::
              own thread history :=
        own_cons_self _ _
      rw [hOwn] at hAction
      rcases List.mem_cons.mp hAction with rfl | hOld
      · rw [hReader] at hRule
        exact showsCode_of_holding (hStored rfl) hRule
      · exact hShows action hOld
    · rw [own_cons_of_ne hThread] at hAction
      exact hShows action hAction
  · intro state history tick hShows
    exact hShows

------------------------------------------------------------
-- Once Each
------------------------------------------------------------

/- The codes of every account are spent once each. -/
theorem codesOnce_of_seasoned
    (runtime : Runtime)
    (requests : ι → Request)
    (condition : Condition ι interface World)
    (hStart : start.Seasoned) :
    CodesOnce runtime requests condition start := by
  constructor
  · intro config later between earlier first second id code
      hReachable hHistory hFirst hSecond
    have hRuns := Runtime.runs_of_reachable hReachable
    rw [hHistory] at hRuns
    rcases hRuns.at_event with
      ⟨before, hBefore, -, -, hRet, -⟩
    have hGone := gone_of_spent hStart hBefore hFirst
    rcases hSecond with ⟨stored, hMem, hAction⟩
    rcases second with ⟨thread, op, ret⟩
    obtain rfl : ret = (World.exec op before).1 := hRet
    rcases stored_of_spent hAction hMem with
      ⟨row, hRow, hCode, -⟩
    rcases hGone.absent with ⟨row', hRow', hAbsent⟩
    obtain rfl : row = row' :=
      Option.some.inj (hRow.symm.trans hRow')
    exact hAbsent hCode
  · intro config thread id stored data hReachable hNext
      hSpent
    have hRule := Runtime.rule_of_next hReachable hNext
    rcases hRule with ⟨-, -, hSwap⟩
    cases hSwap with
    | @spend _ code hSubmitted hMem =>
        rcases row?_of_spent hSpent with
          ⟨row, hRow, hStored, hAfter⟩
        refine ⟨row, code, hSubmitted, hRow, ?_, hAfter⟩
        rw [User.codes, hStored]
        exact hMem
  · intro config config' config'' id code row row' later
      hReachable hMiddle hEnd hRow hCode hRow' hAbsent
      hHistory
    have hRuns := Runtime.runs_of_reachable hReachable
    have hRetired :=
      retired_of_row hStart hRuns id row hRow code hCode
    have hRuns' :=
      Runtime.runs_of_reaches hReachable hMiddle
    have hGone :
        Gone id code config'.state config'.history :=
      ⟨retired_along hRuns' hRetired, row', hRow', hAbsent⟩
    have hRuns'' :=
      Runtime.runs_of_reaches (hReachable.trans hMiddle) hEnd
    intro event hEvent
    exact not_spent_of_gone hRuns'' hGone hHistory hEvent
  · intro config later earlier event code hReachable hHistory
      hCode hCompletes
    have hRuns := Runtime.runs_of_reachable hReachable
    rw [hHistory] at hRuns
    rcases hRuns.at_event with ⟨before, -, hRule, -⟩
    rcases accepted_of_completes hRule hCode hCompletes with
      ⟨id, hEntitled, submitted, hSame, hAccepted⟩
    obtain rfl : Code.recovery code = submitted :=
      Option.some.inj (hCode.symm.trans hSame)
    rcases hAccepted with ⟨stored, hMem, hSpent⟩
    exact ⟨id, hEntitled, _, mem_own_iff.mp hSpent, rfl,
      stored, hMem, rfl⟩
  · intro mfa pool config reader id code hPool hReaches
      hDone
    exact refused_after_races hPool hReaches hDone

------------------------------------------------------------
-- One Code Twice
------------------------------------------------------------

/- A member with two recovery codes, signed in. -/
def codesStart : World :=
  Scenario.signedIn
    { Scenario.enrolled with
      mfaRecoveryCodes := some [⟨60, 0⟩, ⟨60, 1⟩] }

/- Everybody asks for new codes with the first one. -/
def sameCode : Nat → Request := fun _ =>
  .regenerate (.session 7) (.recovery ⟨60, 0⟩)

/- The first to come spends it, and nobody else can. -/
theorem first_code_spent :
    (∃ event ∈
      (Scenario.mfaRuntime.scheduled sameCode anyStep
        codesStart (Scenario.steps 0 6)
        (by decide)).history,
      SpentBy 1 ⟨60, 0⟩ event) ∧
    CodesOnce Scenario.mfaRuntime sameCode anyStep
      codesStart :=
  ⟨⟨_, List.mem_of_getElem? (i := 0) rfl,
      some [⟨60, 0⟩, ⟨60, 1⟩], by decide, rfl⟩,
    codesOnce_of_seasoned Scenario.mfaRuntime sameCode
      anyStep
      (Scenario.seasoned rfl (by decide) (by decide))⟩

end CrudAuth
