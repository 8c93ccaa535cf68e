import CrudAuth.Email.TokenStore

/-
  A redemption writes to the account only after its token
  was marked used.

  Main declarations:
    * `writesAccount`
    * `marksFirst`
    * `handle_obeys`
    * `redeem_obeys`
-/

namespace CrudAuth

namespace TokenStore

open Concurrency
open Concurrency.Program
open Storage

------------------------------------------------------------
-- The Accounts' Side
------------------------------------------------------------

/- The operations that change an account. -/
def writesAccount : Op → Bool
  | .insert _ => true
  | .commit _ _ => true
  | .incrementVersion _ => true
  | .claimStep _ _ => true
  | .updateIf _ _ _ => true
  | _ => false

variable (flows : EmailFlows)
variable (redemption : Redemption)

/- A token of this flow was marked by this redemption. -/
def Marked (past : List Act) : Prop :=
  redemption.token.state.purpose = redemption.purpose ∧
  (⟨.consumeToken redemption.token
    (flows.ttl redemption.purpose), true⟩ : Act) ∈ past

/- No account is written before the marker is set. -/
def marksFirst : Contract interface where
  rule past op :=
    writesAccount op = true → Marked flows redemption past
  answer _ _ := True

variable {flows : EmailFlows}
variable {redemption : Redemption}
variable {runtime : Runtime}
variable {past : List Act}

/- Once the marker is set, anything goes. -/
theorem obeys_of_marked
    {α : Type}
    {program : Flow α}
    (hMarked : Marked flows redemption past) :
    Obeys (marksFirst flows redemption) past program
      (Returns fun _ _ => True) := by
  have hFree :
      Obeys (marksFirst flows redemption) past program
        fun _ _ => True := by
    apply obeys_of_free
    intro past' op hSuffix _
    exact ⟨hMarked.1, hSuffix.subset hMarked.2⟩
  refine hFree.mono ?_
  intro _ _ _ _ _ _
  trivial

/- Operations that write no account need no marker. -/
theorem rule_of_reads
    {op : Op}
    (hReads : writesAccount op = false) :
    (marksFirst flows redemption).rule past op := by
  intro hWrites
  rw [hReads] at hWrites
  cases hWrites

/- A token is marked before it counts. -/
theorem redeemToken_obeys
    {token : SignedToken}
    {purpose : Purpose} :
    Obeys (marksFirst flows redemption) past
      (runtime.redeemToken token purpose)
      (Returns fun _ _ =>
        token.state.purpose = purpose) := by
  refine obeys_step (rule_of_reads rfl) fun now _ => ?_
  split
  · simp
  · rename_i hValid
    rw [not_or, not_not] at hValid
    refine obeys_step (rule_of_reads rfl) fun found _ => ?_
    cases found with
    | none => simp
    | some user =>
        dsimp only
        split
        · simp
        · rw [obeys_pure, returns_ok]
          exact hValid.2

/- `_consume` says `True` only when it has set the marker. -/
theorem consume_obeys
    (hStore : flows.tokenStore = true)
    (hPurpose :
      redemption.token.state.purpose =
        redemption.purpose) :
    Obeys (marksFirst flows redemption) past
      (Runtime.consume flows redemption.token
        (flows.ttl redemption.purpose))
      (Returns fun past' first =>
        first = true → Marked flows redemption past') := by
  unfold Runtime.consume
  rw [if_pos hStore]
  refine obeys_call (rule_of_reads rfl) ?_
  intro first _
  rw [returns_ok]
  rintro rfl
  exact ⟨hPurpose, List.mem_cons_self⟩

/- The address is verified after the mark only. -/
theorem confirmRecoveryVerification_obeys
    {token : SignedToken}
    (hStore : flows.tokenStore = true) :
    Obeys (marksFirst flows (.verification token)) past
      (runtime.confirmRecoveryVerification flows token)
      (Returns fun _ _ => True) := by
  refine Obeys.andThen redeemToken_obeys ?_
  intro past₁ user _ hPurpose
  refine Obeys.andThen (consume_obeys hStore hPurpose) ?_
  intro past₂ first _ hMarked
  cases first with
  | true => exact obeys_of_marked (hMarked rfl)
  | false => simp

theorem resetPassword_obeys
    {token : SignedToken}
    {newPassword : String}
    (hStore : flows.tokenStore = true) :
    Obeys (marksFirst flows (.reset token newPassword)) past
      (runtime.resetPassword flows token newPassword)
      (Returns fun _ _ => True) := by
  refine Obeys.andThen redeemToken_obeys ?_
  intro past₁ user _ hPurpose
  split
  · simp
  · refine Obeys.andThen (@consume_obeys flows
      (.reset token newPassword) _ hStore hPurpose) ?_
    intro past₂ first _ hMarked
    cases first with
    | true => exact obeys_of_marked (hMarked rfl)
    | false => simp

theorem getByField_obeys
    {field : Field}
    {value : String} :
    Obeys (marksFirst flows redemption) past
      (runtime.getByField field value)
      (Returns fun _ _ => True) := by
  unfold Runtime.getByField
  split
  · refine obeys_call (rule_of_reads rfl) ?_
    intro found _
    simp
  · refine obeys_call (rule_of_reads rfl) ?_
    intro found _
    simp

theorem confirmEmailChange_obeys
    {token : SignedToken}
    (hStore : flows.tokenStore = true) :
    Obeys (marksFirst flows (.emailChange token)) past
      (runtime.confirmEmailChange flows token)
      (Returns fun _ _ => True) := by
  refine Obeys.andThen redeemToken_obeys ?_
  intro past₁ user _ hPurpose
  split
  · simp
  · simp
  · refine Obeys.andThen getByField_obeys ?_
    intro past₂ found _ _
    cases found with
    | some other => simp
    | none =>
        refine Obeys.andThen (@consume_obeys flows
          (.emailChange token) _ hStore hPurpose) ?_
        intro past₃ first _ hMarked
        cases first with
        | true => exact obeys_of_marked (hMarked rfl)
        | false => simp

/- The route of a redemption, with recovery configured. -/
theorem serve_obeys
    (hFlows : runtime.emails = some flows)
    (hStore : flows.tokenStore = true) :
    Obeys (marksFirst flows redemption) past
      (runtime.serve redemption.request)
      (Returns fun _ _ => True) := by
  cases redemption with
  | verification token =>
      simp only [Redemption.request, Runtime.serve,
        Runtime.withEmails, hFlows]
      refine Obeys.andThen
        (confirmRecoveryVerification_obeys hStore) ?_
      intro _ _ _ _
      simp
  | reset token newPassword =>
      simp only [Redemption.request, Runtime.serve,
        Runtime.withEmails, hFlows]
      refine Obeys.andThen (resetPassword_obeys hStore) ?_
      intro _ _ _ _
      simp
  | emailChange token =>
      simp only [Redemption.request, Runtime.serve,
        Runtime.withEmails, hFlows]
      refine Obeys.andThen
        (confirmEmailChange_obeys hStore) ?_
      intro _ _ _ _
      simp

/- Every redemption comes after its mark. -/
theorem handle_obeys
    (hFlows : runtime.emails = some flows)
    (hStore : flows.tokenStore = true) :
    Obeys (marksFirst flows redemption) past
      (runtime.handle redemption.request)
      (fun _ _ => True) := by
  refine obeys_step (rule_of_reads rfl) fun _ _ => ?_
  have hServed :
      Obeys (marksFirst flows redemption)
        (⟨.arrive redemption.request, ()⟩ :: past)
        (runtime.serve redemption.request).attempt
        (fun _ _ => True) := by
    refine (serve_obeys hFlows hStore).attempt ?_
    intro _ _ _ _
    trivial
  refine hServed.bind ?_ ?_
  · intro _ result _ _
    cases result with
    | ok response =>
        exact obeys_call (rule_of_reads rfl)
          fun _ _ => trivial
    | error error =>
        exact obeys_call (rule_of_reads rfl)
          fun _ _ => trivial
  · intro _ _ _ _
    trivial

------------------------------------------------------------
-- Over The Store
------------------------------------------------------------

/- What an action over the store amounts to. -/
def worldly : Action tokenClient → Option Act
  | ⟨.app (.consumeToken _ _), _⟩ => none
  | ⟨.app op, ret⟩ => some ⟨op, ret⟩
  | ⟨.call (.setIfAbsent token _ (some ttl)), ret⟩ =>
      some ⟨.consumeToken token ttl, ret⟩
  | _ => none

/- The world sees the marking of a token. -/
theorem worldly_eq_consume
    {action : Action tokenClient}
    {token : SignedToken}
    {ttl : Nat}
    {ret : Bool}
    (hWorldly :
      worldly action = some ⟨.consumeToken token ttl, ret⟩) :
    ∃ data,
      action =
        ⟨.call (.setIfAbsent token data (some ttl)),
          ret⟩ := by
  rcases action with ⟨op, ret'⟩
  cases op with
  | now => cases hWorldly
  | app op =>
      cases op with
      | consumeToken token' ttl' => cases hWorldly
      | _ => cases Option.some.inj hWorldly
  | call call =>
      cases call with
      | setIfAbsent key data expiration =>
          cases expiration with
          | none => cases hWorldly
          | some ttl' =>
              cases Option.some.inj hWorldly
              exact ⟨data, rfl⟩
      | _ => cases hWorldly

/- The same contract, over the store. -/
def marksFirstOver
    (flows : EmailFlows)
    (redemption : Redemption) : Contract tokenClient where
  rule past
    | .app op =>
        (marksFirst flows redemption).rule
          (past.filterMap worldly) op
    | .call call =>
        ∃ token ttl, call = .setIfAbsent token {} (some ttl)
    | .now => False
  answer _ _ := True

/- One operation of a redemption, over the store. -/
theorem throughStore_obeys
    {seen : List (Action tokenClient)}
    {op : Op}
    (hRule :
      (marksFirst flows redemption).rule
        (seen.filterMap worldly) op) :
    Obeys (marksFirstOver flows redemption) seen
      (throughStore op)
      (Returns fun seen' ret =>
        (marksFirst flows redemption).answer op ret ∧
        seen'.filterMap worldly =
          ⟨op, ret⟩ :: seen.filterMap worldly) := by
  cases op with
  | consumeToken token ttl =>
      refine ⟨⟨token, ttl, rfl⟩, fun ret _ => ?_⟩
      rw [obeys_done, returns_ok]
      exact ⟨trivial, rfl⟩
  | _ =>
      refine ⟨hRule, fun ret _ => ?_⟩
      rw [obeys_done, returns_ok]
      exact ⟨trivial, rfl⟩

/- What a redemption owes over a backend. -/
abbrev redeems
    (choice : BackendChoice)
    (flows : EmailFlows)
    (redemption : Redemption) :
    Contract (tokenLayer choice) :=
  (disciplineOf choice).contract
    (marksFirstOver flows redemption)

/- A redemption over one of the backends. -/
theorem redeem_obeys
    (choice : BackendChoice)
    (hFlows : runtime.emails = some flows)
    (hStore : flows.tokenStore = true) :
    Obeys (redeems choice flows redemption) []
      (redemption.redeem choice runtime)
      (fun _ _ => True) := by
  have hHandled :
      Obeys (marksFirst flows redemption) []
        (runtime.handle redemption.request)
        (fun _ _ => True) :=
    handle_obeys hFlows hStore
  let shows (seen : List (Action tokenClient))
      (past : List Act) : Prop :=
    seen.filterMap worldly = past
  have hShows : shows [] [] := rfl
  have hOver :
      Obeys (marksFirstOver flows redemption) []
        ((runtime.handle redemption.request).translate
          throughStore) (fun _ _ => True) := by
    refine hHandled.translate hShows ?_
    rintro seen _ op rfl hRule
    exact throughStore_obeys hRule
  exact Layered.lower_obeys (implement_obeys choice)
    (fun _ _ _ _ => trivial) (fun _ => rfl) hOver

end TokenStore

end CrudAuth
