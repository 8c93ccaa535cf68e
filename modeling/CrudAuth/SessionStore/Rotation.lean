import CrudAuth.Concurrency.Handover
import CrudAuth.SessionStore.Discipline

/-
  Concurrent rotations of the CSRF token of one session: a
  rotation hands its new token over for the one that the
  session names, and deletes that one.

  Main declarations:
    * `held`
    * `rotation`
    * `Unexpired`
    * `Shows`
    * `one_token_of_rotations`
-/

------------------------------------------------------------
-- What A Call Is Responsible For
------------------------------------------------------------

namespace CrudAuth

namespace SessionStore

open Concurrency
open Concurrency.Program

section Obligations

variable (manager : Manager)
variable (sessionId : Nat)

/- The calls that race: rotations and validations. -/
def Request.Races : Request → Prop
  | .regenerateCsrfToken other _ => other = sessionId
  | .validateSession other _ => other = sessionId
  | _ => False

/-
  The token a call has to bring in or to delete: the one it
  has drawn, and after its swap the one it has replaced.
-/
def held : Past → Option Nat
  | [] => none
  | ⟨.fresh, token⟩ :: _ => some (manager.csrfKey token)
  | ⟨.sessionModify _ _ _, some (runs, _)⟩ :: past =>
      (held past).bind fun _ => Manager.replaced runs
  | ⟨.csrfDelete _, _⟩ :: _ => none
  | _ :: past => held past

/- The operation ends a session. -/
def terminates : StoreOp → Bool
  | .sessionDelete _ => true
  | _ => false

/- An action that terminates a session. -/
def deletes (action : Action storeOps) : Bool :=
  terminates action.op

/- The change leaves the named token alone. -/
def KeepsToken (change : SessionData → SessionData) : Prop :=
  ∀ session,
    (change session).csrfTokenId = session.csrfTokenId

/- What a `modify` has changed a live session by. -/
def changed? :
    Action storeOps → Option (SessionData → SessionData)
  | ⟨.sessionModify _ change _, some _⟩ => some change
  | _ => none

/- The session has named the token by a swap. -/
def Swaps
    (token : Nat)
    (action : Action storeOps) : Prop :=
  changed? action =
    some (Manager.rotate (manager.csrfKey token))

/- A swap brings in the token that was drawn and stored. -/
def MaySwap
    (past : Past)
    (change : SessionData → SessionData) : Prop :=
  (held manager past = none ∧ KeepsToken change) ∨
  ∃ token data ttl,
    held manager past = some (manager.csrfKey token) ∧
    (⟨.csrfCreate (manager.csrfKey token) data ttl, ()⟩ :
      Action storeOps) ∈ past ∧
    change = Manager.rotate (manager.csrfKey token)

/- What a racing call may do. -/
def rotation : Contract storeOps where
  rule := fun past op =>
    match op with
    | .fresh =>
        held manager past = none ∧
          ∀ token data ttl,
            (⟨.csrfCreate token data ttl, ()⟩ :
              Action storeOps) ∉ past
    | .csrfCreate token data _ =>
        held manager past = some token ∧
          data.sessionId = manager.key sessionId
    | .sessionModify key change _ =>
        key = manager.key sessionId ∧
          MaySwap manager past change
    | .csrfDelete token =>
        held manager past = some token ∨
          past.any deletes = true
    | .sessionCreate _ _ _ => False
    | _ => True
  answer := fun _ _ => True

/- A call returns the token it has brought in, if any. -/
def Rotated
    (past : Past)
    (outcome : Outcome) : Prop :=
  held manager past = none ∧
  (∀ token,
    (∃ action ∈ past, Swaps manager token action) →
      outcome = .rotated (some token)) ∧
  ∀ token,
    outcome = .rotated (some token) →
      ∃ action ∈ past, Swaps manager token action

end Obligations

------------------------------------------------------------
-- Racing Calls Obey
------------------------------------------------------------

section Racing

variable {manager : Manager}
variable {sessionId : Nat}

/- Two rotations agree for one token only. -/
theorem rotate_inj
    {token token' : Nat}
    (hSame : Manager.rotate token = Manager.rotate token') :
    token = token' := by
  let session : SessionData :=
    ⟨0, 0, 0, false, none, none, none⟩
  have hNamed :
      (Manager.rotate token session).csrfTokenId =
        (Manager.rotate token' session).csrfTokenId := by
    rw [hSame]
  exact Option.some.inj hNamed

/- A change that keeps the token is no swap. -/
theorem KeepsToken.ne_rotate
    {change : SessionData → SessionData}
    (hKeeps : KeepsToken change)
    (token : Nat) :
    change ≠ Manager.rotate token := by
  intro hSame
  have hNamed :=
    hKeeps ⟨0, 0, 0, false, none, none, none⟩
  rw [hSame] at hNamed
  cases hNamed

/- A touch keeps the token. -/
theorem keepsToken_touch (now : Nat) :
    KeepsToken (Manager.touch now) :=
  fun _ => rfl

/- A call without a swap returns no token. -/
theorem rotated_of_none
    {past : Past}
    {outcome : Outcome}
    (hHeld : held manager past = none)
    (hOutcome : ∀ token, outcome ≠ .rotated (some token))
    (hNone : ∀ token, ∀ action ∈ past,
      ¬ Swaps manager token action) :
    Rotated manager past outcome := by
  refine ⟨hHeld, ?_, ?_⟩
  · rintro token ⟨action, hAction, hSwaps⟩
    exact absurd hSwaps (hNone token action hAction)
  · intro token hToken
    exact absurd hToken (hOutcome token)

/- A swap and the end of the token it has replaced. -/
theorem swapToken_obeys
    {key ttl token : Nat}
    {past : Past}
    {data : CSRFToken}
    {lifetime : Nat}
    (hTokens : Function.Injective manager.csrfKey)
    (hKey : key = manager.key sessionId)
    (hHeld :
      held manager past = some (manager.csrfKey token))
    (hCreated :
      (⟨.csrfCreate (manager.csrfKey token) data lifetime,
        ()⟩ : Action storeOps) ∈ past)
    (hNone : ∀ other, ∀ action ∈ past,
      ¬ Swaps manager other action) :
    Obeys (rotation manager sessionId) past
      (manager.swapToken key ttl token)
      (Returns fun past' returned =>
        Rotated manager past' (.rotated returned)) := by
  refine ⟨⟨hKey, Or.inr ⟨token, data, lifetime, hHeld,
    hCreated, rfl⟩⟩, fun swapped _ => ?_⟩
  cases swapped with
  | none =>
      refine ⟨Or.inl hHeld, fun deleted _ => ?_⟩
      change Returns _ _ (Except.ok none)
      rw [returns_ok]
      apply rotated_of_none
      · rfl
      · intro other hSame
        cases hSame
      · intro other action hAction
        rcases List.mem_cons.mp hAction with rfl | hAction
        · intro hSwaps
          cases hSwaps
        rcases List.mem_cons.mp hAction with rfl | hAction
        · intro hSwaps
          cases hSwaps
        · exact hNone other action hAction
  | some swapped =>
      rcases swapped with ⟨runs, session⟩
      let swap : Action storeOps :=
        ⟨.sessionModify key
          (Manager.rotate (manager.csrfKey token))
          (some ttl),
          some (runs, session)⟩
      have hReplaced :
          held manager (swap :: past) =
            Manager.replaced runs := by
        change (held manager past).bind _ = _
        rw [hHeld]
        rfl
      -- The swap is the only one of the call.
      have hOnly
          (other : Nat)
          (hSwaps : ∃ action ∈ swap :: past,
            Swaps manager other action) :
          Outcome.rotated (some token) =
            .rotated (some other) := by
        rcases hSwaps with ⟨action, hAction, hSwaps⟩
        rcases List.mem_cons.mp hAction with rfl | hAction
        · have hSame := rotate_inj (Option.some.inj hSwaps)
          rw [hTokens hSame]
        · exact absurd hSwaps (hNone other action hAction)
      simp only [done_bind]
      split
      · rename_i hOld
        change Returns _ _ (Except.ok (some token))
        rw [returns_ok]
        refine ⟨hReplaced.trans hOld, hOnly, ?_⟩
        rintro other ⟨rfl⟩
        exact ⟨swap, List.mem_cons_self, rfl⟩
      · rename_i old hOld
        refine ⟨Or.inl (hReplaced.trans hOld),
          fun deleted _ => ?_⟩
        change Returns _ _ (Except.ok (some token))
        rw [returns_ok]
        refine ⟨rfl, ?_, ?_⟩
        · rintro other ⟨action, hAction, hSwaps⟩
          rcases List.mem_cons.mp hAction with rfl | hAction
          · cases hSwaps
          · exact hOnly other ⟨action, hAction, hSwaps⟩
        · rintro other ⟨rfl⟩
          exact ⟨swap, by simp [swap], rfl⟩

/- A rotation hands over what it has drawn. -/
theorem regenerateCsrfToken_rotates
    (hTokens : Function.Injective manager.csrfKey)
    (expirationSeconds : Option Nat) :
    Obeys (rotation manager sessionId) []
      (manager.regenerateCsrfToken sessionId
        expirationSeconds)
      (Returns fun past returned =>
        Rotated manager past (.rotated returned)) := by
  have hNothing
      (past : Past)
      (hHeld : held manager past = none)
      (hNone : ∀ other, ∀ action ∈ past,
        ¬ Swaps manager other action) :
      Rotated manager past (.rotated none) := by
    apply rotated_of_none hHeld
    · intro other hSame
      cases hSame
    · exact hNone
  unfold Manager.regenerateCsrfToken
  split
  · rename_i hStorage
    refine ⟨trivial, fun found _ => ?_⟩
    cases found with
    | none =>
        change Returns _ _ (Except.ok none)
        rw [returns_ok]
        apply hNothing
        · rfl
        · simp [Swaps, changed?]
    | some session =>
        change Obeys _ _ (manager.rotateToken _ _) _
        unfold Manager.rotateToken Manager.generateCsrfToken
        rw [if_pos hStorage]
        refine ⟨⟨rfl, by simp⟩, fun token _ => ⟨trivial,
          fun now _ => ⟨⟨rfl, rfl⟩, fun _ _ => ?_⟩⟩⟩
        apply swapToken_obeys hTokens rfl
        · rfl
        · exact List.mem_cons_self
        · simp [Swaps, changed?]
  · change Returns _ _ (Except.ok none)
    rw [returns_ok]
    apply hNothing
    · rfl
    · simp

/- A validation brings in no token. -/
theorem acceptSession_rotates
    {session : SessionData}
    {now : Nat}
    {updateActivity : Bool} :
    Obeys (rotation manager sessionId)
      [⟨.now, now⟩,
        ⟨.sessionGet (manager.key sessionId), some session⟩]
      (manager.acceptSession (manager.key sessionId)
        updateActivity session now)
      (Returns fun past returned =>
        Rotated manager past (.validated returned)) := by
  have hNothing
      (past : Past)
      (returned : Option SessionData)
      (hHeld : held manager past = none)
      (hNone : ∀ action ∈ past, ∀ change,
        changed? action = some change → KeepsToken change) :
      Rotated manager past (.validated returned) := by
    apply rotated_of_none hHeld
    · intro other hSame
      cases hSame
    · intro other action hAction hSwaps
      exact (hNone action hAction _ hSwaps).ne_rotate _ rfl
  unfold Manager.acceptSession
  split
  · unfold Manager.terminate
    refine ⟨trivial, fun deleted _ => ?_⟩
    simp only [done_bind]
    split
    · refine ⟨Or.inr rfl, fun _ _ => ?_⟩
      change Returns _ _ (Except.ok none)
      rw [returns_ok]
      apply hNothing
      · rfl
      · simp [changed?]
    · change Returns _ _ (Except.ok none)
      rw [returns_ok]
      apply hNothing
      · rfl
      · simp [changed?]
  · split
    · refine ⟨⟨rfl, Or.inl ⟨rfl, keepsToken_touch now⟩⟩,
        fun touched _ => ?_⟩
      cases touched with
      | none =>
          change Returns _ _ (Except.ok none)
          rw [returns_ok]
          apply hNothing
          · rfl
          · simp [changed?]
      | some touched =>
          simp only [done_bind]
          split
          · refine ⟨trivial, fun extended _ => ?_⟩
            change Returns _ _ (Except.ok (some touched.2))
            rw [returns_ok]
            apply hNothing
            · rfl
            · simp [changed?, keepsToken_touch]
          · change Returns _ _ (Except.ok (some touched.2))
            rw [returns_ok]
            apply hNothing
            · rfl
            · simp [changed?, keepsToken_touch]
    · change Returns _ _ (Except.ok (some session))
      rw [returns_ok]
      apply hNothing
      · rfl
      · simp [changed?]

/- A racing call obeys, and says what it has brought in. -/
theorem Request.Races.obeys
    {request : Request}
    (hTokens : Function.Injective manager.csrfKey)
    (hRaces : request.Races sessionId) :
    Obeys (rotation manager sessionId) []
      (request.perform manager)
      (Returns (Rotated manager)) := by
  cases request with
  | regenerateCsrfToken other expirationSeconds =>
      obtain rfl : other = sessionId := hRaces
      apply (regenerateCsrfToken_rotates hTokens
        expirationSeconds).andThen
      intro past returned _ hRotated
      rw [obeys_done, returns_ok]
      exact hRotated
  | validateSession other updateActivity =>
      obtain rfl : other = sessionId := hRaces
      refine ⟨trivial, fun found _ => ?_⟩
      cases found with
      | none =>
          change Returns _ _
            (Except.ok (Outcome.validated none))
          rw [returns_ok]
          apply rotated_of_none
          · rfl
          · intro token hSame
            cases hSame
          · simp [Swaps, changed?]
      | some session =>
          refine ⟨trivial, fun now _ => ?_⟩
          apply acceptSession_rotates.andThen
          intro past returned _ hRotated
          rw [obeys_done, returns_ok]
          exact hRotated
  | _ => cases hRaces

end Racing

------------------------------------------------------------
-- The Handover Of The Tokens
------------------------------------------------------------

section Handing

variable {ι : Type} [DecidableEq ι]
variable {manager : Manager} {expiry : Expiry}
variable {stores' after : Stores}
variable {key original : Nat}
variable {handover : Handover ι Nat}
variable {history : List (Event ι storeOps)}

/- The stored session names the token. -/
def Names
    (key : Nat)
    (stores' : Stores)
    (token : Nat) : Prop :=
  ∃ record,
    stores'.sessions.lookup key = some record ∧
      record.value.csrfTokenId = some token

/- A token of the session is stored under this key. -/
def Bound
    (key : Nat)
    (stores' : Stores)
    (token : Nat) : Prop :=
  ∃ record,
    stores'.tokens.lookup token = some record ∧
      record.value.sessionId = key

/- The stores show who is responsible for which token. -/
structure Shows
    (manager : Manager)
    (key original : Nat)
    (handover : Handover ι Nat)
    (stores' : Stores)
    (history : List (Event ι storeOps)) : Prop where
  names : Names key stores' handover.named
  bound : ∀ token,
    token ∈ handover.stored ↔ Bound key stores' token
  holds : ∀ thread,
    handover.holds thread =
      held manager (own thread history)
  created : ∀ thread token data ttl,
    handover.holds thread = some token →
    (⟨.csrfCreate token data ttl, ()⟩ : Action storeOps) ∈
      own thread history →
    token ∈ handover.stored
  unspent : ∀ token,
    stores'.nextId ≤ token →
    manager.csrfKey token ≠ handover.named ∧
      ∀ thread,
        handover.holds thread ≠
          some (manager.csrfKey token)
  kept : ∀ event ∈ history, deletes event.action = false
  origin :
    (handover.named = manager.csrfKey original ∧
      ∀ token, ∀ event ∈ history,
        ¬ Swaps manager token event.action) ∨
    ∃ token,
      handover.named = manager.csrfKey token ∧
      ∃ event ∈ history, Swaps manager token event.action

/- A newer action can only change what its thread holds. -/
theorem held_cons
    (active thread : ι)
    (op : StoreOp)
    (ret : op.Ret) :
    held manager
        (own thread (⟨active, op, ret⟩ :: history)) =
      Function.update
        (fun thread => held manager (own thread history))
        active
        (held manager (⟨op, ret⟩ :: own active history))
        thread := by
  by_cases hThread : thread = active
  · subst hThread
    rw [Function.update_self]
    exact congrArg (held manager)
      (own_cons_self ⟨thread, op, ret⟩ history)
  · rw [Function.update_of_ne hThread]
    exact congrArg (held manager)
      (own_cons_of_ne (Ne.symm hThread) history)

/- An older action than the newest one, unless it is that. -/
theorem own_of_cons
    {active thread : ι}
    {op : StoreOp}
    {ret : op.Ret}
    {action : Action storeOps}
    (hAction :
      action ∈ own thread (⟨active, op, ret⟩ :: history)) :
    (thread = active ∧ action = ⟨op, ret⟩) ∨
      action ∈ own thread history := by
  by_cases hThread : thread = active
  · subst hThread
    have hOwn := own_cons_self ⟨thread, op, ret⟩ history
    rw [hOwn] at hAction
    rcases List.mem_cons.mp hAction with hSame | hOlder
    · exact Or.inl ⟨rfl, hSame⟩
    · exact Or.inr hOlder
  · right
    have hOwn :
        own thread
            ((⟨active, op, ret⟩ : Event ι storeOps) ::
              history) =
          own thread history :=
      own_cons_of_ne (Ne.symm hThread) history
    rw [hOwn] at hAction
    exact hAction

/- What the history of a run says, of one more action. -/
theorem Shows.kept_cons
    {active : ι}
    {op : StoreOp}
    {ret : op.Ret}
    (hShows :
      Shows manager key original handover stores' history)
    (hKept : deletes ⟨op, ret⟩ = false) :
    ∀ event ∈ (⟨active, op, ret⟩ :: history :
        List (Event ι storeOps)),
      deletes event.action = false := by
  intro event hEvent
  rcases List.mem_cons.mp hEvent with rfl | hOlder
  · exact hKept
  · exact hShows.kept event hOlder

/- A step that swaps nothing keeps the origin. -/
theorem Shows.origin_cons
    {active : ι}
    {op : StoreOp}
    {ret : op.Ret}
    (hShows :
      Shows manager key original handover stores' history)
    (hSwaps : ∀ token, ¬ Swaps manager token ⟨op, ret⟩) :
    (handover.named = manager.csrfKey original ∧
      ∀ token, ∀ event ∈ (⟨active, op, ret⟩ :: history :
          List (Event ι storeOps)),
        ¬ Swaps manager token event.action) ∨
    ∃ token,
      handover.named = manager.csrfKey token ∧
      ∃ event ∈ (⟨active, op, ret⟩ :: history :
          List (Event ι storeOps)),
        Swaps manager token event.action := by
  rcases hShows.origin with
    ⟨hNamed, hNone⟩ | ⟨token, hNamed, event, hEvent, hSwap⟩
  · refine Or.inl ⟨hNamed, ?_⟩
    intro token event hEvent
    rcases List.mem_cons.mp hEvent with rfl | hOlder
    · exact hSwaps token
    · exact hNone token event hOlder
  · exact Or.inr ⟨token, hNamed, event,
      List.mem_cons_of_mem _ hEvent, hSwap⟩

/- What is held after an action that gives a new token. -/
theorem Shows.holds_cons
    {active : ι}
    {op : StoreOp}
    {ret : op.Ret}
    {token : Option Nat}
    (hShows :
      Shows manager key original handover stores' history)
    (hHeld :
      held manager (⟨op, ret⟩ :: own active history) = token)
    (thread : ι) :
    Function.update handover.holds active token thread =
      held manager
        (own thread (⟨active, op, ret⟩ :: history)) := by
  rw [held_cons, hHeld]
  congr 1
  funext other
  exact hShows.holds other

/- An operation that hands nothing over. -/
theorem Shows.quiet
    {active : ι}
    {op : StoreOp}
    {ret : op.Ret}
    (hShows :
      Shows manager key original handover stores' history)
    (hHeld :
      held manager (⟨op, ret⟩ :: own active history) =
        held manager (own active history))
    (hOp : ∀ token data ttl, op ≠ .csrfCreate token data ttl)
    (hSwaps : ∀ token, ¬ Swaps manager token ⟨op, ret⟩)
    (hKept : deletes ⟨op, ret⟩ = false)
    (hNames : ∀ token,
      Names key stores' token → Names key after token)
    (hBound : ∀ token,
      Bound key stores' token ↔ Bound key after token)
    (hNext : after.nextId = stores'.nextId) :
    Shows manager key original handover after
      (⟨active, op, ret⟩ :: history) where
  names := hNames _ hShows.names
  bound token := (hShows.bound token).trans (hBound token)
  holds thread := by
    have hHolds := hShows.holds_cons hHeld thread
    rw [← hShows.holds active, Function.update_eq_self]
      at hHolds
    exact hHolds
  created thread token data ttl hHolds hCreated := by
    rcases own_of_cons hCreated with ⟨-, hSame⟩ | hOlder
    · exact absurd (congrArg Action.op hSame).symm
        (hOp token data ttl)
    · exact hShows.created thread token data ttl hHolds
        hOlder
  unspent token hToken :=
    hShows.unspent token (hNext ▸ hToken)
  kept := hShows.kept_cons hKept
  origin := hShows.origin_cons hSwaps

/- A new random token is drawn. -/
theorem Shows.draw
    {active : ι}
    (hShows :
      Shows manager key original handover stores' history)
    (hTokens : Function.Injective manager.csrfKey)
    (hFree : held manager (own active history) = none)
    (hFirst : ∀ token data ttl,
      (⟨.csrfCreate token data ttl, ()⟩ : Action storeOps) ∉
        own active history) :
    ∃ handover' : Handover ι Nat,
      Shows manager key original handover'
        { stores' with nextId := stores'.nextId + 1 }
        (⟨active, .fresh, stores'.nextId⟩ :: history) := by
  have hNew :=
    hShows.unspent stores'.nextId (Nat.le_refl _)
  refine ⟨handover.draw
    ((hShows.holds active).trans hFree) hNew.1 hNew.2, ?_⟩
  exact {
    names := hShows.names
    bound := hShows.bound
    holds := hShows.holds_cons rfl
    created := by
      intro thread token data ttl hHolds hCreated
      rcases own_of_cons hCreated with ⟨-, hSame⟩ | hOlder
      · cases congrArg Action.op hSame
      · by_cases hThread : thread = active
        · subst hThread
          exact absurd hOlder (hFirst token data ttl)
        · simp only [Handover.draw] at hHolds
          rw [Function.update_of_ne hThread] at hHolds
          exact hShows.created thread token data ttl hHolds
            hOlder
    unspent := by
      intro token hToken
      have hOld :=
        hShows.unspent token (Nat.le_of_succ_le hToken)
      refine ⟨hOld.1, fun thread => ?_⟩
      by_cases hThread : thread = active
      · subst hThread
        simp only [Handover.draw]
        rw [Function.update_self]
        intro hSame
        have hSame := hTokens (Option.some.inj hSame)
        simp only at hToken
        omega
      · simp only [Handover.draw]
        rw [Function.update_of_ne hThread]
        exact hOld.2 thread
    kept := hShows.kept_cons rfl
    origin := hShows.origin_cons fun token hSwap => by
      cases hSwap }

/- The token that is held is stored. -/
theorem Shows.store
    {active : ι}
    {token : Nat}
    {data : CSRFToken}
    {ttl : Nat}
    {lifetime : Nat}
    (hShows :
      Shows manager key original handover stores' history)
    (hHeld :
      held manager (own active history) = some token)
    (hData : data.sessionId = key) :
    ∃ handover' : Handover ι Nat,
      Shows manager key original handover'
        (stores'.setToken token ⟨data, lifetime⟩)
        (⟨active, .csrfCreate token data ttl, ()⟩ ::
          history) := by
  have hHolds := (hShows.holds active).trans hHeld
  refine ⟨handover.store hHolds, ?_⟩
  exact {
    names := hShows.names
    bound := by
      intro other
      change (other = token ∨ other ∈ handover.stored) ↔ _
      unfold Bound
      simp only [Stores.setToken,
        Storage.Table.lookup_insert']
      by_cases hOther : token = other
      · subst hOther
        simp [hData]
      · rw [if_neg hOther, hShows.bound other]
        simp [Ne.symm hOther, Bound]
    holds := by
      intro thread
      have hHeld' :
          held manager
            (⟨.csrfCreate token data ttl, ()⟩ ::
              own active history) = some token :=
        hHeld
      have hCons := hShows.holds_cons hHeld' thread
      rw [← hHolds, Function.update_eq_self] at hCons
      exact hCons
    created := by
      intro thread other data' ttl' hHolds hCreated
      rcases own_of_cons hCreated with ⟨-, hSame⟩ | hOlder
      · cases congrArg Action.op hSame
        exact Or.inl rfl
      · exact Or.inr
          (hShows.created thread other data' ttl' hHolds
            hOlder)
    unspent := hShows.unspent
    kept := hShows.kept_cons rfl
    origin := hShows.origin_cons fun token hSwap => by
      cases hSwap }

/- A change has captured what its last run has seen. -/
theorem replaced_append
    (reruns : List SessionData)
    (session : SessionData) :
    Manager.replaced (reruns ++ [session]) =
      session.csrfTokenId := by
  unfold Manager.replaced
  rw [List.foldl_append]
  rfl

/- The stored token takes the place of the named one. -/
theorem Shows.swap
    {active : ι}
    {token lifetime : Nat}
    {data : CSRFToken}
    {ttl : Option Nat}
    {created : Nat}
    {reruns : List SessionData}
    {record : Timed SessionData}
    (hShows :
      Shows manager key original handover stores' history)
    (hHeld :
      held manager (own active history) =
        some (manager.csrfKey token))
    (hCreated :
      (⟨.csrfCreate (manager.csrfKey token) data created,
        ()⟩ : Action storeOps) ∈ own active history)
    (hRecord :
      stores'.sessions.lookup key = some record) :
    ∃ handover' : Handover ι Nat,
      Shows manager key original handover'
        (stores'.setSession key
          ⟨Manager.rotate (manager.csrfKey token)
            record.value, lifetime⟩)
        (⟨active,
          .sessionModify key
            (Manager.rotate (manager.csrfKey token)) ttl,
          some (reruns ++ [record.value],
            Manager.rotate (manager.csrfKey token)
              record.value)⟩ :: history) := by
  have hHolds := (hShows.holds active).trans hHeld
  have hStored :=
    hShows.created active _ data created hHolds hCreated
  have hNamed :
      record.value.csrfTokenId = some handover.named := by
    rcases hShows.names with ⟨named, hLookup, hNamed⟩
    obtain rfl :=
      Option.some.inj (hRecord.symm.trans hLookup)
    exact hNamed
  refine ⟨handover.swap hHolds hStored, ?_⟩
  exact {
    names := by
      refine ⟨⟨Manager.rotate (manager.csrfKey token)
        record.value, lifetime⟩, ?_, rfl⟩
      simp only [Stores.setSession,
        Storage.Table.lookup_insert', if_pos]
    bound := hShows.bound
    holds := by
      apply hShows.holds_cons
      change (held manager (own active history)).bind _ = _
      rw [hHeld]
      change Manager.replaced _ = _
      rw [replaced_append]
      exact hNamed
    created := by
      intro thread other data' ttl' hOther hCreated'
      rcases own_of_cons hCreated' with ⟨-, hSame⟩ | hOlder
      · cases congrArg Action.op hSame
      · by_cases hThread : thread = active
        · subst hThread
          simp only [Handover.swap] at hOther
          rw [Function.update_self] at hOther
          rw [← Option.some.inj hOther]
          exact handover.named_stored
        · simp only [Handover.swap] at hOther
          rw [Function.update_of_ne hThread] at hOther
          exact hShows.created thread other data' ttl' hOther
            hOlder
    unspent := by
      intro other hOther
      have hOld := hShows.unspent other hOther
      constructor
      · intro hSame
        apply hOld.2 active
        rw [hHolds]
        exact congrArg some hSame.symm
      · intro thread
        by_cases hThread : thread = active
        · subst hThread
          simp only [Handover.swap]
          rw [Function.update_self]
          intro hSame
          exact hOld.1 (Option.some.inj hSame).symm
        · simp only [Handover.swap]
          rw [Function.update_of_ne hThread]
          exact hOld.2 thread
    kept := hShows.kept_cons rfl
    origin :=
      Or.inr ⟨token, rfl, _, List.mem_cons_self, rfl⟩ }

/- The token that is held is deleted. -/
theorem Shows.drop
    {active : ι}
    {token : Nat}
    {deleted : Bool}
    (hShows :
      Shows manager key original handover stores' history)
    (hHeld :
      held manager (own active history) = some token) :
    ∃ handover' : Handover ι Nat,
      Shows manager key original handover'
        { stores' with
          tokens := AList.erase token stores'.tokens }
        (⟨active, .csrfDelete token, deleted⟩ ::
          history) := by
  have hHolds := (hShows.holds active).trans hHeld
  refine ⟨handover.drop hHolds, ?_⟩
  exact {
    names := hShows.names
    bound := by
      intro other
      change (other ∈ handover.stored ∧ ¬ other = token) ↔ _
      unfold Bound
      simp only [Storage.Table.lookup_erase']
      by_cases hOther : token = other
      · subst hOther
        simp
      · rw [if_neg hOther, hShows.bound other]
        simp [Ne.symm hOther, Bound]
    holds := hShows.holds_cons rfl
    created := by
      intro thread other data ttl hOther hCreated
      rcases own_of_cons hCreated with ⟨-, hSame⟩ | hOlder
      · cases congrArg Action.op hSame
      · by_cases hThread : thread = active
        · subst hThread
          simp only [Handover.drop] at hOther
          rw [Function.update_self] at hOther
          cases hOther
        · simp only [Handover.drop] at hOther
          rw [Function.update_of_ne hThread] at hOther
          refine ⟨hShows.created thread other data ttl hOther
            hOlder, ?_⟩
          rintro rfl
          exact hThread
            (handover.apart thread active _ hOther hHolds)
    unspent := by
      intro other hOther
      have hOld := hShows.unspent other hOther
      refine ⟨hOld.1, fun thread => ?_⟩
      by_cases hThread : thread = active
      · subst hThread
        simp only [Handover.drop]
        rw [Function.update_self]
        intro hSame
        cases hSame
      · simp only [Handover.drop]
        rw [Function.update_of_ne hThread]
        exact hOld.2 thread
    kept := hShows.kept_cons rfl
    origin := hShows.origin_cons fun token hSwap => by
      cases hSwap }

/- A change that keeps the token keeps the handover. -/
theorem Shows.modify
    {active : ι}
    {change : SessionData → SessionData}
    {ttl : Option Nat}
    (hShows :
      Shows manager key original handover stores' history)
    (hChange : MaySwap manager (own active history) change) :
    ∃ handover' : Handover ι Nat,
      Shows manager key original handover'
        (Stores.exec expiry (.sessionModify key change ttl)
          stores').2
        (⟨active, .sessionModify key change ttl,
          (Stores.exec expiry (.sessionModify key change ttl)
            stores').1⟩ :: history) := by
  simp only [Stores.exec]
  split
  · refine ⟨handover, hShows.quiet rfl ?_ ?_ rfl
      (fun _ hNames => hNames) (fun _ => Iff.rfl) rfl⟩
    · intro token data ttl hSame
      cases hSame
    · intro token hSwap
      cases hSwap
  · rename_i record hRecord
    have hLookup :
        stores'.sessions.lookup key = some record :=
      (Option.filter_eq_some_iff.mp hRecord).1
    rcases hChange with
      ⟨hFree, hKeeps⟩ | ⟨token, data, lifetime, hHeld,
        hCreated, rfl⟩
    · refine ⟨handover, hShows.quiet ?_ ?_ ?_ rfl ?_
        (fun _ => Iff.rfl) rfl⟩
      · change (held manager (own active history)).bind _ = _
        rw [hFree]
        rfl
      · intro token data ttl hSame
        cases hSame
      · intro token hSwap
        exact hKeeps.ne_rotate _ (Option.some.inj hSwap)
      · rintro token ⟨named, hNamed, hToken⟩
        obtain rfl :=
          Option.some.inj (hLookup.symm.trans hNamed)
        refine ⟨⟨change record.value,
          (ttl.map (stores'.clock + ·)).getD record.expiry⟩,
          ?_, ?_⟩
        · simp only [Stores.setSession,
            Storage.Table.lookup_insert', if_pos]
        · exact (hKeeps record.value).trans hToken
    · exact hShows.swap hHeld hCreated hLookup

/- An extension moves an expiry, and nothing else. -/
theorem bound_extend
    {csrfKey ttl : Nat}
    (token : Nat) :
    Bound key stores' token ↔
      Bound key
        (Stores.exec expiry (.csrfExtend csrfKey ttl)
          stores').2 token := by
  simp only [Stores.exec]
  split
  · rfl
  · rename_i record hRecord
    have hLookup :
        stores'.tokens.lookup csrfKey = some record :=
      (Option.filter_eq_some_iff.mp hRecord).1
    unfold Bound
    simp only [Stores.setToken, Storage.Table.lookup_insert']
    by_cases hToken : csrfKey = token
    · subst hToken
      simp [hLookup]
    · rw [if_neg hToken]

/- No step but a termination breaks the handover. -/
theorem Shows.step
    {sessionId : Nat}
    {active : ι}
    {op : StoreOp}
    (hShows :
      Shows manager (manager.key sessionId) original handover
        stores' history)
    (hTokens : Function.Injective manager.csrfKey)
    (hRule :
      (rotation manager sessionId).rule (own active history)
        op)
    (hKept : terminates op = false) :
    ∃ handover' : Handover ι Nat,
      Shows manager (manager.key sessionId) original
        handover'
        (Stores.exec expiry op stores').2
        (⟨active, op, (Stores.exec expiry op stores').1⟩ ::
          history) := by
  -- Most operations hand nothing over.
  have hQuiet
      (hHeld :
        held manager
            (⟨op, (Stores.exec expiry op stores').1⟩ ::
              own active history) =
          held manager (own active history))
      (hChanged :
        changed? ⟨op, (Stores.exec expiry op stores').1⟩ =
          none)
      (hOp : ∀ token data ttl,
        op ≠ .csrfCreate token data ttl)
      (hDeletes :
        deletes ⟨op, (Stores.exec expiry op stores').1⟩ =
          false)
      (hNames : ∀ token,
        Names (manager.key sessionId) stores' token →
          Names (manager.key sessionId)
            (Stores.exec expiry op stores').2 token)
      (hBound : ∀ token,
        Bound (manager.key sessionId) stores' token ↔
          Bound (manager.key sessionId)
            (Stores.exec expiry op stores').2 token)
      (hNext :
        (Stores.exec expiry op stores').2.nextId =
          stores'.nextId) :
      ∃ handover' : Handover ι Nat,
        Shows manager (manager.key sessionId) original
          handover' (Stores.exec expiry op stores').2
          (⟨active, op, (Stores.exec expiry op stores').1⟩ ::
            history) := by
    refine ⟨handover, hShows.quiet hHeld hOp ?_ hDeletes
      hNames hBound hNext⟩
    intro token hSwap
    rw [Swaps, hChanged] at hSwap
    cases hSwap
  cases op with
  | fresh => exact hShows.draw hTokens hRule.1 hRule.2
  | csrfCreate token data ttl =>
      exact hShows.store hRule.1 hRule.2
  | sessionModify other change ttl =>
      obtain ⟨rfl, hChange⟩ := hRule
      exact hShows.modify hChange
  | csrfDelete token =>
      rcases hRule with hHeld | hDeleted
      · exact hShows.drop hHeld
      · rcases List.any_eq_true.mp hDeleted with
          ⟨action, hAction, hDeletes⟩
        have hNone :=
          hShows.kept _ (mem_own_iff.mp hAction)
        change deletes action = false at hNone
        rw [hDeletes] at hNone
        cases hNone
  | sessionCreate => cases hRule
  | sessionDelete => cases hKept
  | csrfExtend other ttl =>
      apply hQuiet rfl rfl ?_ rfl ?_ bound_extend ?_
      · intro token data ttl hSame
        cases hSame
      · intro token hNames
        simp only [Stores.exec]
        split <;> exact hNames
      · simp only [Stores.exec]
        split <;> rfl
  | _ =>
      apply hQuiet rfl rfl ?_ rfl (fun _ hNames => hNames)
        (fun _ => Iff.rfl) rfl
      intro token data ttl hSame
      cases hSame

end Handing

------------------------------------------------------------
-- Runs Of Racing Calls
------------------------------------------------------------

section Runs

variable {ι : Type} [DecidableEq ι]
variable (manager : Manager)
variable (expiry : Expiry)

/- `validate_csrf_token` accepts the token. -/
def ValidatesToken
    (stores' : Stores)
    (sessionId token : Nat) : Prop :=
  ((manager.validateCsrfToken sessionId token).run
    (stores expiry).exec stores').1 = .ok true

/- No TTL of the session or of its tokens has run out. -/
def Unexpired (key : Nat) (stores' : Stores) : Prop :=
  (∀ record,
    stores'.sessions.lookup key = some record →
      stores'.session? expiry key = some record) ∧
  ∀ token record,
    stores'.tokens.lookup token = some record →
    record.value.sessionId = key →
      stores'.token? expiry token = some record

/- A session with one CSRF token. -/
structure HasToken
    (sessionId original : Nat)
    (stores' : Stores) : Prop where
  names :
    Names (manager.key sessionId) stores'
      (manager.csrfKey original)
  bound : ∀ token,
    Bound (manager.key sessionId) stores' token ↔
      token = manager.csrfKey original
  drawn : original < stores'.nextId

/- The steps of calls that do not terminate the session. -/
def NoTermination : Condition ι storeOps Stores :=
  fun _ _ _ op => terminates op = false

instance :
    ∀ (state : Stores) (history : List (Event ι storeOps))
      (thread : ι) (op : StoreOp),
      Decidable (NoTermination state history thread op) :=
  fun _ _ _ op =>
    inferInstanceAs (Decidable (terminates op = false))

/- Requests that begin together. -/
def racing
    (requests : ι → Request)
    (start : Stores) :
    Config ι storeOps Stores HttpError Outcome where
  state := start
  history := []
  pool := fun thread => (requests thread).perform manager

/- The session names a token that is in the CSRF store. -/
def NamesLive
    (sessionId : Nat)
    (stores' : Stores)
    (named : Nat) : Prop :=
  (∃ record,
    stores'.session? expiry (manager.key sessionId) =
      some record ∧
    record.value.csrfTokenId = some named) ∧
  ∃ record,
    stores'.token? expiry named = some record ∧
    record.value.sessionId = manager.key sessionId

/-
  One token validates: the one that the session names, which
  a call has returned unless no call has returned any.
-/
def OneToken
    (sessionId original : Nat)
    (stores' : Stores)
    (outcomes : ι → Outcome)
    (named : Nat) : Prop :=
  ∃ token,
    named = manager.csrfKey token ∧
    (∀ other,
      ValidatesToken manager expiry stores' sessionId other ↔
        other = token) ∧
    ((∃ thread, outcomes thread = .rotated (some token)) ∨
      token = original ∧
        ∀ thread other,
          outcomes thread ≠ .rotated (some other))

variable {manager} {expiry}
variable {requests : ι → Request}
variable {sessionId original : Nat}
variable {start : Stores}
variable {after : Config ι storeOps Stores HttpError Outcome}

/- A token validates where it is live and bound. -/
theorem validatesToken_iff
    {stores' : Stores}
    {token : Nat}
    (hStorage : manager.hasCsrfStorage = true) :
    ValidatesToken manager expiry stores' sessionId token ↔
      ∃ record,
        stores'.token? expiry (manager.csrfKey token) =
          some record ∧
        record.value.sessionId = manager.key sessionId := by
  unfold ValidatesToken Manager.validateCsrfToken
  rw [if_pos hStorage, bind_eq]
  change (Program.run (stores expiry).exec
    (.perform (.csrfGet (manager.csrfKey token)) _)
      stores').1 = _ ↔ _
  have hGet :
      ((stores expiry).exec
        (.csrfGet (manager.csrfKey token)) stores').1 =
        (stores'.token? expiry
          (manager.csrfKey token)).map Timed.value :=
    rfl
  rw [run_perform, done_bind, hGet]
  cases stores'.token? expiry (manager.csrfKey token) with
  | none => simp
  | some record => simp

/- At the start, nobody holds a token. -/
def HasToken.handover
    (hStart :
      HasToken manager sessionId original start) :
    Handover ι Nat where
  named := manager.csrfKey original
  stored :=
    { token | Bound (manager.key sessionId) start token }
  holds := fun _ => none
  named_stored := (hStart.bound _).mpr rfl
  owned := fun token hToken =>
    Or.inl ((hStart.bound token).mp hToken)
  spare := by
    intro holder hHolds
    cases hHolds
  apart := by
    intro holder holder' token hHolds
    cases hHolds

/- Every run hands its tokens over. -/
theorem shows_of_reaches
    (hTokens : Function.Injective manager.csrfKey)
    (hStart : HasToken manager sessionId original start)
    (hRaces : ∀ thread, (requests thread).Races sessionId)
    (hReaches : Reaches (stores expiry) NoTermination
      (racing manager requests start) after) :
    ∃ handover : Handover ι Nat,
      Shows manager (manager.key sessionId) original handover
        after.state after.history := by
  have hTrace :
      Trace (stores expiry)
        (fun _ => rotation manager sessionId) NoTermination
        start [] after.state after.history :=
    hReaches.trace
      (fun thread => (hRaces thread).obeys hTokens)
      fun _ _ _ => trivial
  apply hTrace.invariant fun stores' history =>
    ∃ handover : Handover ι Nat,
      Shows manager (manager.key sessionId) original handover
        stores' history
  · refine ⟨hStart.handover, ?_⟩
    exact {
      names := hStart.names
      bound := fun _ => Iff.rfl
      holds := fun _ => rfl
      created := by
        intro thread token data ttl hHolds
        cases hHolds
      unspent := by
        intro token hToken
        constructor
        · intro hSame
          have hSame := hTokens hSame
          have hDrawn := hStart.drawn
          omega
        · intro thread hHolds
          cases hHolds
      kept := by simp
      origin := by
        left
        exact ⟨rfl, by simp⟩ }
  · rintro stores' history active op - hRule hKept
      ⟨handover, hShows⟩
    exact hShows.step hTokens hRule hKept
  · rintro stores' history tick ⟨handover, hShows⟩
    refine ⟨handover, ?_⟩
    cases tick <;> exact {
      names := hShows.names
      bound := hShows.bound
      holds := hShows.holds
      created := hShows.created
      unspent := hShows.unspent
      kept := hShows.kept
      origin := hShows.origin }

/-
  While the TTLs last, the token that the session names is
  there at every moment; and when all calls have returned it
  is the only one.
-/
theorem one_token_of_rotations
    (hStorage : manager.hasCsrfStorage = true)
    (hTokens : Function.Injective manager.csrfKey)
    (hStart : HasToken manager sessionId original start)
    (hRaces : ∀ thread, (requests thread).Races sessionId)
    (hReaches : Reaches (stores expiry) NoTermination
      (racing manager requests start) after)
    (hLive :
      Unexpired expiry (manager.key sessionId) after.state) :
    ∃ named,
      NamesLive manager expiry sessionId after.state named ∧
      ∀ outcomes : ι → Outcome,
        (∀ thread,
          after.pool thread = .done (outcomes thread)) →
        OneToken manager expiry sessionId original
          after.state outcomes named := by
  rcases shows_of_reaches hTokens hStart hRaces hReaches with
    ⟨handover, hShows⟩
  refine ⟨handover.named, ⟨?_, ?_⟩, ?_⟩
  · rcases hShows.names with ⟨record, hRecord, hNamed⟩
    exact ⟨record, hLive.1 record hRecord, hNamed⟩
  · have hBound :=
      (hShows.bound _).mp handover.named_stored
    rcases hBound with ⟨record, hRecord, hKey⟩
    exact ⟨record, hLive.2 _ record hRecord hKey, hKey⟩
  · intro outcomes hDone
    have hRotated (thread : ι) :
        Rotated manager (own thread after.history)
          (outcomes thread) := by
      have hEnd :=
        hReaches.obeys
          (fun thread => (hRaces thread).obeys hTokens)
          (fun _ _ _ => trivial) thread
      rw [hDone thread, obeys_done, returns_ok] at hEnd
      exact hEnd
    have hStored :=
      handover.stored_eq_of_free fun thread =>
        (hShows.holds thread).trans (hRotated thread).1
    -- The named token is the only one in the CSRF store.
    have hOnly
        (token other : Nat)
        (hNamed : handover.named = manager.csrfKey token) :
        ValidatesToken manager expiry after.state sessionId
            other ↔
          other = token := by
      rw [validatesToken_iff hStorage]
      constructor
      · rintro ⟨record, hRecord, hKey⟩
        have hLookup :=
          (Option.filter_eq_some_iff.mp hRecord).1
        have hIn :=
          (hShows.bound _).mpr ⟨record, hLookup, hKey⟩
        rw [hStored, Set.mem_singleton_iff, hNamed] at hIn
        exact hTokens hIn
      · rintro rfl
        have hBound :=
          (hShows.bound _).mp handover.named_stored
        rw [hNamed] at hBound
        rcases hBound with ⟨record, hRecord, hKey⟩
        exact ⟨record, hLive.2 _ record hRecord hKey, hKey⟩
    rcases hShows.origin with
      ⟨hNamed, hNone⟩ | ⟨token, hNamed, event, hEvent, hSwap⟩
    · refine ⟨original, hNamed,
        fun other => hOnly original other hNamed,
        Or.inr ⟨rfl, ?_⟩⟩
      intro thread other hReturned
      rcases (hRotated thread).2.2 other hReturned with
        ⟨action, hAction, hSwap⟩
      exact hNone other _ (mem_own_iff.mp hAction) hSwap
    · refine ⟨token, hNamed,
        fun other => hOnly token other hNamed,
        Or.inl ⟨event.thread, ?_⟩⟩
      apply (hRotated event.thread).2.1 token
      exact ⟨event.action, mem_own_iff.mpr hEvent, hSwap⟩

end Runs

namespace Race

/- Sessions of half an hour, with CSRF tokens. -/
def manager : Manager where
  config := ⟨5, 1800, 604800, none⟩
  hasCsrfStorage := true
  key := id
  csrfKey := id

/- Expiry is exact. -/
def expiry : Expiry := .strict

/- One session, with the token 1. -/
def start : Stores where
  clock := 0
  nextId := 2
  sessions :=
    AList.insert 0
      ⟨⟨7, 0, 0, false, some 1, none, none⟩, 1800⟩ ∅
  tokens := AList.insert 1 ⟨⟨1, 0, 1800⟩, 1800⟩ ∅
  reruns := []

/- Two who rotate, and one who only visits. -/
inductive Client where
  | left
  | right
  | visitor
deriving DecidableEq

/- Two rotations and a validation. -/
def requests : Client → Request
  | .left => .regenerateCsrfToken 0 none
  | .right => .regenerateCsrfToken 0 none
  | .visitor => .validateSession 0 true

/- The second rotation swaps first, and deletes last. -/
def schedule : List (Choice Client (stores expiry).Tick) :=
  [.left, .right, .left, .right, .visitor, .visitor, .left,
    .right, .left, .right, .visitor, .right, .left, .visitor,
    .left, .right].map .thread

/- The run, if its schedule can be followed. -/
def raced? :=
  (racing manager requests start).run (stores expiry)
    NoTermination schedule

/- What the race leaves. -/
def ended : Stores where
  clock := 0
  nextId := 4
  sessions :=
    AList.insert 0
      ⟨⟨7, 0, 0, false, some 2, none, none⟩, 1800⟩ ∅
  tokens := AList.insert 2 ⟨⟨2, 0, 1800⟩, 1800⟩ ∅
  reruns := []

theorem races (thread : Client) :
    (requests thread).Races 0 := by
  cases thread with
  | left => rfl
  | right => rfl
  | visitor => rfl

theorem hasToken : HasToken manager 0 1 start where
  names := ⟨⟨⟨7, 0, 0, false, some 1, none, none⟩, 1800⟩,
    rfl, rfl⟩
  bound token := by
    simp only [Bound, start, Storage.Table.lookup_insert']
    constructor
    · rintro ⟨record, hRecord, -⟩
      split at hRecord
      · rename_i hToken
        exact hToken.symm
      · cases hRecord
    · rintro rfl
      exact ⟨⟨⟨1, 0, 1800⟩, 1800⟩, rfl, rfl⟩
  drawn := by decide

theorem unexpired : Unexpired expiry 0 ended := by
  constructor
  · intro record hRecord
    obtain rfl := Option.some.inj hRecord
    rfl
  · intro token record hRecord _
    simp only [ended, Storage.Table.lookup_insert']
      at hRecord
    split at hRecord
    · rename_i hToken
      subst hToken
      obtain rfl := Option.some.inj hRecord
      rfl
    · cases hRecord

/- The race leaves one token. -/
theorem one_token_of_race :
    ∃ run : raced?.isSome, ∃ named,
      NamesLive manager expiry 0 (raced?.get run).state
        named ∧
      ∀ outcomes,
        (∀ thread,
          (raced?.get run).pool thread =
            .done (outcomes thread)) →
        OneToken manager expiry 0 1 (raced?.get run).state
          outcomes named := by
  have hRuns : raced?.isSome := by decide
  have hEnded : (raced?.get hRuns).state = ended := by rfl
  refine ⟨hRuns, ?_⟩
  apply one_token_of_rotations rfl Function.injective_id
    hasToken races
    (Reaches.of_run (Option.some_get hRuns).symm)
  rw [hEnded]
  exact unexpired

end Race

end SessionStore

end CrudAuth
