import CrudAuth.Discipline.FreshProofs
import CrudAuth.Invariants.Stores

/-
  Where a stored session comes from: the sign-in that has
  stored it, and the request that has elevated it last.

  Main declarations:
    * `Runtime.Proves`
    * `Runtime.SignedInAt`
    * `Runtime.ElevatedAt`
    * `signedIn_of_session`
    * `signedIn_of_shown`
    * `elevated_of_session`
    * `clock_of_reading`
-/

namespace CrudAuth

open Concurrency

variable {ι : Type} [DecidableEq ι]
variable {runtime : Runtime}
variable {requests : ι → Request}
variable {condition : Condition ι interface World}
variable {start state world : World}
variable {history later earlier : List (Ev ι)}
variable {thread creator : ι}
variable {key : Nat}
variable {id : UserId}
variable {op : Op}

------------------------------------------------------------
-- Runs With Proofs
------------------------------------------------------------

namespace Runtime

/- Histories in which fresh proofs are asked for, too. -/
abbrev Proves
    (runtime : Runtime)
    (requests : ι → Request)
    (condition : Condition ι interface World)
    (start : World) :
    World → List (Ev ι) → Prop :=
  Trace machine (fun thread =>
    (runtime.contract (requests thread)).both
      (runtime.proofs (requests thread))) condition start []

/- Every configuration reached has its proofs. -/
theorem proves_of_reachable
    {config : Config ι interface World HttpError Unit}
    (hReachable :
      runtime.Reachable requests condition start config) :
    runtime.Proves requests condition start
      config.state config.history := by
  have hObeys (thread : ι) :
      (runtime.pool requests thread).Obeys
        ((runtime.contract (requests thread)).both
          (runtime.proofs (requests thread))) []
        (fun _ _ => True ∧ True) :=
    (handle_obeys (requests thread)).both
      (handle_proofs (requests thread))
  refine Reaches.trace hObeys ?_ hReachable
  intro _ op state
  exact ⟨answers_exec op state, trivial⟩

/- Such a run is a run of the world. -/
theorem Proves.runs
    (hProves :
      runtime.Proves requests condition start state
        history) :
    runtime.Runs requests condition start [] state
      history := by
  induction hProves with
  | start => exact .start
  | perform _ hRule hCondition ih =>
      exact .perform ih hRule.1 hCondition
  | tick _ tick ih => exact .tick ih tick

end Runtime

/- What the clock has read is past. -/
theorem clock_of_reading
    {reading : Nat}
    (hRuns : runtime.Runs requests condition start [] state
      history)
    (hReading : (⟨thread, .now, reading⟩ : Ev ι) ∈ history) :
    reading ≤ state.clock := by
  refine Trace.invariant
    (fun state (history : List (Ev ι)) =>
      ∀ thread (reading : Nat),
        (⟨thread, .now, reading⟩ : Ev ι) ∈ history →
          reading ≤ state.clock)
    hRuns (by simp) ?_ ?_ thread reading hReading
  · intro state history active op _ _ _ hSoFar thread
      reading hReading
    rw [World.clock_exec]
    rcases List.mem_cons.mp hReading with hNew | hOld
    · cases hNew
      exact Nat.le_refl _
    · exact hSoFar thread reading hOld
  · intro state history tick hSoFar thread reading hReading
    exact (hSoFar thread reading hReading).trans
      (Nat.le_add_right _ _)

------------------------------------------------------------
-- Sign-Ins
------------------------------------------------------------

namespace Runtime

/- The session was stored by a sign-in to the account. -/
def SignedInAt
    (runtime : Runtime)
    (requests : ι → Request)
    (history : List (Ev ι))
    (key : Nat)
    (id : UserId)
    (createdAt : Nat) : Prop :=
  ∃ creator data ttl after before,
    history =
      after ++ ⟨creator, .sessionCreate key data ttl, ()⟩ ::
        before ∧
    data.userId = id ∧
    data.createdAt = createdAt ∧
    runtime.SignsIn (requests creator) (own creator before)
      id ∧
    (⟨creator, .now, createdAt⟩ : Ev ι) ∈ before

/- A sign-in stays part of the history. -/
theorem SignedInAt.append
    {createdAt : Nat}
    (hSigned :
      runtime.SignedInAt requests earlier key id createdAt)
    (later : List (Ev ι)) :
    runtime.SignedInAt requests (later ++ earlier) key id
      createdAt := by
  rcases hSigned with
    ⟨creator, data, ttl, after, before, rfl, hRest⟩
  exact ⟨creator, data, ttl, later ++ after, before,
    (List.append_assoc _ _ _).symm, hRest⟩

/- One sign-in stores under a key. -/
theorem SignedInAt.unique
    {id' : UserId}
    {createdAt createdAt' : Nat}
    (hRuns : runtime.Runs requests condition start [] state
      history)
    (hSigned :
      runtime.SignedInAt requests history key id createdAt)
    (hSigned' :
      runtime.SignedInAt requests history key id'
        createdAt') :
    id = id' ∧ createdAt = createdAt' := by
  rcases hSigned with
    ⟨creator, data, ttl, after, before, hHistory, rfl, rfl,
      -⟩
  rcases hSigned' with
    ⟨creator', data', ttl', after', before', hHistory', rfl,
      rfl, -⟩
  -- a key that has been stored under is never drawn again
  have hOnce {creator creator' : ι}
      {data data' : SessionData}
      {ttl ttl' : Nat}
      {after between before : List (Ev ι)}
      (hHistory : history =
        after ++
          ⟨creator, .sessionCreate key data ttl, ()⟩ ::
          (between ++
            ⟨creator', .sessionCreate key data' ttl', ()⟩ ::
              before)) :
      False := by
    rw [hHistory] at hRuns
    rcases hRuns.at_events with
      ⟨first, second, hFirst, hDrawn, -, hBetween, hAgain, -⟩
    have hSpent :
        Spent
          (World.exec (.sessionCreate key data' ttl')
            first).2
          (⟨creator', .sessionCreate key data' ttl', ()⟩ ::
            before) key :=
      spent_of_fresh hFirst (fresh_of_drawn hDrawn.1)
        (by simp)
    exact (spent_along hBetween hSpent).free creator
      hAgain.1
  rcases order_of_splits (hHistory.symm.trans hHistory') with
    ⟨between, rfl, -⟩ | ⟨between, rfl, -⟩ | ⟨hSame, -, -⟩
  · exact (hOnce hHistory).elim
  · exact (hOnce hHistory').elim
  · cases hSame
    exact ⟨rfl, rfl⟩

------------------------------------------------------------
-- Elevations
------------------------------------------------------------

end Runtime

/- A stored session has got another stamp. -/
def restamps (key : Nat) : Act → Bool
  | ⟨.sessionModify modified (.stamp _), stamped⟩ =>
      modified == key && stamped.isSome
  | _ => false

namespace Runtime

/- The proof of an elevation was checked on the account. -/
def Reproved
    (runtime : Runtime)
    (request : Request)
    (past : List Act)
    (id : UserId) : Reauthentication → Prop
  | .password password =>
      ∃ user,
        lastRead past = some user ∧
        user.id = id ∧
        runtime.verifyPassword password
          user.hashedPassword = true
  | .code _ => Accepted request past id

/-
  The session was last stamped by an elevation that has
  read the clock at `now`, for the account.
-/
def ElevatedAt
    (runtime : Runtime)
    (requests : ι → Request)
    (history : List (Ev ι))
    (key : Nat)
    (id : UserId)
    (config : SudoConfig)
    (now : Nat) : Prop :=
  runtime.sudoConfig = some config ∧
  ∃ elevator proof stamped after before,
    requests elevator = .elevate (.session key) proof ∧
    history =
      after ++
        ⟨elevator,
          .sessionModify key
            (.stamp (some (now + config.windowSeconds))),
          some stamped⟩ :: before ∧
    (∀ event ∈ after, restamps key event.action = false) ∧
    (⟨elevator, .now, now⟩ : Ev ι) ∈ before ∧
    runtime.Reproved (requests elevator)
      (own elevator before) id proof

/- So does an elevation no later stamp replaces. -/
theorem ElevatedAt.cons
    {config : SudoConfig}
    {now : Nat}
    {event : Ev ι}
    (hElevated :
      runtime.ElevatedAt requests history key id config now)
    (hKept : restamps key event.action = false) :
    runtime.ElevatedAt requests (event :: history) key id
      config now := by
  rcases hElevated with
    ⟨hSudo, elevator, proof, stamped, after, before,
      hRequest, rfl, hLast, hRest⟩
  refine ⟨hSudo, elevator, proof, stamped, event :: after,
    before, hRequest, rfl, ?_, hRest⟩
  exact List.forall_mem_cons.mpr ⟨hKept, hLast⟩

end Runtime

------------------------------------------------------------
-- Origins
------------------------------------------------------------

/- A record is made, changed, or as it was. -/
theorem record_cases
    {stored : Stored SessionData}
    (hAfter : world.sessionAfter op key = some stored) :
    (∃ data ttl,
      op = .sessionCreate key data ttl ∧
        stored = ⟨data, world.clock + ttl⟩) ∨
    (∃ change old,
      op = .sessionModify key change ∧
        world.session? key = some old ∧
        stored = change.apply world.clock old) ∨
    (world.sessions key = some stored ∧
      restamps key ⟨op, (World.exec op world).1⟩ =
        false) := by
  rcases sessionAfter_cases hAfter with
    hCreated | hChanged | hKept
  · exact Or.inl hCreated
  · exact Or.inr (Or.inl hChanged)
  · right
    cases hStamps :
        restamps key ⟨op, (World.exec op world).1⟩ with
    | false => exact Or.inr ⟨hKept, rfl⟩
    | true =>
        left
        cases op with
        | sessionModify modified change =>
            cases change with
            | stamp until' =>
                simp only [restamps, Bool.and_eq_true,
                  beq_iff_eq] at hStamps
                rcases hStamps with ⟨rfl, hSome⟩
                simp only [World.sessionAfter,
                  if_true] at hAfter
                cases hOld : world.session? modified with
                | none => simp [World.exec, hOld] at hSome
                | some old =>
                    rw [hOld] at hAfter
                    exact ⟨_, old, rfl, rfl,
                      (Option.some.inj hAfter).symm⟩
            | touch now ttl => cases hStamps
            | rebind version => cases hStamps
        | _ => cases hStamps

/- A stored session was stored by a sign-in to its owner. -/
theorem signedIn_of_session
    (hStart : ∀ key, start.sessions key = none)
    (hProves : runtime.Proves requests condition start state
      history) :
    ∀ key stored, state.sessions key = some stored →
      runtime.SignedInAt requests history key
        stored.value.userId stored.value.createdAt := by
  refine Trace.invariant
    (fun state history => ∀ key stored,
      state.sessions key = some stored →
        runtime.SignedInAt requests history key
          stored.value.userId stored.value.createdAt)
    hProves ?_ ?_ ?_
  · intro key stored hStored
    rw [hStart key] at hStored
    cases hStored
  · intro state history active op _ hRule _ hSigned key
      stored hStored
    rw [World.sessions_exec] at hStored
    rcases sessionAfter_cases hStored with
      ⟨data, ttl, rfl, rfl⟩ | ⟨change, old, -, hOld, rfl⟩ |
        hOld
    · rcases hRule with
        ⟨⟨-, user, -, hSignsIn, -, hOwner, -⟩, -, hNow⟩
      refine ⟨active, data, ttl, [], history, rfl, rfl, rfl,
        ?_, mem_own_iff.mp hNow⟩
      rw [hOwner]
      exact hSignsIn
    · have hRecord := (session?_eq_some.mp hOld).1
      have hBefore := (hSigned key old hRecord).append
        [⟨active, op, (World.exec op state).1⟩]
      cases change <;> exact hBefore
    · exact (hSigned key stored hOld).append
        [⟨active, op, (World.exec op state).1⟩]
  · intro state history tick hSigned
    exact hSigned

/- What a session store shows under a key. -/
def shownUnder (key : Nat) : Act → Option SessionData
  | ⟨.sessionGet read, found⟩ =>
      if read = key then found else none
  | ⟨.sessionModify modified _, found⟩ =>
      if modified = key then found else none
  | _ => none

/- What is shown has the owner and age of a stored record. -/
theorem stored_of_shown
    {data : SessionData}
    (hShown :
      shownUnder key ⟨op, (World.exec op world).1⟩ =
        some data) :
    ∃ stored,
      world.sessions key = some stored ∧
        stored.value.userId = data.userId ∧
        stored.value.createdAt = data.createdAt := by
  cases op with
  | sessionGet read =>
      simp only [shownUnder] at hShown
      split at hShown
      · rename_i hKey
        subst hKey
        rcases Option.map_eq_some_iff.mp hShown with
          ⟨stored, hStored, rfl⟩
        exact ⟨stored, (session?_eq_some.mp hStored).1, rfl,
          rfl⟩
      · cases hShown
  | sessionModify modified change =>
      simp only [shownUnder] at hShown
      split at hShown
      · rename_i hKey
        subst hKey
        cases hOld : world.session? modified with
        | none => simp [World.exec, hOld] at hShown
        | some old =>
            obtain rfl := by
              simpa [World.exec, hOld] using hShown
            refine ⟨old, (session?_eq_some.mp hOld).1, ?_⟩
            cases change <;> exact ⟨rfl, rfl⟩
      · cases hShown
  | _ => cases hShown

/- So what is shown was stored by a sign-in, too. -/
theorem signedIn_of_shown
    {event : Ev ι}
    {data : SessionData}
    (hStart : ∀ key, start.sessions key = none)
    (hProves : runtime.Proves requests condition start state
      history)
    (hEvent : event ∈ history)
    (hShown : shownUnder key event.action = some data) :
    runtime.SignedInAt requests history key data.userId
      data.createdAt := by
  rcases hProves.at_member hEvent with
    ⟨before, earlier, ⟨later, rfl⟩, hBefore, -, -, hRet⟩
  rcases event with ⟨thread, op, ret⟩
  obtain rfl : ret = (World.exec op before).1 := hRet
  rcases stored_of_shown hShown with
    ⟨stored, hStored, hOwner, hCreated⟩
  have hSigned :=
    signedIn_of_session hStart hBefore key stored hStored
  rw [hOwner, hCreated] at hSigned
  exact hSigned.append later

/- The account behind a session is its owner. -/
theorem signedIn_of_authenticated
    (hStart : ∀ key, start.sessions key = none)
    (hProves : runtime.Proves requests condition start state
      history)
    (hSigned :
      runtime.Authenticated (own thread history)
        (.session key) id) :
    ∃ createdAt,
      runtime.SignedInAt requests history key id
        createdAt := by
  rcases hSigned with
    ⟨-, data, change, user, ⟨older, hOlder, hMem⟩, rfl, -⟩
  have hEvent := mem_own_iff.mp
    (hOlder.subset (List.mem_cons_of_mem _ hMem))
  exact ⟨data.createdAt,
    signedIn_of_shown hStart hProves hEvent
      (by simp [Event.action, shownUnder])⟩

/- A stamp is written by an elevation of the owner. -/
theorem elevated_of_stamp
    {old : Stored SessionData}
    {until' : Nat}
    (hStart : ∀ key, start.sessions key = none)
    (hProves : runtime.Proves requests condition start state
      history)
    (hRule : runtime.rule (requests thread)
      (own thread history)
      (.sessionModify key (.stamp (some until'))))
    (hElevates : runtime.Elevates (requests thread)
      (own thread history) key until')
    (hOld : state.session? key = some old) :
    ∃ config now,
      until' = now + config.windowSeconds ∧
      runtime.ElevatedAt requests
        (⟨thread, .sessionModify key (.stamp (some until')),
          (World.exec
            (.sessionModify key (.stamp (some until')))
            state).1⟩ :: history)
        key old.value.userId config now := by
  rcases hRule with
    ⟨proof, user, hRequest, hRead, hEntitled, hAccepted⟩
  rcases hElevates with
    ⟨config, proof', now, hSudo, hSame, hNow, rfl, hProof⟩
  obtain rfl : proof = proof' := by
    simpa [hRequest] using hSame
  have hOwner : user.id = old.value.userId := by
    rw [hRequest] at hEntitled
    rcases signedIn_of_authenticated hStart hProves
        hEntitled with ⟨createdAt, hSigned⟩
    have hStored := signedIn_of_session hStart hProves key
      old (session?_eq_some.mp hOld).1
    exact (hSigned.unique (Runtime.Proves.runs hProves)
      hStored).1
  refine ⟨config, now, rfl, hSudo, thread, proof,
    { old.value with
      elevatedUntil := some (now + config.windowSeconds) },
    [], history, hRequest, ?_, by simp,
    mem_own_iff.mp hNow, ?_⟩
  · simp [World.exec, hOld, SessionChange.apply]
  · cases proof with
    | password password =>
        rcases hProof with ⟨user', hRead', hVerified⟩
        obtain rfl : user = user' := by
          simpa [hRead] using hRead'
        exact ⟨user, hRead, hOwner, hVerified⟩
    | code code =>
        have hCode := hAccepted rfl code rfl
        rw [hOwner] at hCode
        exact hCode

/- A stamp in a stored session is an elevation's. -/
theorem elevated_of_session
    (hStart : ∀ key, start.sessions key = none)
    (hProves : runtime.Proves requests condition start state
      history) :
    ∀ key stored, state.sessions key = some stored →
      ∀ until' ∈ stored.value.elevatedUntil,
        ∃ config now,
          until' = now + config.windowSeconds ∧
          runtime.ElevatedAt requests history key
            stored.value.userId config now := by
  refine Trace.invariant
    (fun state history => ∀ key stored,
      state.sessions key = some stored →
      ∀ until' ∈ stored.value.elevatedUntil,
        ∃ config now,
          until' = now + config.windowSeconds ∧
          runtime.ElevatedAt requests history key
            stored.value.userId config now)
    hProves ?_ ?_ ?_
  · intro key stored hStored
    rw [hStart key] at hStored
    cases hStored
  · intro state history active op hSoFar hRule _ hElevated
      key stored hStored until' hUntil
    rw [World.sessions_exec] at hStored
    have hSame {old : Stored SessionData}
        (hOld : state.sessions key = some old)
        (hUntil : until' ∈ old.value.elevatedUntil)
        (hKept : restamps key
          ⟨op, (World.exec op state).1⟩ = false) :
        ∃ config now,
          until' = now + config.windowSeconds ∧
          runtime.ElevatedAt requests
            (⟨active, op, (World.exec op state).1⟩ ::
              history)
            key old.value.userId config now := by
      rcases hElevated key old hOld until' hUntil with
        ⟨config, now, hNow, hAt⟩
      exact ⟨config, now, hNow, hAt.cons hKept⟩
    rcases record_cases hStored with
      ⟨data, ttl, rfl, rfl⟩ | ⟨change, old, rfl, hOld, rfl⟩ |
        ⟨hOld, hKept⟩
    · rw [hRule.2.1] at hUntil
      cases hUntil
    · have hRecord := (session?_eq_some.mp hOld).1
      cases change with
      | touch now ttl =>
          have hBefore := hSame hRecord hUntil rfl
          exact hBefore
      | rebind version =>
          have hBefore := hSame hRecord hUntil rfl
          exact hBefore
      | stamp stamped =>
          obtain rfl : stamped = some until' := hUntil
          have hStamped := elevated_of_stamp hStart hSoFar
            hRule.1 hRule.2 hOld
          exact hStamped
    · exact hSame hOld hUntil hKept
  · intro state history tick hElevated
    exact hElevated

end CrudAuth
