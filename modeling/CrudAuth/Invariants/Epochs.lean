import CrudAuth.Invariants.Stores

/-
  Credentials of an epoch that the account has left.

  A session bound to such an epoch authenticates nobody:
  nobody gets far enough to bind it to another one.

  Main declarations:
    * `arrived_after`
    * `Stale`
    * `Stale.refuses`
    * `stale_of_created`
    * `session_gone_of_evicted`
-/

namespace CrudAuth

open Concurrency

variable {ι : Type} [DecidableEq ι]
variable {runtime : Runtime}
variable {requests : ι → Request}
variable {condition : Condition ι interface World}
variable {start state world : World}
variable {opening history later earlier : List (Ev ι)}
variable {thread creator : ι}
variable {key : Nat}
variable {id : UserId}
variable {user : User}
variable {op : Op}

------------------------------------------------------------
-- Order Of Events
------------------------------------------------------------

/- Whoever arrives late has done nothing before. -/
theorem own_of_arrived
    (hRuns : runtime.Runs requests condition start []
      state (later ++ earlier))
    (hArrived :
      (⟨thread, .arrive (requests thread), ()⟩ : Ev ι) ∈
        later) :
    own thread earlier = [] := by
  rcases List.append_of_mem hArrived with
    ⟨newer, older, rfl⟩
  rw [List.append_assoc, List.cons_append] at hRuns
  rcases hRuns.at_event with ⟨before, -, hRule, -⟩
  have hOwn :
      own thread earlier <:+
        own thread (older ++ earlier) :=
    own_suffix thread (List.suffix_append _ _)
  have hFirst : own thread (older ++ earlier) = [] :=
    hRule.1
  rw [hFirst] at hOwn
  exact List.suffix_nil.mp hOwn

/- What it does then is among the later events. -/
theorem arrived_after
    {action : Act}
    (hRuns : runtime.Runs requests condition start []
      state (later ++ earlier))
    (hArrived :
      (⟨thread, .arrive (requests thread), ()⟩ : Ev ι) ∈
        later)
    (hAction : action ∈ own thread (later ++ earlier)) :
    ∃ newer older,
      later = newer ++ ⟨thread, action.op, action.ret⟩ ::
        older := by
  rw [mem_own_iff] at hAction
  rcases List.mem_append.mp hAction with hLater | hEarlier
  · exact List.append_of_mem hLater
  · have hNone := own_of_arrived hRuns hArrived
    have hOwn : action ∈ own thread earlier :=
      mem_own_iff.mpr hEarlier
    simp [hNone] at hOwn

------------------------------------------------------------
-- Outdated Copies
------------------------------------------------------------

/- A copy read before a bump shows a smaller epoch. -/
theorem version_lt_of_read
    {read bump : Ev ι}
    {between older : List (Ev ι)}
    (hStart : start.WellFormed)
    (hRuns : runtime.Runs requests condition start []
      state history)
    (hRead : copyOf read.action = some user)
    (hBump : bump.op = .incrementVersion user.id)
    (hOrder :
      (bump :: (between ++ read :: older)) <:+ history) :
    ∃ row,
      state.row? user.id = some row ∧
        user.tokenVersion < row.tokenVersion := by
  rcases hOrder with ⟨newest, rfl⟩
  have hSplit :
      newest ++ bump :: (between ++ read :: older) =
        (newest ++ bump :: between) ++ read :: older := by
    simp
  rw [hSplit] at hRuns
  rcases hRuns.at_event with
    ⟨before, hBefore, -, -, hRet, -, hAfter⟩
  have hRow :
      (World.exec read.op before).2.row? user.id =
        some user := by
    apply row_of_copy (wellFormed_of_runs hBefore hStart)
    rw [← hRet]
    exact hRead
  rcases exists_row hAfter hRow with ⟨row, hRow'⟩
  exact ⟨row, hRow', version_lt_of_bumped hAfter
    (List.mem_append_right newest List.mem_cons_self) hBump
    hRow hRow'⟩

------------------------------------------------------------
-- Stale Sessions
------------------------------------------------------------

/-
  The session `key` is bound to the epoch of `user`, which
  its account has left, and everybody who has looked at
  both has seen that.
-/
structure Stale
    (user : User)
    (key : Nat)
    (state : World)
    (history : List (Ev ι)) : Prop where
  spent : Spent state history key
  passed : ∃ row,
    state.row? user.id = some row ∧
      user.tokenVersion < row.tokenVersion
  bound : ∀ stored,
    state.sessions key = some stored →
      stored.value.userId = user.id ∧
        stored.value.tokenVersion = some user.tokenVersion
  shown : ∀ thread change data,
    (⟨thread, .sessionModify key change, some data⟩ :
      Ev ι) ∈ history →
      data.userId = user.id ∧
        data.tokenVersion = some user.tokenVersion
  seen : ∀ thread change (data : SessionData) found,
    Seen (own thread history)
      ⟨.select (.byId data.userId), some found⟩
      ⟨.sessionModify key change, some data⟩ →
      user.tokenVersion < found.tokenVersion

namespace Stale

/- Nobody is authenticated by a stale session. -/
theorem refuses
    (hStale : Stale user key state history)
    (hVersioned : runtime.hasTokenVersion = true) :
    ¬ runtime.Authenticated (own thread history)
      (.session key) id := by
  rintro ⟨-, data, change, found, hSeen, -, -, hBound⟩
  have hLess := hStale.seen thread change data found hSeen
  rcases hSeen with ⟨older, hOlder, hModified⟩
  have hMem := hOlder.subset
    (List.mem_cons_of_mem _ hModified)
  rw [mem_own_iff] at hMem
  have hVersion :=
    (hStale.shown thread change data hMem).2
  rw [hVersion, Runtime.tokenVersion, if_pos hVersioned]
    at hBound
  rcases hBound with hNone | hSame
  · cases hNone
  · have hEqual := Option.some.inj hSame
    omega

/- What a change of the session shows of it. -/
private theorem shown_exec
    {change : SessionChange}
    {data : SessionData}
    (hStale : Stale user key state history)
    (hVersioned : runtime.hasTokenVersion = true)
    (hRule :
      runtime.rule (requests thread) (own thread history)
        (.sessionModify key change))
    (hShown : some data =
      (World.exec (.sessionModify key change) state).1) :
    data.userId = user.id ∧
      data.tokenVersion = some user.tokenVersion := by
  simp only [World.exec] at hShown
  split at hShown
  · cases hShown
  · rename_i stored hStored
    obtain rfl := Option.some.inj hShown
    have hBound :=
      hStale.bound stored (session?_eq_some.mp hStored).1
    cases change with
    | touch now ttl => exact hBound
    | stamp elevatedUntil => exact hBound
    | rebind version =>
        rcases hRule with
          ⟨-, holder, -, -, hKept, hEntitled⟩
        have hSigned :
            runtime.Authenticated (own thread history)
              (.session key) holder.id := by
          cases hRequest : requests thread with
          | changePassword credential current new =>
              rw [hRequest] at hKept hEntitled
              cases credential with
              | session kept =>
                  obtain rfl : kept = key := by
                    simpa [Request.keptSession] using hKept
                  exact hEntitled
              | bearer token =>
                  simp [Request.keptSession] at hKept
          | _ =>
              simp [hRequest, Request.keptSession] at hKept
        exact absurd hSigned (hStale.refuses hVersioned)

/- Nothing anybody does makes it valid again. -/
theorem exec
    (hStale : Stale user key state history)
    (hVersioned : runtime.hasTokenVersion = true)
    (hRule :
      runtime.rule (requests thread) (own thread history)
        op) :
    Stale user key (World.exec op state).2
      (⟨thread, op, (World.exec op state).1⟩ ::
        history) := by
  rcases hStale.passed with ⟨row, hRow, hLess⟩
  have hShown (change : SessionChange) (data : SessionData)
      (hOp : op = .sessionModify key change)
      (hRet : HEq (some data) (World.exec op state).1) :
      data.userId = user.id ∧
        data.tokenVersion = some user.tokenVersion := by
    subst hOp
    exact hStale.shown_exec hVersioned hRule
      (eq_of_heq hRet)
  refine ⟨hStale.spent.exec thread, ?_, ?_, ?_, ?_⟩
  · exact ⟨_, World.row?_exec hRow op,
      hLess.trans_le (version_le_rowAfter state op row)⟩
  · intro stored hStored
    rw [World.sessions_exec] at hStored
    rcases sessionAfter_cases hStored with
      ⟨data, ttl, rfl, -⟩ |
        ⟨change, old, rfl, hOld, rfl⟩ | hOld
    · exact absurd hRule.1 (hStale.spent.free thread)
    · refine hShown change _ rfl (heq_of_eq ?_)
      simp only [World.exec]
      rw [hOld]
    · exact hStale.bound stored hOld
  · intro other change data hMem
    rcases List.mem_cons.mp hMem with hNew | hOld
    · rcases Event.mk.inj hNew with ⟨-, hOp, hRet⟩
      exact hShown change data hOp.symm hRet
    · exact hStale.shown other change data hOld
  · intro other change data found hSeen
    by_cases hThread : thread = other
    · subst hThread
      rcases hSeen with ⟨older, hOlder, hModified⟩
      have hOwn :
          own thread
              (⟨thread, op, (World.exec op state).1⟩ ::
                history) =
            ⟨op, (World.exec op state).1⟩ ::
              own thread history :=
        own_cons_self _ _
      rw [hOwn, List.suffix_cons_iff] at hOlder
      rcases hOlder with hNew | hOld
      · obtain ⟨hAction, rfl⟩ := List.cons.inj hNew
        rw [mem_own_iff] at hModified
        have hOwner := (hStale.shown thread change data
          hModified).1
        rcases Concurrency.Action.mk.inj hAction with
          ⟨rfl, hRet⟩
        have hFound :
            some found = state.row? data.userId :=
          eq_of_heq hRet
        rw [hOwner, hRow] at hFound
        obtain rfl := Option.some.inj hFound
        exact hLess
      · exact hStale.seen thread change data found
          ⟨older, hOld, hModified⟩
    · rw [own_cons_of_ne hThread] at hSeen
      exact hStale.seen other change data found hSeen

end Stale

/- Before its key is drawn nobody changes a session. -/
theorem not_modified_of_drawn
    {change : SessionChange}
    {data : SessionData}
    (hStart : start.Tidy)
    (hRuns : runtime.Runs requests condition start []
      state history)
    (hDrawn : Drawn (own creator history) key) :
    (⟨thread, .sessionModify key change, some data⟩ :
      Ev ι) ∉ history := by
  intro hModified
  rcases List.append_of_mem hModified with
    ⟨later, earlier, rfl⟩
  rcases hRuns.at_event with
    ⟨moment, hMoment, -, -, hRet, -, hSince⟩
  have hShown :
      some data =
        (World.exec (.sessionModify key change)
          moment).1 :=
    hRet
  simp only [World.exec] at hShown
  split at hShown
  · cases hShown
  · rename_i stored hStored
    have hSpent := spent_of_session hStart hMoment key
      stored (session?_eq_some.mp hStored).1
    exact (spent_along hSince (hSpent.event hRet)).free
      creator hDrawn

/- A session that is bound to a left epoch stays stale. -/
theorem stale_of_created
    {data : SessionData}
    {ttl : Nat}
    {before : World}
    (hVersioned : runtime.hasTokenVersion = true)
    (hTidy : start.Tidy)
    (hBefore : runtime.Runs requests condition start []
      before earlier)
    (hDrawn : Drawn (own creator earlier) key)
    (hPassed : ∃ row,
      before.row? user.id = some row ∧
        user.tokenVersion < row.tokenVersion)
    (hOwner : data.userId = user.id)
    (hVersion : data.tokenVersion = some user.tokenVersion)
    (hAfter : runtime.Runs requests condition
      (World.exec (.sessionCreate key data ttl) before).2
      (⟨creator, .sessionCreate key data ttl, ()⟩ ::
        earlier)
      state history) :
    Stale user key state history := by
  have hNever (thread : ι) (change : SessionChange)
      (shown : SessionData) :
      (⟨thread, .sessionModify key change, some shown⟩ :
        Ev ι) ∉
        ⟨creator, .sessionCreate key data ttl, ()⟩ ::
          earlier := by
    intro hMem
    rcases List.mem_cons.mp hMem with hSame | hOld
    · cases hSame
    · exact not_modified_of_drawn hTidy hBefore hDrawn hOld
  refine Trace.invariant
    (fun state history => Stale user key state history)
    hAfter ⟨?_, ?_, ?_, ?_, ?_⟩ ?_ ?_
  · exact spent_of_fresh hBefore (fresh_of_drawn hDrawn)
      (by simp)
  · rcases hPassed with ⟨row, hRow, hLess⟩
    exact ⟨_, World.row?_exec hRow _, hLess.trans_le
      (version_le_rowAfter before _ row)⟩
  · intro stored hStored
    rw [World.sessions_exec] at hStored
    obtain rfl := by
      simpa [World.sessionAfter] using hStored
    exact ⟨hOwner, hVersion⟩
  · intro thread change shown hMem
    exact absurd hMem (hNever thread change shown)
  · intro thread change shown found hSeen
    rcases hSeen with ⟨older, hOlder, hModified⟩
    have hMem := hOlder.subset
      (List.mem_cons_of_mem _ hModified)
    rw [mem_own_iff] at hMem
    exact absurd hMem (hNever thread change shown)
  · intro state history active op _ hRule _ hStale
    exact hStale.exec hVersioned hRule
  · intro state history tick hStale
    exact ⟨hStale.spent.tick tick, hStale.passed,
      hStale.bound, hStale.shown, hStale.seen⟩

------------------------------------------------------------
-- Evicted Sessions
------------------------------------------------------------

/-
  A session that was there when the index was read, and
  cleared if it was listed, is dead.
-/
theorem session_gone_of_evicted
    {data : SessionData}
    {ttl : Nat}
    {ids : List Nat}
    {older : List (Ev ι)}
    (hTidy : start.Tidy)
    (hRuns : runtime.Runs requests condition start []
      state history)
    (hListing :
      (⟨thread, .userSessions data.userId, ids⟩ :: older) <:+
        history)
    (hCreated :
      (⟨creator, .sessionCreate key data ttl, ()⟩ : Ev ι) ∈
        older)
    (hCleared : key ∈ ids →
      Runtime.Cleared (own thread history) data.userId ids
        key) :
    state.session? key = none := by
  by_cases hKey : key ∈ ids
  · exact session_gone_of_cleared hTidy hRuns
      (hCleared hKey) hKey
  rcases hListing with ⟨later, rfl⟩
  rcases hRuns.at_event with
    ⟨moment, hMoment, -, -, hRet, -, hAfter⟩
  obtain rfl : ids = moment.userIndex data.userId := hRet
  rcases List.append_of_mem hCreated with
    ⟨between, oldest, rfl⟩
  rcases hMoment.at_event with
    ⟨before, hBefore, hRule, -, -, -, hSince⟩
  have hDrawn : Drawn (own creator oldest) key := hRule.1
  have hSpent :
      Spent
        (World.exec (.sessionCreate key data ttl) before).2
        (⟨creator, .sessionCreate key data ttl, ()⟩ ::
          oldest) key :=
    spent_of_fresh hBefore (fresh_of_drawn hDrawn) (by simp)
  have hOwner := owner_along hSince hSpent (by
    intro stored hStored
    rw [World.sessions_exec] at hStored
    obtain rfl := by
      simpa [World.sessionAfter] using hStored
    rfl)
  have hGone : moment.session? key = none := by
    by_contra hLive
    rcases Option.ne_none_iff_exists'.mp hLive with
      ⟨stored, hStored⟩
    have hListed :=
      listed_of_runs hTidy hMoment key stored hStored
    rw [hOwner stored (session?_eq_some.mp hStored).1]
      at hListed
    exact hKey hListed
  exact session_gone_along hAfter
    ((spent_along hSince hSpent).event rfl) hGone

end CrudAuth
