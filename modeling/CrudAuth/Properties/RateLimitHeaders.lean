import CrudAuth.Properties.Budgets

/-
  What a response tells of the budgets its request has
  spent, whatever becomes of the request: unless something
  is raised that nothing handles, which tells nothing.

  Main declarations:
    * `Billed`
    * `Tightest`
    * `tightest_of_append`
    * `Reported`
    * `reported_of_run`
-/

namespace CrudAuth

open RateLimit
open Storage (Text)

namespace Limits

/- The headers that tell of a budget. -/
abbrev headerNames : List String :=
  ["X-RateLimit-Limit", "X-RateLimit-Remaining"]

section Definitions

variable {limiter : WindowLimiter}
variable (settings : Settings)
variable (log : List (Event × Progress limiter))
variable (requestId : Nat)

/- What one of a request's limiters has left for it. -/
def Billed (headers : Headers) : Prop :=
  ∃ before elapsed waited turn met rest limit budget,
    log = before ++
      (.turn elapsed waited turn, met) :: rest ∧
      turn.requestId = requestId ∧
      (Event.turn elapsed waited turn).limit settings =
        some limit ∧
      (Event.turn elapsed waited turn).budget settings =
        some budget ∧
      let read := met.now + elapsed - waited
      let spent := before.countP
        (spends settings budget (limit.window read))
      headers =
        { limit := limit.times
          remaining := limit.times - (spent + 1) }

/- What is recorded is the least of them. -/
structure Tightest (recorded : Option Headers) : Prop where
  least : ∀ headers, Billed settings log requestId headers →
    ∃ shown, recorded = some shown ∧
      shown.remaining ≤ headers.remaining
  among : ∀ shown, recorded = some shown →
    Billed settings log requestId shown

/- A turn of the request that is counted. -/
def Counts (event : Event) : Prop :=
  ∃ elapsed waited turn limit,
    event = .turn elapsed waited turn ∧
      turn.requestId = requestId ∧
      event.limit settings = some limit

/- The turns of a request count before their windows end. -/
def RequestOnTime : Prop :=
  ∀ elapsed waited turn met,
    (Event.turn elapsed waited turn, met) ∈ log →
      turn.requestId = requestId →
        OnTime settings (.turn elapsed waited turn, met)

/- How a request may end that has come this far. -/
def Possible : Ending → Prop
  | .returned values =>
      ∀ name ∈ headerNames, values name = none
  | .handled values =>
      ∀ name ∈ headerNames, values name = none
  | .unhandled values =>
      ∀ name ∈ headerNames, values name = none
  | .limited retryAfter headers =>
      ∃ elapsed waited turn met,
        (Event.turn elapsed waited turn, met) ∈ log ∧
          turn.requestId = requestId ∧
          (met.enforced settings elapsed waited
            turn).answer =
            .raised (tooManyRequests retryAfter)
              (some headers)

/-
  However the request ends, if it ends inside the middleware
  the response that leaves has the headers of the budget that
  is closest to running out, or none if there is no budget.
  The `500` for what nothing handles has none either way.
-/
structure Reported (recorded : Option Headers) : Prop where
  counted : ∀ ending,
    Possible settings log requestId ending →
    ending.inside →
    (∃ headers, Billed settings log requestId headers) →
      ∃ headers, Billed settings log requestId headers ∧
        (∀ other, Billed settings log requestId other →
          headers.remaining ≤ other.remaining) ∧
        ∀ item ∈ headers.items,
          ending.sent recorded item.1 = some item.2
  uncounted : ∀ ending,
    Possible settings log requestId ending →
    (∀ headers, ¬ Billed settings log requestId headers) →
      ∀ name ∈ headerNames, ending.sent recorded name = none
  unhandled : ∀ ending,
    Possible settings log requestId ending →
    ¬ ending.inside →
      ∀ name ∈ headerNames, ending.sent recorded name = none

end Definitions

------------------------------------------------------------
-- One Event
------------------------------------------------------------

section Next

variable {limiter : WindowLimiter}
variable {settings : Settings}
variable {progress : Progress limiter}
variable {requestId : Nat}

/- The recorded headers are replaced by closer ones only. -/
theorem remaining_recordRateLimitHeaders
    (recorded : Option Headers)
    (headers : Headers) :
    (recordRateLimitHeaders recorded headers).remaining ≤
        headers.remaining ∧
      ∀ shown, recorded = some shown →
        (recordRateLimitHeaders recorded headers).remaining ≤
          shown.remaining := by
  cases recorded with
  | none =>
      refine ⟨Nat.le_refl _, fun shown hShown => ?_⟩
      cases hShown
  | some closer =>
      unfold recordRateLimitHeaders
      dsimp only
      split
      · rename_i hLe
        refine ⟨hLe, fun shown hShown => ?_⟩
        cases hShown
        exact Nat.le_refl _
      · rename_i hGt
        refine ⟨Nat.le_refl _, fun shown hShown => ?_⟩
        cases hShown
        omega

/- What is recorded is one of the two. -/
theorem recordRateLimitHeaders_cases
    (recorded : Option Headers)
    (headers : Headers) :
    recordRateLimitHeaders recorded headers = headers ∨
      recorded =
        some (recordRateLimitHeaders recorded headers) := by
  cases recorded with
  | none => exact Or.inl rfl
  | some closer =>
      unfold recordRateLimitHeaders
      dsimp only
      split
      · exact Or.inr rfl
      · exact Or.inl rfl

/- Only a turn of the request itself records anything. -/
theorem recorded_next_of_not_counted
    {event : Event}
    (hOther : ¬ Counts settings requestId event) :
    (progress.next settings event).recorded requestId =
      progress.recorded requestId := by
  cases event with
  | turn elapsed waited turn =>
      by_cases hOwn : turn.requestId = requestId
      · subst hOwn
        have hCharge :
            (Event.turn elapsed waited turn).charge
              settings =
              none := by
          rw [Option.eq_none_iff_forall_ne_some]
          intro charged hCharge
          exact hOther
            ⟨elapsed, waited, turn, charged.2, rfl,
            rfl, congrArg (Option.map Prod.snd) hCharge⟩
        exact (Function.update_self _ _ _).trans
          (enforced_of_not_charged hCharge).2.1
      · exact Function.update_of_ne (Ne.symm hOwn) _ _
  | email elapsed waited action email asked => rfl
  | purge elapsed purged => rfl

end Next

/- The headers of a call counted exactly. -/
theorem headers_of_exactly
    {key : Text}
    {limit : RateLimit}
    {read spent : Nat}
    {counted : Int × Bool × Nat}
    (hCounted :
      counted =
        (windowCall key limit).exactly read (spent + 1)) :
    headersOf limit counted.1 counted.2.1 =
      { limit := limit.times
        remaining := limit.times - (spent + 1) } := by
  rw [hCounted]
  exact (@exactly_windowCall key limit read spent).2.1

/- A turn that counts records what its budget has left. -/
theorem recorded_next_of_log
    {deployment : Deployment}
    {settings : Settings}
    {events : List Event}
    {start : Nat}
    (hSound :
      deployment.Sound
        (windowsOf (events.map (Event.seen settings)) start))
    (hOrderly : Orderly settings events)
    {before rest :
      List (Event × Progress deployment.limiter)}
    {met : Progress deployment.limiter}
    {elapsed waited : Nat}
    {turn : Turn}
    (hLog :
      Progress.log settings events
          (Progress.start deployment.limiter start) =
        before ++ (.turn elapsed waited turn, met) :: rest)
    {key : Text}
    {limit : RateLimit}
    {budget : Budget}
    (hCharge :
      (Event.turn elapsed waited turn).charge settings =
        some (key, limit))
    (hBudget :
      (Event.turn elapsed waited turn).budget settings =
        some budget)
    (hTime :
      OnTime settings (.turn elapsed waited turn, met)) :
    let read := met.now + elapsed - waited
    let spent := before.countP
      (spends settings budget (limit.window read))
    (met.next settings
        (.turn elapsed waited turn)).recorded
          turn.requestId =
      some (recordRateLimitHeaders
        (met.recorded turn.requestId)
        { limit := limit.times
          remaining := limit.times - (spent + 1) }) := by
  have hCheck := check_of_log hSound hOrderly hLog hCharge
    hBudget hTime
  have hRecorded := (@enforced_of_charge deployment.limiter
    settings met key limit elapsed waited turn hCharge).2.1
  intro read spent
  have hHeaders :=
    congrArg (recordRateLimitHeaders
      (met.recorded turn.requestId))
        (headers_of_exactly hCheck)
  exact (Function.update_self _ _ _).trans
    (hRecorded.trans (congrArg some hHeaders))

------------------------------------------------------------
-- Runs
------------------------------------------------------------

section Runs

variable {limiter : WindowLimiter}
variable {settings : Settings}
variable {requestId : Nat}
variable {log : List (Event × Progress limiter)}
variable {headers : Headers}

/- A longer log has the bills of the shorter. -/
theorem Billed.append
    (hBilled : Billed settings log requestId headers)
    (entry : Event × Progress limiter) :
    Billed settings (log ++ [entry]) requestId headers := by
  rcases hBilled with
    ⟨before, elapsed, waited, turn, met, rest, limit, budget,
      rfl, hRest⟩
  refine ⟨before, elapsed, waited, turn, met, rest ++
    [entry],
    limit, budget, ?_, hRest⟩
  rw [List.append_assoc, List.cons_append]

/- The last bill of a log is that of its last entry. -/
theorem billed_append_cases
    {event : Event}
    {met : Progress limiter}
    (hBilled :
      Billed settings (log ++ [(event, met)]) requestId
        headers) :
    Billed settings log requestId headers ∨
      ∃ elapsed waited turn limit budget,
        event = .turn elapsed waited turn ∧
          turn.requestId = requestId ∧
          event.limit settings = some limit ∧
          event.budget settings = some budget ∧
          let read := met.now + elapsed - waited
          headers =
            { limit := limit.times
              remaining := limit.times -
                (log.countP (spends settings budget
                  (limit.window read)) + 1) } := by
  rcases hBilled with
    ⟨before, elapsed, waited, turn, found, rest, limit,
      budget, hLog, hOwn, hLimit, hBudget, hHeaders⟩
  rcases List.eq_nil_or_concat rest with
    rfl | ⟨rest, last, rfl⟩
  · rcases List.append_inj' hLog rfl with ⟨rfl, hLast⟩
    cases hLast
    exact Or.inr ⟨elapsed, waited, turn, limit, budget, rfl,
      hOwn, hLimit, hBudget, hHeaders⟩
  · rw [List.concat_eq_append, ← List.cons_append,
      ← List.append_assoc] at hLog
    rcases List.append_inj' hLog rfl with ⟨hLog, _⟩
    exact Or.inl ⟨before, elapsed, waited, turn, found, rest,
      limit, budget, hLog, hOwn, hLimit, hBudget, hHeaders⟩

/- The log of a run in two parts. -/
theorem log_append
    {settings : Settings}
    {first later : List Event}
    {progress : Progress limiter} :
    Progress.log settings (first ++ later) progress =
      Progress.log settings first progress ++
        Progress.log settings later
          (first.foldl (Progress.next settings)
            progress) := by
  induction first generalizing progress with
  | nil => rfl
  | cons event first ih =>
      exact congrArg (List.cons (event, progress)) ih

/- Without a call nothing is recorded. -/
theorem tightest_nil :
    Tightest settings ([] : List (Event × Progress limiter))
      requestId none where
  least := by
    rintro headers ⟨before, _, _, _, _, rest, _, _, hLog, _⟩
    exact absurd hLog.symm (by simp)
  among := by
    intro shown hShown
    cases hShown

/- One that is not counted changes nothing. -/
theorem Tightest.of_not_counted
    {event : Event}
    {met : Progress limiter}
    (hTightest :
      Tightest settings log requestId
        (met.recorded requestId))
    (hOther : ¬ Counts settings requestId event) :
    Tightest settings (log ++ [(event, met)]) requestId
      ((met.next settings event).recorded requestId) := by
  rw [recorded_next_of_not_counted hOther]
  constructor
  · intro headers hBilled
    rcases billed_append_cases hBilled with hBefore | hLast
    · exact hTightest.least headers hBefore
    · rcases hLast with
        ⟨elapsed, waited, turn, limit, _, hEvent, hOwn,
          hLimit, _⟩
      exact absurd ⟨elapsed, waited, turn, limit, hEvent,
        hOwn, hLimit⟩ hOther
  · intro shown hShown
    exact (hTightest.among shown hShown).append _

/- The turn that is counted is the one that is billed. -/
theorem Tightest.of_recorded
    {event : Event}
    {met : Progress limiter}
    (hTightest :
      Tightest settings log requestId
        (met.recorded requestId))
    (hBill :
      Billed settings (log ++ [(event, met)]) requestId
        headers)
    (hOnly : ∀ other,
      Billed settings (log ++ [(event, met)]) requestId
          other →
        Billed settings log requestId other ∨
          other = headers)
    (hRecorded :
      (met.next settings event).recorded requestId =
        some (recordRateLimitHeaders
          (met.recorded requestId) headers)) :
    Tightest settings (log ++ [(event, met)]) requestId
      ((met.next settings event).recorded requestId) := by
  rw [hRecorded]
  have hLe := remaining_recordRateLimitHeaders
    (met.recorded requestId) headers
  constructor
  · intro other hOther
    refine ⟨_, rfl, ?_⟩
    rcases hOnly other hOther with hBefore | rfl
    · rcases hTightest.least other hBefore with
        ⟨shown, hShown, hLeast⟩
      exact (hLe.2 shown hShown).trans hLeast
    · exact hLe.1
  · intro shown hShown
    cases hShown
    rcases recordRateLimitHeaders_cases
        (met.recorded requestId) headers with hNew | hOld
    · rw [hNew]
      exact hBill
    · exact (hTightest.among _ hOld).append _

end Runs

section Logs

variable {deployment : Deployment}
variable {settings : Settings}
variable {events : List Event}
variable {start : Nat}
variable {requestId : Nat}

/- So far in a run, what is recorded is the least. -/
theorem tightest_of_append
    (hSound :
      deployment.Sound
        (windowsOf (events.map (Event.seen settings)) start))
    (hOrderly : Orderly settings events)
    (hOnTime :
      RequestOnTime settings
        (Progress.log settings events
          (Progress.start deployment.limiter start))
        requestId)
    {first later : List Event}
    (hEvents : events = first ++ later) :
    let begun := Progress.start deployment.limiter start
    Tightest settings (Progress.log settings first begun)
      requestId
      ((first.foldl (Progress.next settings) begun).recorded
        requestId) := by
  intro begun
  induction first using List.reverseRecOn
    generalizing later with
  | nil => exact tightest_nil
  | append_singleton first event ih =>
      rw [List.append_assoc] at hEvents
      have hTightest := ih hEvents
      have hLog :
          Progress.log settings events begun =
            Progress.log settings first begun ++
              (event, first.foldl (Progress.next settings)
                begun) ::
                Progress.log settings later
                  ((first.foldl (Progress.next settings)
                    begun).next settings event) := by
        rw [hEvents]
        exact log_append
      have hMem : event ∈ events := by
        rw [hEvents]
        exact List.mem_append_right _ List.mem_cons_self
      rw [log_append, List.foldl_append]
      by_cases hCounts : Counts settings requestId event
      · rcases hCounts with
          ⟨elapsed, waited, turn, limit, rfl, hOwn, hLimit⟩
        subst hOwn
        rcases charge_of_limit hLimit with ⟨key, hCharge⟩
        rcases keyed_of_charge hOrderly hMem hCharge with
          ⟨payer, hBudget, _⟩
        have hTime := hOnTime elapsed waited turn _
          (by
            rw [hLog]
            exact List.mem_append_right _ List.mem_cons_self)
          rfl
        have hRecorded :=
          recorded_next_of_log hSound hOrderly
          hLog hCharge hBudget hTime
        refine hTightest.of_recorded
          ⟨_, elapsed, waited, turn, _, [], limit, _,
            rfl, rfl,
            hLimit, hBudget, rfl⟩ ?_ hRecorded
        intro other hOther
        rcases billed_append_cases hOther with
          hBefore | hLast
        · exact Or.inl hBefore
        · rcases hLast with
            ⟨elapsed', waited', turn', limit', budget',
              hSame,
              _, hLimit', hBudget', hBill⟩
          cases hSame
          cases hLimit.symm.trans hLimit'
          cases hBudget.symm.trans hBudget'
          exact Or.inr hBill
      · exact hTightest.of_not_counted hCounts

/- A limiter that refuses has nothing left. -/
theorem billed_of_refused
    (hSound :
      deployment.Sound
        (windowsOf (events.map (Event.seen settings)) start))
    (hOrderly : Orderly settings events)
    {before rest :
      List (Event × Progress deployment.limiter)}
    {met : Progress deployment.limiter}
    {elapsed waited : Nat}
    {turn : Turn}
    (hLog :
      Progress.log settings events
          (Progress.start deployment.limiter start) =
        before ++ (.turn elapsed waited turn, met) :: rest)
    (hTime :
      OnTime settings (.turn elapsed waited turn, met))
    {error : HttpError}
    {headers : Headers}
    (hAnswer :
      (met.enforced settings elapsed waited turn).answer =
        .raised error (some headers)) :
    headers.remaining = 0 ∧
      Billed settings
        (Progress.log settings events
          (Progress.start deployment.limiter start))
        turn.requestId headers := by
  cases hCharge :
      (Event.turn elapsed waited turn).charge settings with
  | none =>
      have hNone := (@enforced_of_not_charged
        deployment.limiter settings met elapsed waited turn
        hCharge).1
      rw [hAnswer] at hNone
      cases hNone
  | some charged =>
      rcases charged with ⟨key, limit⟩
      have hMem :
          Event.turn elapsed waited turn ∈ events := by
        rcases split_of_log hLog with ⟨first, later, rfl, _⟩
        exact List.mem_append_right _ List.mem_cons_self
      have hLimit :
          (Event.turn elapsed waited turn).limit settings =
            some limit :=
        congrArg (Option.map Prod.snd) hCharge
      rcases keyed_of_charge hOrderly hMem hCharge with
        ⟨payer, hBudget, _⟩
      have hExact :=
        answer_of_log hSound hOrderly hLog hLimit
        hBudget hTime
      dsimp only at hExact
      rw [hAnswer] at hExact
      unfold RateLimit.answer at hExact
      split at hExact
      · cases hExact
      · rename_i hSpent
        injection hExact with _ hHeaders
        cases hHeaders
        refine ⟨Nat.sub_eq_zero_of_le (by omega), before,
          elapsed, waited, turn, met, rest, limit, _,
            hLog, rfl,
          hLimit, hBudget, rfl⟩

end Logs

------------------------------------------------------------
-- Responses
------------------------------------------------------------

section Responses

variable {headers shown : Headers}
variable {item : String × Text}
variable {values : Values}

/- A header that is absent is added. -/
theorem sendWithHeaders_of_absent
    (hAbsent : ∀ name ∈ headerNames, values name = none)
    (hItem : item ∈ shown.items) :
    sendWithHeaders (some shown) values item.1 =
      some item.2 := by
  have hLimit := hAbsent _ List.mem_cons_self
  have hRemaining := hAbsent _
    (List.mem_cons_of_mem _ List.mem_cons_self)
  rcases List.mem_pair.mp hItem with rfl | rfl <;>
    simp [sendWithHeaders, Headers.items, Values.set,
      Function.update, hLimit, hRemaining]

/- What is there already is left as it is. -/
theorem sendWithHeaders_of_present
    {recorded : Option Headers}
    (hPresent :
      ∀ item ∈ headers.items, values item.1 = some item.2)
    (hItem : item ∈ headers.items) :
    sendWithHeaders recorded values item.1 =
      some item.2 := by
  have hLimit := hPresent _ List.mem_cons_self
  have hRemaining := hPresent _
    (List.mem_cons_of_mem _ List.mem_cons_self)
  cases recorded with
  | none => exact hPresent item hItem
  | some shown =>
      rcases List.mem_pair.mp hItem with rfl | rfl <;>
        simp [sendWithHeaders, Headers.items, hLimit,
          hRemaining]

/- A returned response carries the headers. -/
theorem values_returned
    (hAbsent : ∀ name ∈ headerNames, values name = none)
    (hItem : item ∈ shown.items) :
    (Ending.returned values).values (some shown) item.1 =
      some item.2 := by
  have hLimit := hAbsent _ List.mem_cons_self
  have hRemaining := hAbsent _
    (List.mem_cons_of_mem _ List.mem_cons_self)
  rcases List.mem_pair.mp hItem with rfl | rfl
  · exact congrArg (Option.or · (some (digits shown.limit)))
      hLimit
  · exact congrArg
      (Option.or · (some (digits shown.remaining)))
      hRemaining

theorem values_limited
    {retryAfter : Nat}
    {recorded : Option Headers}
    (hItem : item ∈ headers.items) :
    (Ending.limited retryAfter headers).values recorded
        item.1 =
      some item.2 := by
  rcases List.mem_pair.mp hItem with rfl | rfl <;>
    simp [Ending.values, Headers.items, Values.set,
      Function.update]

end Responses

section Reports

variable {deployment : Deployment}
variable {settings : Settings}
variable {events : List Event}
variable {start : Nat}
variable {requestId : Nat}

/- A request that a limiter ends was billed by it. -/
theorem billed_of_limited
    (hSound :
      deployment.Sound
        (windowsOf (events.map (Event.seen settings)) start))
    (hOrderly : Orderly settings events)
    {log : List (Event × Progress deployment.limiter)}
    (hLog :
      Progress.log settings events
          (Progress.start deployment.limiter start) =
        log)
    (hOnTime : RequestOnTime settings log requestId)
    {retryAfter : Nat}
    {headers : Headers}
    (hPossible :
      Possible settings log requestId
        (.limited retryAfter headers)) :
    headers.remaining = 0 ∧
      Billed settings log requestId headers := by
  rcases hPossible with
    ⟨elapsed, waited, turn, met, hMem, rfl, hAnswer⟩
  have hTime := hOnTime elapsed waited turn met hMem rfl
  rcases List.append_of_mem hMem with ⟨before, rest, hSplit⟩
  have hBilled := billed_of_refused hSound hOrderly
    (hLog.trans hSplit) hTime hAnswer
  rw [hLog] at hBilled
  exact hBilled

/-
  What is recorded, or refused, is the least that is left.
-/
theorem least_of_possible
    (hSound :
      deployment.Sound
        (windowsOf (events.map (Event.seen settings)) start))
    (hOrderly : Orderly settings events)
    {log : List (Event × Progress deployment.limiter)}
    (hLog :
      Progress.log settings events
          (Progress.start deployment.limiter start) =
        log)
    (hOnTime : RequestOnTime settings log requestId)
    {shown : Headers}
    (hTightest :
      Tightest settings log requestId (some shown))
    {ending : Ending}
    (hPossible :
      Possible settings log requestId ending)
    (hInside : ending.inside) :
    ∃ headers, Billed settings log requestId headers ∧
      headers.remaining ≤ shown.remaining ∧
      ∀ item ∈ headers.items,
        ending.sent (some shown) item.1 = some item.2 := by
  rw [Ending.sent_of_inside hInside]
  cases ending with
  | returned values =>
      exact ⟨shown, hTightest.among shown rfl,
        Nat.le_refl _, fun item hItem =>
          sendWithHeaders_of_present
            (fun item hItem =>
              values_returned hPossible hItem)
            hItem⟩
  | handled values =>
      exact ⟨shown, hTightest.among shown rfl,
        Nat.le_refl _, fun item hItem =>
          sendWithHeaders_of_absent hPossible hItem⟩
  | unhandled values => cases hInside
  | limited retryAfter headers =>
      rcases billed_of_limited hSound hOrderly hLog hOnTime
          hPossible with
        ⟨hNothing, hBilled⟩
      refine ⟨headers, hBilled, by omega,
        fun item hItem => ?_⟩
      exact sendWithHeaders_of_present
        (fun item hItem => values_limited hItem) hItem

/-
  In every run, on every backend, responses tell what is
  left of the tightest budget.
-/
theorem reported_of_run
    (deployment : Deployment)
    (settings : Settings)
    (events : List Event)
    (start requestId : Nat)
    (hSound :
      deployment.Sound
        (windowsOf (events.map (Event.seen settings)) start))
    (hOrderly : Orderly settings events)
    (hOnTime :
      RequestOnTime settings
        (Progress.log settings events
          (Progress.start deployment.limiter start))
        requestId) :
    Reported settings
      (Progress.log settings events
        (Progress.start deployment.limiter start))
      requestId
      ((events.foldl (Progress.next settings)
        (Progress.start deployment.limiter start)).recorded
          requestId) := by
  have hTightest :=
    tightest_of_append hSound hOrderly hOnTime
    (List.append_nil events).symm
  dsimp only at hTightest
  constructor
  · rintro ending hPossible hInside ⟨headers, hBilled⟩
    rcases hTightest.least headers hBilled with
      ⟨shown, hShown, _⟩
    rw [hShown] at hTightest ⊢
    rcases least_of_possible hSound hOrderly rfl hOnTime
        hTightest hPossible hInside with
      ⟨least, hLeast, hLe, hItems⟩
    refine ⟨least, hLeast, fun other hOther => ?_, hItems⟩
    rcases hTightest.least other hOther with
      ⟨_, hSame, hOtherLe⟩
    cases hSame
    exact hLe.trans hOtherLe
  · intro ending hPossible hNever name hName
    have hNone : ((events.foldl (Progress.next settings)
        (Progress.start deployment.limiter start)).recorded
          requestId) = none := by
      rw [Option.eq_none_iff_forall_ne_some]
      intro shown hShown
      exact hNever shown (hTightest.among shown hShown)
    rw [hNone]
    cases ending with
    | returned values =>
        have hAbsent := hPossible name hName
        simp [Ending.sent, Ending.inside, sendWithHeaders,
          Ending.values, hAbsent]
    | handled values => exact hPossible name hName
    | unhandled values => exact hPossible name hName
    | limited retryAfter headers =>
        have hBilled :=
          (billed_of_limited hSound hOrderly rfl
          hOnTime hPossible).2
        exact absurd hBilled (hNever headers)
  · intro ending hPossible hOutside name hName
    cases ending with
    | returned values => exact absurd rfl hOutside
    | handled values => exact absurd rfl hOutside
    | limited retryAfter headers => exact absurd rfl hOutside
    | unhandled values => exact hPossible name hName

end Reports

/- The first address's route fails: nothing is left. -/
namespace Rotated

/- The closer budget of the sample run. -/
theorem rotated_reported :
    Reported settings
      (Progress.log settings [first, second]
        (Progress.start Deployment.memory.limiter 0)) 1
      (some ⟨1, 0⟩) := by
  have hOnTime :
      RequestOnTime settings
        (Progress.log settings [first, second]
          (Progress.start Deployment.memory.limiter 0))
            1 := by
    intro elapsed waited turn found hMem hOwn
    rcases List.mem_pair.mp hMem with hSame | hSame
    · cases hSame
      intro asked hAsked
      cases hAsked
      decide
    · cases hSame
      cases hOwn
  exact reported_of_run .memory settings [first, second] 0 1
    trivial orderly hOnTime

end Rotated

end Limits

end CrudAuth
