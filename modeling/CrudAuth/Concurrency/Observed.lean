import CrudAuth.Concurrency.Interleaving

/-
  Runs whose histories remember the states they went
  through: an observed machine answers every operation
  together with the state it was performed in.  Programs
  do not see these states.

  Main declarations:
    * `Machine.observed`
    * `Program.observed`
    * `Program.Obeys.observed`
    * `Trace.at_moment`
    * `Trace.since`
    * `split_of_seen`
-/

------------------------------------------------------------
-- Observed Machines
------------------------------------------------------------

namespace CrudAuth

namespace Concurrency

variable {I : Interface}
variable {σ ε α : Type}

/- Every answer comes with the state it was given in. -/
abbrev observed (I : Interface) (σ : Type) : Interface where
  Op := I.Op
  Ret := fun op => I.Ret op × σ

/- What a program has seen of an observed action. -/
def seen (action : Action (observed I σ)) : Action I :=
  ⟨action.op, action.ret.1⟩

/- A machine whose answers tell the state, too. -/
def Machine.observed
    (machine : Machine I σ) :
    Machine (observed I σ) σ where
  Tick := machine.Tick
  exec := fun op state =>
    (((machine.exec op state).1, state),
      (machine.exec op state).2)
  tick := machine.tick

/- The state an event happened in. -/
def Event.moment
    {ι : Type}
    (event : Event ι (Concurrency.observed I σ)) : σ :=
  event.ret.2

/- A contract, where programs are observed. -/
def Contract.observed
    (contract : Contract I)
    (σ : Type) :
    Contract (Concurrency.observed I σ) where
  rule := fun past op => contract.rule (past.map seen) op
  answer := fun op ret => contract.answer op ret.1

namespace Program

/- A program whose answers are observed. -/
def observed (σ : Type) :
    Program I ε α →
    Program (Concurrency.observed I σ) ε α
  | .done value => .done value
  | .raise error => .raise error
  | .perform op next =>
      .perform op fun ret => (next ret.1).observed σ

/- An observed program keeps to the same contract. -/
theorem Obeys.observed
    {contract : Contract I}
    {program : Program I ε α}
    {past : List (Action (Concurrency.observed I σ))}
    {post : List (Action I) → Except ε α → Prop}
    (hObeys : program.Obeys contract (past.map seen) post) :
    (program.observed σ).Obeys (contract.observed σ) past
      fun past result => post (past.map seen) result := by
  induction program generalizing past with
  | done value => exact hObeys
  | raise error => exact hObeys
  | perform op next ih =>
      constructor
      · exact hObeys.1
      · intro ret hAnswer
        apply ih
        exact hObeys.2 ret.1 hAnswer

end Program

------------------------------------------------------------
-- Observed Traces
------------------------------------------------------------

namespace Trace

variable {ι : Type} [DecidableEq ι]
variable {machine : Machine I σ}
variable {contract : ι → Contract (observed I σ)}
variable {condition : Condition ι (observed I σ) σ}
variable {start state : σ}
variable {later earlier history :
  List (Event ι (observed I σ))}
variable {event : Event ι (observed I σ)}

/-
  An event of an observed trace: its moment is the state it
  was performed in, and its answer the machine's.
-/
theorem at_moment
    (hTrace : Trace machine.observed contract condition
      start [] state (later ++ event :: earlier)) :
    Trace machine.observed contract condition start []
      event.moment earlier ∧
    (contract event.thread).rule
      (own event.thread earlier) event.op ∧
    condition event.moment earlier event.thread event.op ∧
    event.ret.1 =
      (machine.exec event.op event.moment).1 := by
  rcases hTrace.at_event with
    ⟨before, hBefore, hRule, hAllowed, hRet, -, -⟩
  have hAnswer :
      event.ret =
        ((machine.exec event.op before).1, before) :=
    hRet
  have hMoment : event.moment = before :=
    congrArg (fun ret => ret.2) hAnswer
  rw [hMoment]
  exact ⟨hBefore, hRule, hAllowed,
    congrArg (fun ret => ret.1) hAnswer⟩

/-
  What an event brings about, and what every later event
  and tick keeps, still holds where the trace ends.
-/
theorem since
    (holds : σ → Prop)
    (keeps : Event ι (observed I σ) → Prop)
    (hTrace : Trace machine.observed contract condition
      start [] state (later ++ event :: earlier))
    (hEvent :
      holds (machine.exec event.op event.moment).2)
    (hLater : ∀ newer ∈ later, keeps newer)
    (hStep : ∀ before thread op,
      holds before →
      keeps ⟨thread, op,
        ((machine.exec op before).1, before)⟩ →
      holds (machine.exec op before).2)
    (hTick : ∀ before tick,
      holds before → holds (machine.tick tick before)) :
    holds state := by
  generalize hHistory : later ++ event :: earlier = all
    at hTrace
  induction hTrace generalizing later with
  | start => simp at hHistory
  | @perform before history thread op hTrace hRule
      hCondition ih =>
      cases later with
      | nil =>
          obtain ⟨rfl, rfl⟩ := by simpa using hHistory
          exact hEvent
      | cons newest later =>
          obtain ⟨rfl, hRest⟩ := by simpa using hHistory
          apply hStep before thread op
          · apply ih _ hRest
            intro newer hNewer
            exact hLater newer
              (List.mem_cons_of_mem _ hNewer)
          · exact hLater _ List.mem_cons_self
  | tick _ tick ih =>
      exact hTick _ tick (ih hLater hHistory)

end Trace

/- What a thread has seen, it has done in the history. -/
theorem split_of_seen
    {ι : Type} [DecidableEq ι]
    {thread : ι}
    {history : List (Event ι (observed I σ))}
    {newer older : List (Action I)}
    {action : Action I}
    (hSeen :
      (own thread history).map seen =
        newer ++ action :: older) :
    ∃ later moment earlier,
      history =
        later ++
          ⟨thread, action.op, (action.ret, moment)⟩ ::
            earlier ∧
      (own thread later).map seen = newer ∧
      (own thread earlier).map seen = older := by
  induction history generalizing newer with
  | nil => simp at hSeen
  | cons event history ih =>
      by_cases hThread : event.thread = thread
      · subst hThread
        rw [own_cons_self, List.map_cons] at hSeen
        cases newer with
        | nil =>
            obtain ⟨rfl, rfl⟩ := by simpa using hSeen
            exact ⟨[], event.moment, history, rfl, rfl, rfl⟩
        | cons newest newer =>
            obtain ⟨rfl, hRest⟩ := by simpa using hSeen
            rcases ih hRest with
              ⟨later, moment, earlier, rfl, rfl, rfl⟩
            refine ⟨event :: later, moment, earlier, rfl, ?_,
              rfl⟩
            rw [own_cons_self, List.map_cons]
      · rw [own_cons_of_ne hThread] at hSeen
        rcases ih hSeen with
          ⟨later, moment, earlier, rfl, rfl, rfl⟩
        refine ⟨event :: later, moment, earlier, rfl,
          ?_, rfl⟩
        rw [own_cons_of_ne hThread]

/- The newest of what a thread has seen. -/
theorem split_of_newest
    {ι : Type} [DecidableEq ι]
    {thread : ι}
    {history : List (Event ι (observed I σ))}
    {older : List (Action I)}
    {action : Action I}
    (hSeen :
      (own thread history).map seen = action :: older) :
    ∃ later moment earlier,
      history =
        later ++
          ⟨thread, action.op, (action.ret, moment)⟩ ::
            earlier ∧
      (own thread earlier).map seen = older := by
  have hSplit :
      (own thread history).map seen =
        [] ++ action :: older :=
    hSeen
  rcases split_of_seen hSplit with
    ⟨later, moment, earlier, hHistory, -, hOlder⟩
  exact ⟨later, moment, earlier, hHistory, hOlder⟩

end Concurrency

end CrudAuth
