import CrudAuth.Concurrency.Program
import Mathlib.Logic.Function.Basic

/-
  Interleaved runs of a pool of programs over one state.

  A machine answers operations and lets its environment
  move between them.  A run records every operation with
  its answer in a history, newest first.  A condition can
  restrict the steps a run takes.

  Main declarations:
    * `Reaches`
    * `Config.run`
    * `Reaches.of_run`
    * `Trace`
    * `Reaches.trace`
    * `Trace.invariant`
    * `Trace.at_event`
    * `Trace.at_member`
    * `Trace.at_events`
    * `Trace.claimed_once`
    * `own_split`
    * `order_of_splits`
-/

------------------------------------------------------------
-- Machines And Histories
------------------------------------------------------------

namespace CrudAuth

namespace Concurrency

/- Answers operations; `tick` is the environment. -/
structure Machine
    (I : Interface)
    (σ : Type) where
  Tick : Type
  exec : (op : I.Op) → σ → I.Ret op × σ
  tick : Tick → σ → σ

/- An operation performed by one thread. -/
structure Event (ι : Type) (I : Interface) where
  thread : ι
  op : I.Op
  ret : I.Ret op

namespace Event

variable {ι : Type} {I : Interface}

/- The operation and its answer, without the thread. -/
def action (event : Event ι I) : Action I :=
  ⟨event.op, event.ret⟩

end Event

variable {ι : Type} [DecidableEq ι]
variable {I : Interface}
variable {σ ε α : Type}

/- The actions of one thread, newest first. -/
def own
    (thread : ι) :
    List (Event ι I) → List (Action I)
  | [] => []
  | event :: history =>
      if event.thread = thread then
        event.action :: own thread history
      else
        own thread history

@[simp]
theorem own_nil (thread : ι) :
    own (I := I) thread [] = [] :=
  rfl

/- The latest step is the thread's own. -/
theorem own_cons_self
    (event : Event ι I)
    (history : List (Event ι I)) :
    own event.thread (event :: history) =
      event.action :: own event.thread history := by
  simp [own]

/- The latest step is another thread's. -/
theorem own_cons_of_ne
    {thread : ι}
    {event : Event ι I}
    (hThread : event.thread ≠ thread)
    (history : List (Event ι I)) :
    own thread (event :: history) = own thread history := by
  simp [own, hThread]

/- Every action of a thread is an event of the history. -/
theorem mem_own_iff
    {thread : ι}
    {history : List (Event ι I)}
    {action : Action I} :
    action ∈ own thread history ↔
      (⟨thread, action.op, action.ret⟩ : Event ι I) ∈
        history := by
  induction history with
  | nil => simp
  | cons event history ih =>
      by_cases hThread : event.thread = thread
      · subst hThread
        rw [own_cons_self, List.mem_cons, List.mem_cons, ih]
        rcases event with ⟨thread, op, ret⟩
        rcases action with ⟨op', ret'⟩
        simp [Event.action]
      · rw [own_cons_of_ne hThread, ih, List.mem_cons]
        constructor
        · exact Or.inr
        · rintro (hEvent | hEvent)
          · exact absurd (congrArg Event.thread hEvent).symm
              hThread
          · exact hEvent

/- A longer history has a longer list of own actions. -/
theorem own_suffix
    (thread : ι)
    {earlier later : List (Event ι I)}
    (hSuffix : earlier <:+ later) :
    own thread earlier <:+ own thread later := by
  rcases hSuffix with ⟨newer, rfl⟩
  induction newer with
  | nil => exact List.suffix_rfl
  | cons event newer ih =>
      rw [List.cons_append]
      by_cases hThread : event.thread = thread
      · subst hThread
        rw [own_cons_self]
        exact ih.trans (List.suffix_cons _ _)
      · rw [own_cons_of_ne hThread]
        exact ih

------------------------------------------------------------
-- Configurations And Runs
------------------------------------------------------------

/- The state, what happened, and what is left to do. -/
structure Config
    (ι : Type)
    (I : Interface)
    (σ ε α : Type) where
  state : σ
  history : List (Event ι I)
  pool : ι → Program I ε α

/- Which steps a run may take. -/
abbrev Condition (ι : Type) (I : Interface) (σ : Type) :=
  σ → List (Event ι I) → ι → I.Op → Prop

/- The condition that allows every step. -/
def anyStep : Condition ι I σ :=
  fun _ _ _ _ => True

instance :
    ∀ (state : σ) (history : List (Event ι I))
      (thread : ι) (op : I.Op),
      Decidable (anyStep state history thread op) :=
  fun _ _ _ _ => isTrue trivial

/- A condition on what has happened since an opening. -/
def sinceOpening
    (condition : Condition ι I σ)
    (opening : List (Event ι I)) :
    Condition ι I σ :=
  fun state history thread op =>
    ∃ since, history = since ++ opening ∧
      condition state since thread op

namespace Config

/- The operation a thread performs next, if any. -/
def next?
    (config : Config ι I σ ε α)
    (thread : ι) : Option I.Op :=
  match config.pool thread with
  | .perform op _ => some op
  | .done _ => none
  | .raise _ => none

/- The operation that a thread performs next. -/
omit [DecidableEq ι] in
theorem next?_eq_some
    {config : Config ι I σ ε α}
    {thread : ι}
    {op : I.Op} :
    config.next? thread = some op ↔
      ∃ next, config.pool thread = .perform op next := by
  unfold next?
  cases hPool : config.pool thread with
  | done value => simp
  | raise error => simp
  | perform first next =>
      constructor
      · rintro ⟨rfl⟩
        exact ⟨next, rfl⟩
      · rintro ⟨_, hSame⟩
        cases hSame
        rfl

variable (machine : Machine I σ)

/- Let `thread` perform `op` and continue with `next`. -/
def advance
    (config : Config ι I σ ε α)
    (thread : ι)
    (op : I.Op)
    (next : I.Ret op → Program I ε α) :
    Config ι I σ ε α where
  state := (machine.exec op config.state).2
  history :=
    ⟨thread, op, (machine.exec op config.state).1⟩ ::
      config.history
  pool :=
    Function.update config.pool thread
      (next (machine.exec op config.state).1)

end Config

/- Reachable configurations, one operation at a time. -/
inductive Reaches
    (machine : Machine I σ)
    (condition : Condition ι I σ)
    (start : Config ι I σ ε α) :
    Config ι I σ ε α → Prop
  | start : Reaches machine condition start start
  | perform
      {config : Config ι I σ ε α}
      {thread : ι}
      {op : I.Op}
      {next : I.Ret op → Program I ε α}
      (hReaches : Reaches machine condition start config)
      (hNext : config.pool thread = .perform op next)
      (hCondition :
        condition config.state config.history thread op) :
      Reaches machine condition start
        (config.advance machine thread op next)
  | tick
      {config : Config ι I σ ε α}
      (hReaches : Reaches machine condition start config)
      (tick : machine.Tick) :
      Reaches machine condition start
        { config with
          state := machine.tick tick config.state }

------------------------------------------------------------
-- Scheduled Runs
------------------------------------------------------------

/- Who moves next: a thread, or the environment. -/
inductive Choice (ι : Type) (τ : Type) where
  | thread (thread : ι)
  | tick (tick : τ)

namespace Config

variable (machine : Machine I σ)
variable (condition : Condition ι I σ)
variable [∀ state history thread op,
  Decidable (condition state history thread op)]

/- One scheduled step, if it is possible and allowed. -/
def step?
    (config : Config ι I σ ε α) :
    Choice ι machine.Tick → Option (Config ι I σ ε α)
  | .thread thread =>
      match config.pool thread with
      | .perform op next =>
          if condition config.state config.history
              thread op then
            some (config.advance machine thread op next)
          else
            none
      | .done _ => none
      | .raise _ => none
  | .tick tick =>
      some { config with
        state := machine.tick tick config.state }

/- Follow a schedule to its end. -/
def run
    (config : Config ι I σ ε α) :
    List (Choice ι machine.Tick) →
    Option (Config ι I σ ε α)
  | [] => some config
  | choice :: schedule =>
      match step? machine condition config choice with
      | some config' => run config' schedule
      | none => none

end Config

namespace Reaches

variable {machine : Machine I σ}
variable {condition : Condition ι I σ}
variable {start config config' : Config ι I σ ε α}

/- Runs compose. -/
theorem trans
    (hFirst : Reaches machine condition start config)
    (hSecond : Reaches machine condition config config') :
    Reaches machine condition start config' := by
  induction hSecond with
  | start => exact hFirst
  | perform _ hNext hCondition ih =>
      exact .perform ih hNext hCondition
  | tick _ tick ih => exact .tick ih tick

/- A run with fewer allowed steps is a run. -/
theorem mono
    {condition' : Condition ι I σ}
    (hCondition : ∀ state history thread op,
      condition state history thread op →
        condition' state history thread op)
    (hReaches : Reaches machine condition start config) :
    Reaches machine condition' start config := by
  induction hReaches with
  | start => exact .start
  | perform _ hNext hAllowed ih =>
      exact .perform ih hNext (hCondition _ _ _ _ hAllowed)
  | tick _ tick ih => exact .tick ih tick

/- A run with a history of its own goes on from another. -/
theorem reopen
    (opening : List (Event ι I))
    (hReaches : Reaches machine condition
      { start with history := [] } config) :
    Reaches machine (sinceOpening condition opening)
      { start with history := opening }
      { config with
        history := config.history ++ opening } := by
  induction hReaches with
  | start => exact .start
  | perform _ hNext hCondition ih =>
      exact .perform ih hNext ⟨_, rfl, hCondition⟩
  | tick _ tick ih => exact .tick ih tick

/- A schedule that runs to its end is a run. -/
theorem of_run
    [∀ state history thread op,
      Decidable (condition state history thread op)]
    {schedule : List (Choice ι machine.Tick)}
    (hRun :
      start.run machine condition schedule = some config) :
    Reaches machine condition start config := by
  induction schedule generalizing start with
  | nil =>
      obtain rfl : start = config := by
        simpa [Config.run] using hRun
      exact .start
  | cons choice schedule ih =>
      cases hStep : start.step? machine condition choice with
      | none => simp [Config.run, hStep] at hRun
      | some middle =>
          have hRest :
              Reaches machine condition middle config :=
            ih (by simpa [Config.run, hStep] using hRun)
          refine trans ?_ hRest
          cases choice with
          | tick tick =>
              obtain rfl := by
                simpa [Config.step?] using hStep
              exact .tick .start tick
          | thread thread =>
              cases hNext : start.pool thread with
              | done value =>
                  simp [Config.step?, hNext] at hStep
              | raise error =>
                  simp [Config.step?, hNext] at hStep
              | perform op next =>
                  by_cases hAllowed :
                      condition start.state start.history
                        thread op
                  · obtain rfl := by
                      simpa [Config.step?, hNext, hAllowed]
                        using hStep
                    exact .perform .start hNext hAllowed
                  · simp [Config.step?, hNext, hAllowed]
                      at hStep

end Reaches

------------------------------------------------------------
-- Traces
------------------------------------------------------------

/-
  States and histories that can arise when every thread
  keeps to its contract.  A trace forgets the programs:
  what is left of them is what the contracts say about
  their actions.  It continues a history, `opening`.
-/
inductive Trace
    (machine : Machine I σ)
    (contract : ι → Contract I)
    (condition : Condition ι I σ)
    (start : σ)
    (opening : List (Event ι I)) :
    σ → List (Event ι I) → Prop
  | start :
      Trace machine contract condition start opening
        start opening
  | perform
      {state : σ}
      {history : List (Event ι I)}
      {thread : ι}
      {op : I.Op}
      (hTrace : Trace machine contract condition start
        opening state history)
      (hRule :
        (contract thread).rule (own thread history) op)
      (hCondition : condition state history thread op) :
      Trace machine contract condition start opening
        (machine.exec op state).2
        (⟨thread, op, (machine.exec op state).1⟩ ::
          history)
  | tick
      {state : σ}
      {history : List (Event ι I)}
      (hTrace : Trace machine contract condition start
        opening state history)
      (tick : machine.Tick) :
      Trace machine contract condition start opening
        (machine.tick tick state) history

namespace Reaches

variable {machine : Machine I σ}
variable {condition : Condition ι I σ}
variable {contract : ι → Contract I}
variable {start config : Config ι I σ ε α}
variable {post :
  ι → List (Action I) → Except ε α → Prop}

/-
  What is left of every program obeys the rule after the
  actions its thread has made.
-/
theorem obeys
    (hObeys : ∀ thread,
      (start.pool thread).Obeys (contract thread)
        (own thread start.history) (post thread))
    (hAnswer : ∀ thread op state,
      (contract thread).answer op
        (machine.exec op state).1)
    (hReaches : Reaches machine condition start config)
    (thread : ι) :
    (config.pool thread).Obeys (contract thread)
      (own thread config.history) (post thread) := by
  induction hReaches generalizing thread with
  | start => exact hObeys thread
  | @perform config active op next _ hNext _ ih =>
      by_cases hThread : active = thread
      · subst hThread
        have hActive := ih active
        rw [hNext] at hActive
        simpa [Config.advance, own, Event.action] using
          hActive.2 (machine.exec op config.state).1
            (hAnswer active op config.state)
      · simpa [Config.advance, own, hThread,
          Function.update_of_ne (Ne.symm hThread)]
          using ih thread
  | tick _ _ ih => exact ih thread

/- A run of obedient programs is a trace. -/
theorem trace
    (hObeys : ∀ thread,
      (start.pool thread).Obeys (contract thread)
        (own thread start.history) (post thread))
    (hAnswer : ∀ thread op state,
      (contract thread).answer op
        (machine.exec op state).1)
    (hReaches : Reaches machine condition start config) :
    Trace machine contract condition start.state
      start.history config.state config.history := by
  induction hReaches with
  | start => exact .start
  | @perform config active op next hPrevious hNext
      hCondition ih =>
      have hActive :=
        obeys hObeys hAnswer hPrevious active
      rw [hNext] at hActive
      exact .perform ih hActive.1 hCondition
  | tick _ tick ih => exact .tick ih tick

end Reaches

namespace Trace

variable {machine : Machine I σ}
variable {contract : ι → Contract I}
variable {condition : Condition ι I σ}
variable {start state middle : σ}
variable {opening history earlier later between :
  List (Event ι I)}
variable {event : Event ι I}

/- Traces compose. -/
theorem trans
    (hFirst : Trace machine contract condition start
      opening middle between)
    (hSecond : Trace machine contract condition middle
      between state history) :
    Trace machine contract condition start opening
      state history := by
  induction hSecond with
  | start => exact hFirst
  | perform _ hRule hCondition ih =>
      exact .perform ih hRule hCondition
  | tick _ tick ih => exact .tick ih tick

/- A trace only adds to the history it continues. -/
theorem suffix
    (hTrace : Trace machine contract condition start
      opening state history) :
    opening <:+ history := by
  induction hTrace with
  | start => exact List.suffix_rfl
  | perform _ _ _ ih =>
      exact ih.trans (List.suffix_cons _ _)
  | tick _ _ ih => exact ih

/-
  What holds where a trace starts, and is kept by every
  step it allows, holds where it ends.
-/
theorem invariant
    (holds : σ → List (Event ι I) → Prop)
    (hTrace : Trace machine contract condition start
      opening state history)
    (hStart : holds start opening)
    (hStep : ∀ state history thread op,
      Trace machine contract condition start opening
        state history →
      (contract thread).rule (own thread history) op →
      condition state history thread op →
      holds state history →
      holds (machine.exec op state).2
        (⟨thread, op, (machine.exec op state).1⟩ ::
          history))
    (hTick : ∀ state history tick,
      holds state history →
      holds (machine.tick tick state) history) :
    holds state history := by
  induction hTrace with
  | start => exact hStart
  | perform hTrace hRule hCondition ih =>
      exact hStep _ _ _ _ hTrace hRule hCondition ih
  | tick _ tick ih => exact hTick _ _ tick ih

/-
  The moment of an event: the state it happened in, what
  allowed it, the answer it got, and how the run goes on.
-/
theorem at_event
    (hTrace : Trace machine contract condition start []
      state (later ++ event :: earlier)) :
    ∃ before,
      Trace machine contract condition start []
        before earlier ∧
      (contract event.thread).rule
        (own event.thread earlier) event.op ∧
      condition before earlier event.thread event.op ∧
      event.ret = (machine.exec event.op before).1 ∧
      Trace machine contract condition start []
        (machine.exec event.op before).2
        (event :: earlier) ∧
      Trace machine contract condition
        (machine.exec event.op before).2
        (event :: earlier) state
        (later ++ event :: earlier) := by
  generalize hHistory : later ++ event :: earlier = all
    at hTrace
  induction hTrace generalizing later with
  | start => simp at hHistory
  | perform hTrace hRule hCondition ih =>
      cases later with
      | nil =>
          obtain ⟨rfl, rfl⟩ := by simpa using hHistory
          exact ⟨_, hTrace, hRule, hCondition, rfl,
            .perform hTrace hRule hCondition, .start⟩
      | cons newest later =>
          obtain ⟨-, hRest⟩ := by simpa using hHistory
          rcases ih hRest with
            ⟨before, hBefore, hEvent, hAllowed, hRet,
              hThen, hAfter⟩
          exact ⟨before, hBefore, hEvent, hAllowed, hRet,
            hThen, .perform hAfter hRule hCondition⟩
  | tick _ tick ih =>
      rcases ih hHistory with
        ⟨before, hBefore, hEvent, hAllowed, hRet, hThen,
          hAfter⟩
      exact ⟨before, hBefore, hEvent, hAllowed, hRet,
        hThen, .tick hAfter tick⟩

/- The moment of a member of the history. -/
theorem at_member
    (hTrace : Trace machine contract condition start []
      state history)
    (hEvent : event ∈ history) :
    ∃ before earlier,
      earlier <:+ history ∧
      Trace machine contract condition start []
        before earlier ∧
      (contract event.thread).rule
        (own event.thread earlier) event.op ∧
      condition before earlier event.thread event.op ∧
      event.ret = (machine.exec event.op before).1 := by
  rcases List.append_of_mem hEvent with
    ⟨later, earlier, hHistory⟩
  rw [hHistory] at hTrace ⊢
  rcases hTrace.at_event with
    ⟨before, hBefore, hRule, hAllowed, hRet, -⟩
  refine ⟨before, earlier, ?_, hBefore, hRule, hAllowed,
    hRet⟩
  exact (List.suffix_cons event earlier).trans
    (List.suffix_append later _)

/- The moment of an event that a trace itself has added. -/
theorem at_newer
    (hTrace : Trace machine contract condition start
      opening state
      (later ++ event :: (between ++ opening))) :
    ∃ before,
      Trace machine contract condition start opening
        before (between ++ opening) ∧
      (contract event.thread).rule
        (own event.thread (between ++ opening)) event.op ∧
      event.ret = (machine.exec event.op before).1 := by
  generalize hHistory :
    later ++ event :: (between ++ opening) = all at hTrace
  induction hTrace generalizing later with
  | start =>
      have hLength := congrArg List.length hHistory
      simp at hLength
      omega
  | perform hTrace hRule _ ih =>
      cases later with
      | nil =>
          obtain ⟨rfl, rfl⟩ := by simpa using hHistory
          exact ⟨_, hTrace, hRule, rfl⟩
      | cons newest later =>
          obtain ⟨-, hRest⟩ := by simpa using hHistory
          exact ih hRest
  | tick _ _ ih => exact ih hHistory

/-
  The moments of two events, and how one leads to the other.
-/
theorem at_events
    {event' : Event ι I}
    (hTrace : Trace machine contract condition start []
      state (later ++
        event' :: (between ++ event :: earlier))) :
    ∃ before middle,
      Trace machine contract condition start []
        before earlier ∧
      (contract event.thread).rule
        (own event.thread earlier) event.op ∧
      event.ret = (machine.exec event.op before).1 ∧
      Trace machine contract condition
        (machine.exec event.op before).2
        (event :: earlier) middle
        (between ++ event :: earlier) ∧
      (contract event'.thread).rule
        (own event'.thread (between ++ event :: earlier))
        event'.op ∧
      event'.ret = (machine.exec event'.op middle).1 := by
  have hSplit :
      later ++ event' :: (between ++ event :: earlier) =
        (later ++ event' :: between) ++
          event :: earlier := by
    simp
  rw [hSplit] at hTrace
  rcases hTrace.at_event with
    ⟨before, hBefore, hRule, -, hRet, -, hSince⟩
  rw [← hSplit] at hSince
  rcases hSince.at_newer with
    ⟨middle, hMiddle, hRule', hRet'⟩
  exact ⟨before, middle, hBefore, hRule, hRet, hMiddle,
    hRule', hRet'⟩

/- Every earlier history has a state of its own. -/
theorem at_suffix
    (hTrace : Trace machine contract condition start []
      state (later ++ earlier)) :
    ∃ before,
      Trace machine contract condition start []
        before earlier ∧
      Trace machine contract condition before earlier
        state (later ++ earlier) := by
  generalize hHistory : later ++ earlier = all at hTrace
  induction hTrace generalizing later with
  | start =>
      obtain ⟨rfl, rfl⟩ := by simpa using hHistory
      exact ⟨_, .start, .start⟩
  | perform hTrace hRule hCondition ih =>
      cases later with
      | nil =>
          obtain rfl := by simpa using hHistory
          exact ⟨_, .perform hTrace hRule hCondition,
            .start⟩
      | cons newest later =>
          obtain ⟨-, hRest⟩ := by simpa using hHistory
          rcases ih hRest with ⟨before, hBefore, hAfter⟩
          exact ⟨before, hBefore,
            .perform hAfter hRule hCondition⟩
  | tick _ tick ih =>
      rcases ih hHistory with ⟨before, hBefore, hAfter⟩
      exact ⟨before, hBefore, .tick hAfter tick⟩

omit [DecidableEq ι] in
/- Of what two events never share, there is one event. -/
theorem eq_of_pairwise
    {claims : Event ι I → Prop}
    {event event' : Event ι I}
    (hOnce : history.Pairwise fun later earlier =>
      ¬ (claims later ∧ claims earlier))
    (hEvent : event ∈ history)
    (hEvent' : event' ∈ history)
    (hClaims : claims event)
    (hClaims' : claims event') :
    event = event' := by
  induction hOnce with
  | nil => cases hEvent
  | cons hFirst _ ih =>
      rcases List.mem_cons.mp hEvent with rfl | hOld
      · rcases List.mem_cons.mp hEvent' with rfl | hOld'
        · rfl
        · exact absurd ⟨hClaims, hClaims'⟩
            (hFirst event' hOld')
      · rcases List.mem_cons.mp hEvent' with rfl | hOld'
        · exact absurd ⟨hClaims', hClaims⟩
            (hFirst event hOld)
        · exact ih hOld hOld'

/-
  What can be claimed only while it is not taken, and is
  taken for good once it has been claimed, is claimed at
  most once.
-/
theorem claimed_once
    (claims : Event ι I → Prop)
    (taken : σ → List (Event ι I) → Prop)
    (hTrace : Trace machine contract condition start []
      state history)
    (hTaken : ∀ state history thread op,
      Trace machine contract condition start []
        state history →
      (contract thread).rule (own thread history) op →
      condition state history thread op →
      claims ⟨thread, op, (machine.exec op state).1⟩ →
      taken (machine.exec op state).2
        (⟨thread, op, (machine.exec op state).1⟩ ::
          history))
    (hKept : ∀ state history thread op,
      Trace machine contract condition start []
        state history →
      (contract thread).rule (own thread history) op →
      condition state history thread op →
      taken state history →
      taken (machine.exec op state).2
        (⟨thread, op, (machine.exec op state).1⟩ ::
          history))
    (hTick : ∀ state history tick,
      taken state history →
      taken (machine.tick tick state) history)
    (hRefused : ∀ state history thread op,
      Trace machine contract condition start []
        state history →
      (contract thread).rule (own thread history) op →
      condition state history thread op →
      taken state history →
      ¬ claims ⟨thread, op, (machine.exec op state).1⟩) :
    (∀ event ∈ history, claims event →
      taken state history) ∧
    history.Pairwise fun later earlier =>
      ¬ (claims later ∧ claims earlier) := by
  refine hTrace.invariant
    (fun state history =>
      (∀ event ∈ history, claims event →
        taken state history) ∧
      history.Pairwise fun later earlier =>
        ¬ (claims later ∧ claims earlier)) ?_ ?_ ?_
  · constructor
    · intro event hEvent
      cases hEvent
    · exact List.Pairwise.nil
  · rintro state history thread op hBefore hRule hCondition
      ⟨hSeen, hOnce⟩
    constructor
    · intro event hEvent hClaims
      rcases List.mem_cons.mp hEvent with rfl | hOlder
      · exact hTaken state history thread op hBefore hRule
          hCondition hClaims
      · exact hKept state history thread op hBefore hRule
          hCondition (hSeen event hOlder hClaims)
    · refine List.pairwise_cons.mpr ⟨?_, hOnce⟩
      rintro earlier hEarlier ⟨hLater, hClaimed⟩
      exact hRefused state history thread op hBefore hRule
        hCondition (hSeen earlier hEarlier hClaimed) hLater
  · rintro state history tick ⟨hSeen, hOnce⟩
    refine ⟨?_, hOnce⟩
    intro event hEvent hClaims
    exact hTick state history tick
      (hSeen event hEvent hClaims)

end Trace

------------------------------------------------------------
-- Own Actions In The History
------------------------------------------------------------

/- An own action and what the thread had done before it. -/
theorem own_split
    {thread : ι}
    {history : List (Event ι I)}
    {action : Action I}
    {older : List (Action I)}
    (hSuffix : action :: older <:+ own thread history) :
    ∃ later earlier,
      history =
        later ++ ⟨thread, action.op, action.ret⟩ ::
          earlier ∧
      own thread earlier = older := by
  induction history with
  | nil => simp at hSuffix
  | cons event history ih =>
      by_cases hThread : event.thread = thread
      · subst hThread
        rw [own_cons_self, List.suffix_cons_iff] at hSuffix
        rcases hSuffix with hHead | hRest
        · obtain ⟨rfl, rfl⟩ := by simpa using hHead
          exact ⟨[], history, rfl, rfl⟩
        · rcases ih hRest with
            ⟨later, earlier, rfl, hOlder⟩
          exact ⟨event :: later, earlier, rfl, hOlder⟩
      · rw [own_cons_of_ne hThread] at hSuffix
        rcases ih hSuffix with ⟨later, earlier, rfl, hOlder⟩
        exact ⟨event :: later, earlier, rfl, hOlder⟩

/- What was there before an event is there after it. -/
theorem suffix_of_split
    {α : Type}
    (later : List α)
    (event : α)
    (earlier : List α) :
    earlier <:+ later ++ event :: earlier :=
  (List.suffix_cons event earlier).trans
    (List.suffix_append later _)

/- Two events of a history: one is older, or they agree. -/
theorem order_of_splits
    {α : Type}
    {first second : α}
    {later later' earlier earlier' : List α}
    (hSplits :
      later ++ first :: earlier =
        later' ++ second :: earlier') :
    (∃ between,
      earlier = between ++ second :: earlier' ∧
        later' = later ++ first :: between) ∨
    (∃ between,
      earlier' = between ++ first :: earlier ∧
        later = later' ++ second :: between) ∨
    (first = second ∧ later = later' ∧
      earlier = earlier') := by
  induction later generalizing later' with
  | nil =>
      cases later' with
      | nil =>
          obtain ⟨rfl, rfl⟩ := by simpa using hSplits
          exact Or.inr (Or.inr ⟨rfl, rfl, rfl⟩)
      | cons newest later' =>
          obtain ⟨rfl, rfl⟩ := by simpa using hSplits
          exact Or.inl ⟨later', rfl, rfl⟩
  | cons newest later ih =>
      cases later' with
      | nil =>
          obtain ⟨rfl, rfl⟩ := by simpa using hSplits
          exact Or.inr (Or.inl ⟨later, rfl, rfl⟩)
      | cons newest' later' =>
          obtain ⟨rfl, hRest⟩ := by simpa using hSplits
          rcases ih hRest with
            ⟨between, hEarlier, rfl⟩ |
              ⟨between, hEarlier, rfl⟩ |
              ⟨hSame, rfl, hEarlier⟩
          · exact Or.inl ⟨between, hEarlier, rfl⟩
          · exact Or.inr (Or.inl ⟨between, hEarlier, rfl⟩)
          · exact Or.inr (Or.inr ⟨hSame, rfl, hEarlier⟩)

/- Two members of a history, in either order, or the same. -/
theorem order_of_members
    {α : Type}
    {first second : α}
    {history : List α}
    (hFirst : first ∈ history)
    (hSecond : second ∈ history) :
    (∃ later between earlier,
      history =
        later ++ first :: (between ++ second :: earlier)) ∨
    (∃ later between earlier,
      history =
        later ++ second :: (between ++ first :: earlier)) ∨
    first = second := by
  rcases List.append_of_mem hFirst with
    ⟨later, earlier, hHistory⟩
  rcases List.append_of_mem hSecond with
    ⟨later', earlier', hHistory'⟩
  rcases order_of_splits (hHistory.symm.trans hHistory') with
    ⟨between, hEarlier, -⟩ | ⟨between, hEarlier, -⟩ |
      ⟨hSame, -⟩
  · rw [hEarlier] at hHistory
    exact Or.inl ⟨later, between, earlier', hHistory⟩
  · rw [hEarlier] at hHistory'
    exact Or.inr
      (Or.inl ⟨later', between, earlier, hHistory'⟩)
  · exact Or.inr (Or.inr hSame)

end Concurrency

end CrudAuth
