import Mathlib.Data.List.Infix
import Mathlib.Logic.Basic

/-
  Programs over an interface of atomic operations.

  A program is a tree: it returns a value, raises an error,
  or performs one operation and continues with its answer.
  Between two operations other programs may run, so the
  operations are exactly the points of interleaving.

  Main declarations:
    * `Program.bind`
    * `Program.run`
    * `Program.Obeys`
    * `Program.Obeys.relax`
    * `Program.obeys_of_free`
    * `Program.Obeys.bind`
    * `Program.Obeys.andThen`
    * `Program.Yields`
    * `Program.translate`
    * `Program.Obeys.translate`
    * `Program.Ends`
-/

------------------------------------------------------------
-- Interfaces And Programs
------------------------------------------------------------

namespace CrudAuth

namespace Concurrency

/- Operations, each with the type of its answer. -/
structure Interface where
  Op : Type
  Ret : Op → Type

/- One performed operation together with its answer. -/
structure Action (I : Interface) where
  op : I.Op
  ret : I.Ret op

/- A program that performs operations of `I`. -/
inductive Program
    (I : Interface)
    (ε α : Type) where
  | done (value : α)
  | raise (error : ε)
  | perform
      (op : I.Op)
      (next : I.Ret op → Program I ε α)

namespace Program

variable {I : Interface}
variable {ε α β : Type}

/- Run the continuation on the returned value. -/
def bind :
    Program I ε α →
    (α → Program I ε β) →
    Program I ε β
  | .done value, rest => rest value
  | .raise error, _ => .raise error
  | .perform op next, rest =>
      .perform op fun ret => (next ret).bind rest

instance : Monad (Program I ε) where
  pure := .done
  bind := bind

/- Perform one operation and return its answer. -/
def call (op : I.Op) : Program I ε (I.Ret op) :=
  .perform op .done

/- Turn an error into an ordinary result. -/
def attempt :
    Program I ε α →
    Program I ε (Except ε α)
  | .done value => .done (.ok value)
  | .raise error => .done (.error error)
  | .perform op next =>
      .perform op fun ret => (next ret).attempt

/- Run a program alone on a state. -/
def run {σ : Type}
    (exec : (op : I.Op) → σ → I.Ret op × σ) :
    Program I ε α → σ → Except ε α × σ
  | .done value, state => (.ok value, state)
  | .raise error, state => (.error error, state)
  | .perform op next, state =>
      run exec (next (exec op state).1) (exec op state).2

@[simp]
theorem pure_eq_done (value : α) :
    (pure value : Program I ε α) = .done value :=
  rfl

@[simp]
theorem bind_eq
    (program : Program I ε α)
    (rest : α → Program I ε β) :
    program >>= rest = program.bind rest :=
  rfl

/- What follows a result. -/
@[simp]
theorem done_bind
    (value : α)
    (rest : α → Program I ε β) :
    (done value : Program I ε α).bind rest = rest value :=
  rfl

/- Nothing follows an exception. -/
@[simp]
theorem raise_bind
    (error : ε)
    (rest : α → Program I ε β) :
    (raise error : Program I ε α).bind rest =
      .raise error :=
  rfl

/- What follows comes after the operation. -/
@[simp]
theorem perform_bind
    (op : I.Op)
    (next : I.Ret op → Program I ε α)
    (rest : α → Program I ε β) :
    (perform op next).bind rest =
      .perform op fun ret => (next ret).bind rest :=
  rfl

/- A single operation, and what follows it. -/
@[simp]
theorem call_bind
    (op : I.Op)
    (rest : I.Ret op → Program I ε β) :
    (call op).bind rest = .perform op rest :=
  rfl

/- A result leaves the state alone. -/
@[simp]
theorem run_done {σ : Type}
    (exec : (op : I.Op) → σ → I.Ret op × σ)
    (value : α)
    (state : σ) :
    (done value : Program I ε α).run exec state =
      (.ok value, state) :=
  rfl

/- So does an exception. -/
@[simp]
theorem run_raise {σ : Type}
    (exec : (op : I.Op) → σ → I.Ret op × σ)
    (error : ε)
    (state : σ) :
    (raise error : Program I ε α).run exec state =
      (.error error, state) :=
  rfl

/- An operation is executed, then the rest is run. -/
@[simp]
theorem run_perform {σ : Type}
    (exec : (op : I.Op) → σ → I.Ret op × σ)
    (op : I.Op)
    (next : I.Ret op → Program I ε α)
    (state : σ) :
    (perform op next).run exec state =
      (next (exec op state).1).run exec (exec op state).2 :=
  rfl

/- Running a composition runs its parts in order. -/
theorem run_bind {σ : Type}
    (exec : (op : I.Op) → σ → I.Ret op × σ)
    (program : Program I ε α)
    (rest : α → Program I ε β)
    (state : σ) :
    (program.bind rest).run exec state =
      match program.run exec state with
      | (.ok value, after) => (rest value).run exec after
      | (.error error, after) => (.error error, after) := by
  induction program generalizing state with
  | done value => rfl
  | raise error => rfl
  | perform op next ih =>
      exact ih (exec op state).1 (exec op state).2

------------------------------------------------------------
-- Local Obligations
------------------------------------------------------------

end Program

/-
  What a program owes and what it may rely on: `rule` says
  which operations it may perform after the actions it has
  made (newest first), `answer` which answers it can get.
-/
structure Contract (I : Interface) where
  rule : List (Action I) → I.Op → Prop
  answer : (op : I.Op) → I.Ret op → Prop

/- Nothing is forbidden and nothing is assumed. -/
def anything {I : Interface} : Contract I where
  rule _ _ := True
  answer _ _ := True

/- What two contracts ask, of the answers of both. -/
def Contract.both
    {I : Interface}
    (first second : Contract I) : Contract I where
  rule past op := first.rule past op ∧ second.rule past op
  answer op ret := first.answer op ret ∧ second.answer op ret

namespace Program

variable {I : Interface}
variable {ε α β : Type}

/-
  `Obeys contract past program post`: from the actions
  `past`, every operation of the program keeps to the rule,
  and every way to end satisfies `post`.
-/
def Obeys
    (contract : Contract I)
    (past : List (Action I)) :
    Program I ε α →
    (List (Action I) → Except ε α → Prop) →
    Prop
  | .done value, post => post past (.ok value)
  | .raise error, post => post past (.error error)
  | .perform op next, post =>
      contract.rule past op ∧
        ∀ ret, contract.answer op ret →
          Obeys contract (⟨op, ret⟩ :: past)
            (next ret) post

/- A postcondition about the returned value only. -/
def Returns
    (post : List (Action I) → α → Prop) :
    List (Action I) → Except ε α → Prop :=
  fun past result =>
    ∀ value, result = .ok value → post past value

variable {contract : Contract I}
variable {past : List (Action I)}
variable {program : Program I ε α}
variable {post post' :
  List (Action I) → Except ε α → Prop}

/- A result need only meet the postcondition. -/
@[simp]
theorem obeys_done (value : α) :
    Obeys contract past
        (.done value : Program I ε α) post ↔
      post past (.ok value) :=
  Iff.rfl

/- The same, under the name the monad gives it. -/
@[simp]
theorem obeys_pure (value : α) :
    Obeys contract past
        (pure value : Program I ε α) post ↔
      post past (.ok value) :=
  Iff.rfl

/- An exception need only meet the postcondition. -/
@[simp]
theorem obeys_raise (error : ε) :
    Obeys contract past
        (.raise error : Program I ε α) post ↔
      post past (.error error) :=
  Iff.rfl

/- A goal about values is asked of a value. -/
@[simp]
theorem returns_ok
    {goal : List (Action I) → α → Prop}
    (value : α) :
    Returns goal past (.ok value : Except ε α) ↔
      goal past value := by
  constructor
  · intro hReturns
    exact hReturns value rfl
  · rintro hGoal value ⟨rfl⟩
    exact hGoal

@[simp]
theorem returns_error
    {goal : List (Action I) → α → Prop}
    (error : ε) :
    Returns goal past (.error error : Except ε α) := by
  intro value hValue
  cases hValue

/- An operation with the rest of the program. -/
theorem obeys_call_bind
    {op : I.Op}
    {rest : I.Ret op → Program I ε α}
    (hRule : contract.rule past op)
    (hRest : ∀ ret, contract.answer op ret →
      Obeys contract (⟨op, ret⟩ :: past)
        (rest ret) post) :
    Obeys contract past ((call op).bind rest) post :=
  ⟨hRule, hRest⟩

/-
  `Yields past program past' result`: with some answers, the
  program makes the actions that `past'` has more than
  `past`, and ends in `result`.
-/
inductive Yields :
    Program I ε α →
    List (Action I) →
    List (Action I) →
    Except ε α → Prop
  | done
      {value : α}
      {past : List (Action I)} :
      Yields (.done value) past past (.ok value)
  | raise
      {error : ε}
      {past : List (Action I)} :
      Yields (.raise error) past past (.error error)
  | perform
      {op : I.Op}
      {ret : I.Ret op}
      {next : I.Ret op → Program I ε α}
      {past past' : List (Action I)}
      {result : Except ε α}
      (hNext :
        Yields (next ret) (⟨op, ret⟩ :: past) past' result) :
      Yields (.perform op next) past past' result

/- Where every answer is possible, a run ends as it owes. -/
theorem Yields.ends
    {past' : List (Action I)}
    {result : Except ε α}
    (hYields : Yields program past past' result)
    (hObeys : Obeys anything past program post) :
    post past' result := by
  induction hYields with
  | done => exact hObeys
  | raise => exact hObeys
  | perform _ ih => exact ih (hObeys.2 _ trivial)

/-
  What holds of every run is owed where nothing is
  forbidden.
-/
theorem obeys_of_yields
    (hYields : ∀ past' result,
      Yields program past past' result → post past' result) :
    Obeys anything past program post := by
  induction program generalizing past with
  | done value => exact hYields past _ .done
  | raise error => exact hYields past _ .raise
  | perform op next ih =>
      constructor
      · trivial
      · intro ret _
        apply ih
        intro past' result hNext
        exact hYields past' result (.perform hNext)

/- Weaken the postcondition of an obedient program. -/
theorem Obeys.mono
    (hObeys : Obeys contract past program post)
    (hPost : ∀ past' result,
      past <:+ past' →
      post past' result →
      post' past' result) :
    Obeys contract past program post' := by
  induction program generalizing past with
  | done value =>
      exact hPost past _ List.suffix_rfl hObeys
  | raise error =>
      exact hPost past _ List.suffix_rfl hObeys
  | perform op next ih =>
      refine ⟨hObeys.1, fun ret hAnswer => ?_⟩
      refine ih ret (hObeys.2 ret hAnswer) ?_
      intro past' result hSuffix hResult
      exact hPost past' result
        ((List.suffix_cons _ _).trans hSuffix) hResult

/- What is owed to a contract is owed to a laxer one. -/
theorem Obeys.relax
    {lax : Contract I}
    (hObeys : Obeys contract past program post)
    (hRule : ∀ past op,
      contract.rule past op → lax.rule past op)
    (hAnswer : ∀ op ret,
      lax.answer op ret → contract.answer op ret) :
    Obeys lax past program post := by
  induction program generalizing past with
  | done value => exact hObeys
  | raise error => exact hObeys
  | perform op next ih =>
      constructor
      · exact hRule past op hObeys.1
      · intro ret hRet
        exact ih ret (hObeys.2 ret (hAnswer op ret hRet))

/- What is owed to each of two contracts is owed to both. -/
theorem Obeys.both
    {other : Contract I}
    (hObeys : Obeys contract past program post)
    (hOther : Obeys other past program post') :
    Obeys (contract.both other) past program
      fun past' result =>
        post past' result ∧ post' past' result := by
  induction program generalizing past with
  | done value => exact ⟨hObeys, hOther⟩
  | raise error => exact ⟨hObeys, hOther⟩
  | perform op next ih =>
      refine ⟨⟨hObeys.1, hOther.1⟩, fun ret hAnswer => ?_⟩
      exact ih ret (hObeys.2 ret hAnswer.1)
        (hOther.2 ret hAnswer.2)

/- Where nothing is forbidden any more, nothing is owed. -/
theorem obeys_of_free
    (hFree : ∀ past' op,
      past <:+ past' → contract.rule past' op) :
    Obeys contract past program fun _ _ => True := by
  induction program generalizing past with
  | done value => trivial
  | raise error => trivial
  | perform op next ih =>
      constructor
      · exact hFree past op List.suffix_rfl
      · intro ret _
        apply ih
        intro past' op' hSuffix
        exact hFree past' op'
          ((List.suffix_cons _ _).trans hSuffix)

/- Sequence two obedient programs. -/
theorem Obeys.bind
    {rest : α → Program I ε β}
    {goal : List (Action I) → Except ε β → Prop}
    (hObeys : Obeys contract past program post)
    (hOk : ∀ past' value,
      past <:+ past' →
      post past' (.ok value) →
      Obeys contract past' (rest value) goal)
    (hError : ∀ past' error,
      past <:+ past' →
      post past' (.error error) →
      goal past' (.error error)) :
    Obeys contract past (program.bind rest) goal := by
  induction program generalizing past with
  | done value =>
      exact hOk past value List.suffix_rfl hObeys
  | raise error =>
      exact hError past error List.suffix_rfl hObeys
  | perform op next ih =>
      refine ⟨hObeys.1, fun ret hAnswer => ?_⟩
      refine ih ret (hObeys.2 ret hAnswer) ?_ ?_
      · intro past' value hSuffix hValue
        exact hOk past' value
          ((List.suffix_cons _ _).trans hSuffix) hValue
      · intro past' error hSuffix hRaised
        exact hError past' error
          ((List.suffix_cons _ _).trans hSuffix) hRaised

/-
  Sequence two programs when errors owe nothing.  The
  second one starts from what the first returns.
-/
theorem Obeys.andThen
    {rest : α → Program I ε β}
    {middle : List (Action I) → α → Prop}
    {goal : List (Action I) → β → Prop}
    (hObeys :
      Obeys contract past program (Returns middle))
    (hRest : ∀ past' value,
      past <:+ past' →
      middle past' value →
      Obeys contract past' (rest value)
        (Returns goal)) :
    Obeys contract past (program.bind rest)
      (Returns goal) := by
  refine hObeys.bind ?_ ?_
  · intro past' value hSuffix hMiddle
    exact hRest past' value hSuffix
      ((returns_ok value).mp hMiddle)
  · intro past' error _ _
    exact returns_error error

/- Catching errors keeps every obligation. -/
theorem Obeys.attempt
    {goal : List (Action I) →
      Except ε (Except ε α) → Prop}
    (hObeys : Obeys contract past program post)
    (hPost : ∀ past' result,
      past <:+ past' →
      post past' result →
      goal past' (.ok result)) :
    Obeys contract past program.attempt goal := by
  induction program generalizing past with
  | done value =>
      exact hPost past _ List.suffix_rfl hObeys
  | raise error =>
      exact hPost past _ List.suffix_rfl hObeys
  | perform op next ih =>
      refine ⟨hObeys.1, fun ret hAnswer => ?_⟩
      refine ih ret (hObeys.2 ret hAnswer) ?_
      intro past' result hSuffix hResult
      exact hPost past' result
        ((List.suffix_cons _ _).trans hSuffix) hResult

------------------------------------------------------------
-- Implementing An Interface
------------------------------------------------------------

/-
  Perform each operation by a program of another interface.
-/
def translate {J : Interface}
    (implement : (op : I.Op) → Program J ε (I.Ret op)) :
    Program I ε α →
    Program J ε α
  | .done value => .done value
  | .raise error => .raise error
  | .perform op next =>
      (implement op).bind fun ret =>
        (next ret).translate implement

/-
  An obedient program stays obedient when each operation is
  implemented as its contract says.  `shows` tells what the
  lower actions amount to.
-/
theorem Obeys.translate {J : Interface}
    {implement : (op : I.Op) → Program J ε (I.Ret op)}
    {low : Contract J}
    {shows : List (Action J) → List (Action I) → Prop}
    {lowPast : List (Action J)}
    (hObeys : Obeys contract past program post)
    (hShows : shows lowPast past)
    (hImplement : ∀ lowPast past op,
      shows lowPast past →
      contract.rule past op →
      Obeys low lowPast (implement op)
        (Returns fun lowPast' ret =>
          contract.answer op ret ∧
            shows lowPast' (⟨op, ret⟩ :: past))) :
    Obeys low lowPast (program.translate implement)
      fun _ _ => True := by
  induction program generalizing past lowPast with
  | done value => trivial
  | raise error => trivial
  | perform op next ih =>
      apply (hImplement lowPast past op hShows hObeys.1).bind
      · intro lowPast' ret _ hRet
        rw [returns_ok] at hRet
        exact ih ret (hObeys.2 ret hRet.1) hRet.2
      · intro _ _ _ _
        trivial

------------------------------------------------------------
-- Running Alone
------------------------------------------------------------

variable {σ : Type}
variable {exec : (op : I.Op) → σ → I.Ret op × σ}
variable {state : σ}
variable {goal goal' : Except ε α → σ → Prop}

/- Alone on a state, the program ends as `goal` says. -/
def Ends
    (exec : (op : I.Op) → σ → I.Ret op × σ)
    (program : Program I ε α)
    (state : σ)
    (goal : Except ε α → σ → Prop) : Prop :=
  goal (program.run exec state).1 (program.run exec state).2

/- A run that has returned. -/
@[simp]
theorem ends_done (value : α) :
    Ends exec (.done value : Program I ε α) state goal ↔
      goal (.ok value) state :=
  Iff.rfl

@[simp]
theorem ends_pure (value : α) :
    Ends exec (pure value : Program I ε α) state goal ↔
      goal (.ok value) state :=
  Iff.rfl

/- A run that has raised. -/
@[simp]
theorem ends_raise (error : ε) :
    Ends exec (.raise error : Program I ε α) state goal ↔
      goal (.error error) state :=
  Iff.rfl

/- A run that performs an operation first. -/
@[simp]
theorem ends_perform
    (op : I.Op)
    (next : I.Ret op → Program I ε α) :
    Ends exec (.perform op next) state goal ↔
      Ends exec (next (exec op state).1) (exec op state).2
        goal :=
  Iff.rfl

/- A weaker goal. -/
theorem Ends.mono
    (hEnds : Ends exec program state goal)
    (hGoal : ∀ result after,
      goal result after → goal' result after) :
    Ends exec program state goal' :=
  hGoal _ _ hEnds

/- A run in two parts. -/
theorem Ends.bind
    {rest : α → Program I ε β}
    {last : Except ε β → σ → Prop}
    (hEnds : Ends exec program state goal)
    (hOk : ∀ value after, goal (.ok value) after →
      Ends exec (rest value) after last)
    (hError : ∀ error after, goal (.error error) after →
      last (.error error) after) :
    Ends exec (program.bind rest) state last := by
  induction program generalizing state with
  | done value => exact hOk value state hEnds
  | raise error => exact hError error state hEnds
  | perform op next ih => exact ih _ hEnds

/- A run whose exception is caught. -/
theorem Ends.attempt
    {last : Except ε (Except ε α) → σ → Prop}
    (hEnds : Ends exec program state goal)
    (hLast : ∀ result after, goal result after →
      last (.ok result) after) :
    Ends exec program.attempt state last := by
  induction program generalizing state with
  | done value => exact hLast _ state hEnds
  | raise error => exact hLast _ state hEnds
  | perform op next ih => exact ih _ hEnds

/- The actions of a program that runs alone, newest first. -/
def actions
    (exec : (op : I.Op) → σ → I.Ret op × σ) :
    Program I ε α → List (Action I) → σ → List (Action I)
  | .done _, past, _ => past
  | .raise _, past, _ => past
  | .perform op next, past, state =>
      actions exec (next (exec op state).1)
        (⟨op, (exec op state).1⟩ :: past) (exec op state).2

/- A program that runs alone yields what it ends in. -/
theorem yields_run
    (exec : (op : I.Op) → σ → I.Ret op × σ)
    (program : Program I ε α)
    (past : List (Action I))
    (state : σ) :
    Yields program past (program.actions exec past state)
      (program.run exec state).1 := by
  induction program generalizing past state with
  | done value => exact .done
  | raise error => exact .raise
  | perform op next ih => exact .perform (ih _ _ _)

end Program

end Concurrency

end CrudAuth
