import CrudAuth.Storage.Transactions

/-
  `get_and_delete`, with DELETE .. RETURNING and without: the
  fallback selects a value, and then deletes the row if it
  still holds that value, and other transactions may commit
  between the two statements.

  A run is an interleaving of the statements of such calls
  with the transactions of any other calls, on any keys.  A
  statement reads the clock when it is run.

  Main declarations:
    * `GetAndDelete.Step`
    * `GetAndDelete.execute`
    * `GetAndDelete.Indivisible`
    * `GetAndDelete.Unchanged`
    * `GetAndDelete.indivisible_iff`
-/

------------------------------------------------------------
-- Statements Of Many Calls
------------------------------------------------------------

namespace CrudAuth

namespace Storage

namespace GetAndDelete

/-
  What happens next: time passes, expired rows are purged,
  another call commits a transaction, or a caller makes a
  statement of its `get_and_delete` of a key.
-/
inductive Step (ι : Type) where
  | pass (time : Nat)
  | purge (batch : List Text)
  | transaction (made : Transaction)
  | returning (caller : ι) (key : Text)
  | select (caller : ι) (key : Text)
  | claim (caller : ι) (key : Text)

/- The clock, the table, and what callers have selected. -/
structure State (ι : Type) where
  clock : Nat
  table : StoreTable
  selected : ι → Option Text

variable {ι : Type}

namespace State

/- The live row of a key. -/
def row (state : State ι) (key : Text) : Option StoreRow :=
  (state.table.lookup key).filter
    (StoreRow.isLive state.clock)

/- Its value. -/
def live (state : State ι) (key : Text) : Option Text :=
  (state.row key).map StoreRow.value

end State

/- `DELETE .. WHERE live AND value = rows[0]` -/
def deleteValue
    (state : State ι)
    (key value : Text) : Option Text × StoreTable :=
  let claimed := state.table.deleteWhere key fun row =>
    row.isLive state.clock && row.value == value
  (claimed.1.map fun _ => value, claimed.2)

/-
  The second statement of the fallback.  A SELECT that finds
  nothing ends its call: there is nothing to claim.
-/
def claimSelected
    (state : State ι)
    (caller : ι)
    (key : Text) : Option Text × State ι :=
  match state.selected caller with
  | none => (none, state)
  | some value =>
      let claimed := deleteValue state key value
      (claimed.1, { state with table := claimed.2 })

/-
  A value is taken: its row was live, and only it is gone.
-/
def Takes
    (before : State ι)
    (key value : Text)
    (later : State ι) : Prop :=
  before.live key = some value ∧
    later.table.lookup key = none ∧
    ∀ other, other ≠ key →
      later.table.lookup other = before.table.lookup other

/- A row that is deleted was there, and is gone. -/
theorem takes_of_deleted
    {state : State ι}
    {key : Text}
    {condition : StoreRow → Bool}
    {row : StoreRow}
    {later : State ι}
    (hTable : later.table =
      (state.table.deleteWhere key condition).2)
    (hRow : (state.table.lookup key).filter condition =
      some row)
    (hLive : row.isLive state.clock = true) :
    Takes state key row.value later := by
  have hStored := (Option.filter_eq_some_iff.mp hRow).1
  have hMeets := (Option.filter_eq_some_iff.mp hRow).2
  refine ⟨?_, ?_, ?_⟩
  · unfold State.live State.row
    rw [hStored, Option.filter_some, if_pos hLive]
    rfl
  · rw [hTable, Table.lookup_deleteWhere, if_pos rfl,
      hStored]
    simp [Option.filter, hMeets]
  · intro other hOther
    rw [hTable, Table.lookup_deleteWhere,
      if_neg (Ne.symm hOther)]

variable [DecidableEq ι]

/-
  What a step answers, if it ends a `get_and_delete`, and
  the state it leaves.
-/
def execute : Step ι → State ι → Option Text × State ι
  | .pass time, state =>
      (none, { state with clock := state.clock + time })
  | .purge batch, state =>
      (none, { state with
        table := Transaction.purge state.clock state.table
          batch })
  | .transaction made, state =>
      (none, { state with
        table := (made.exec state.clock state.table).2 })
  | .returning _ key, state =>
      let deleted := Transaction.consumeRow state.clock
        state.table key true
      (deleted.1, { state with table := deleted.2 })
  | .select caller key, state =>
      (none, { state with
        selected := Function.update state.selected caller
          (state.live key) })
  | .claim caller key, state =>
    claimSelected state caller key

/- The state after some steps. -/
def after (steps : List (Step ι)) (state : State ι) :
    State ι :=
  steps.foldl (fun state step =>
    (execute step state).2) state

/- The steps that a caller makes. -/
def Step.isOf (caller : ι) : Step ι → Bool
  | .returning other _ => other = caller
  | .select other _ => other = caller
  | .claim other _ => other = caller
  | _ => false

------------------------------------------------------------
-- The Contract
------------------------------------------------------------

/-
  A call of one caller for a key, in a run: what is before
  it, its two statements, and what is between them.
-/
structure FallbackCall (ι : Type) where
  caller : ι
  key : Text
  before : List (Step ι)
  between : List (Step ι)
  rest : List (Step ι)

namespace FallbackCall

variable (call : FallbackCall ι)

/- The run that the call is in. -/
def run : List (Step ι) :=
  call.before ++ .select call.caller call.key ::
    (call.between ++
      .claim call.caller call.key :: call.rest)

/- The caller makes no other statement meanwhile. -/
def Alone : Prop :=
  ∀ step ∈ call.between, step.isOf call.caller = false

variable (start : State ι)

/- The state that its SELECT meets. -/
def opened : State ι :=
  after call.before start

/- The state after its SELECT and some of what is between. -/
def meanwhile (steps : List (Step ι)) : State ι :=
  after (.select call.caller call.key :: steps)
    (call.opened start)

/- The state that its DELETE meets. -/
def closing : State ι :=
  call.meanwhile start call.between

/- What its DELETE answers and leaves. -/
def ended : Option Text × State ι :=
  execute (.claim call.caller call.key) (call.closing start)

end FallbackCall

/- A call that has RETURNING, in a run. -/
structure ReturningCall (ι : Type) where
  caller : ι
  key : Text
  before : List (Step ι)
  rest : List (Step ι)

/- The run with one statement in place of two. -/
def ReturningCall.run (call : ReturningCall ι) :
    List (Step ι) :=
  call.before ++ .returning call.caller call.key :: call.rest

/- A step hands out a value of the key. -/
def Hands
    (key : Text)
    (step : Step ι)
    (state : State ι) : Prop :=
  (∃ caller, step = .returning caller key ∨
      step = .claim caller key) ∧
    (execute step state).1.isSome

/- A step that may put a row under the key. -/
def Stores (key : Text) : Step ι → Prop
  | .transaction (.write other _ _) => other = key
  | .transaction (.claim other _ _) => other = key
  | _ => False

/-
  What `get_and_delete` promises in a run: a value comes
  from a live row, which is gone at once; a call that is
  turned away met a moment without a live row; and a row is
  handed out once, unless another is stored.
-/
structure Indivisible
    (run : List (Step ι))
    (start : State ι) : Prop where
  returned : ∀ call : ReturningCall ι, call.run = run →
    let state := after call.before start
    let done := execute (.returning call.caller call.key)
      state
    (∀ value, done.1 = some value →
      Takes state call.key value done.2) ∧
    (done.1 = none → state.live call.key = none)
  claimed : ∀ call : FallbackCall ι, call.run = run →
    call.Alone →
    ∀ value, (call.ended start).1 = some value →
      Takes (call.closing start) call.key value
        (call.ended start).2
  refused : ∀ call : FallbackCall ι, call.run = run →
    call.Alone →
    (call.ended start).1 = none →
      ∃ steps, steps <+: call.between ∧
        (call.meanwhile start steps).live call.key = none
  once : ∀ before first between second rest key,
    before ++ first :: (between ++ second :: rest) = run →
    Hands key first (after before start) →
    Hands key second
      (after (before ++ first :: between) start) →
      ∃ step ∈ between, Stores key step

/-
  Between the two statements of each call, a row that stays
  live keeps the value that was read.
-/
def Unchanged
    (run : List (Step ι))
    (start : State ι) : Prop :=
  ∀ call : FallbackCall ι, call.run = run → call.Alone →
    (∀ steps, steps <+: call.between →
      (call.meanwhile start steps).live call.key ≠ none) →
    (call.closing start).live call.key =
      (call.opened start).live call.key

------------------------------------------------------------
-- Single Statements
------------------------------------------------------------

section Statements

variable {state : State ι}
variable {caller : ι}
variable {key other value : Text}

/- A deletion with a result takes the value. -/
theorem takes_returning
    (hDone :
      (execute (.returning caller key) state).1 =
        some value) :
    Takes state key value
      (execute (.returning caller key) state).2 := by
  change ((state.table.lookup key).filter
    (StoreRow.isLive state.clock)).map StoreRow.value =
      some value at hDone
  rcases Option.map_eq_some_iff.mp hDone with
    ⟨row, hRow, rfl⟩
  exact takes_of_deleted rfl hRow
    (Option.filter_eq_some_iff.mp hRow).2

theorem not_live_of_returning
    (hDone :
      (execute (.returning caller key) state).1 = none) :
    state.live key = none :=
  hDone

/- A claim deletes by the value that was selected. -/
theorem execute_claim_some
    (hSelected : state.selected caller = some value) :
    execute (.claim caller key) state =
      ((deleteValue state key value).1,
        { state with
          table := (deleteValue state key value).2 }) := by
  change claimSelected state caller key = _
  unfold claimSelected
  rw [hSelected]

/- Who has selected nothing deletes nothing. -/
theorem execute_claim_none
    (hSelected : state.selected caller = none) :
    execute (.claim caller key) state = (none, state) := by
  change claimSelected state caller key = _
  unfold claimSelected
  rw [hSelected]

/- What a claim hands out is what was selected, and live. -/
theorem takes_claim
    (hDone :
      (execute (.claim caller key) state).1 = some value) :
    state.selected caller = some value ∧
      Takes state key value
        (execute (.claim caller key) state).2 := by
  cases hSelected : state.selected caller with
  | none =>
      rw [execute_claim_none hSelected] at hDone
      cases hDone
  | some selected =>
      rw [execute_claim_some hSelected] at hDone ⊢
      rcases Option.map_eq_some_iff.mp hDone with
        ⟨row, hRow, hValue⟩
      have hMeets := (Option.filter_eq_some_iff.mp hRow).2
      rw [Bool.and_eq_true, beq_iff_eq] at hMeets
      have hTakes :
          Takes state key row.value
            { state with
              table :=
                (deleteValue state key selected).2 } :=
        takes_of_deleted rfl hRow hMeets.1
      rw [hMeets.2] at hTakes
      subst hValue
      exact ⟨rfl, hTakes⟩

/- A live row with the value that was selected is deleted. -/
theorem claim_of_live
    (hSelected : state.selected caller = some value)
    (hLive : state.live key = some value) :
    (execute (.claim caller key) state).1 = some value := by
  rw [execute_claim_some hSelected]
  rcases Option.map_eq_some_iff.mp hLive with
    ⟨row, hRow, hValue⟩
  have hStored := (Option.filter_eq_some_iff.mp hRow).1
  have hFresh := (Option.filter_eq_some_iff.mp hRow).2
  have hMeets :
      (row.isLive state.clock && row.value == value) =
        true := by
    rw [hFresh, hValue]
    simp
  change ((state.table.lookup key).filter fun row =>
      row.isLive state.clock && row.value == value).map
    (fun _ => value) = some value
  rw [hStored, Option.filter_some, if_pos hMeets]
  rfl

/- Another caller's steps leave a selection alone. -/
theorem selected_execute
    {step : Step ι}
    (hStep : step.isOf caller = false) :
    (execute step state).2.selected caller =
      state.selected caller := by
  cases step with
  | pass time => rfl
  | purge batch => rfl
  | transaction made => rfl
  | returning other key => rfl
  | select other key =>
      have hOther : caller ≠ other := by
        intro hSame
        unfold Step.isOf at hStep
        rw [decide_eq_false_iff_not] at hStep
        exact hStep hSame.symm
      exact Function.update_of_ne hOther _ _
  | claim other key =>
      cases hSelected : state.selected other with
      | none => rw [execute_claim_none hSelected]
      | some value => rw [execute_claim_some hSelected]

/- Others do not change what was selected. -/
theorem selected_after
    {steps : List (Step ι)}
    (hSteps : ∀ step ∈ steps, step.isOf caller = false) :
    (after steps state).selected caller =
      state.selected caller := by
  induction steps generalizing state with
  | nil => rfl
  | cons step steps ih =>
      have hRest := @ih (execute step state).2
        fun later hLater =>
          hSteps later (List.mem_cons_of_mem _ hLater)
      exact hRest.trans
        (selected_execute (hSteps step List.mem_cons_self))

end Statements

------------------------------------------------------------
-- Rows That Are Gone
------------------------------------------------------------

section Gone

variable {state : State ι}
variable {table : StoreTable}
variable {key : Text}

/- Inserting another row leaves this one. -/
theorem lookup_insert_of_ne
    {other : Text}
    {row : StoreRow}
    (hOther : other ≠ key) :
    (Transaction.insert table other row).2.lookup key =
      table.lookup key := by
  unfold Transaction.insert
  cases table.lookup other with
  | none => exact AList.lookup_insert_ne (Ne.symm hOther)
  | some _ => rfl

theorem lookup_updateWhere_none
    {other : Text}
    {condition : StoreRow → Bool}
    {change : StoreRow → StoreRow}
    (hGone : table.lookup key = none) :
    (table.updateWhere other condition change).2.lookup key =
      none := by
  rw [Table.lookup_updateWhere, hGone]
  simp

theorem lookup_deleteWhere_none
    {other : Text}
    {condition : StoreRow → Bool}
    (hGone : table.lookup key = none) :
    (table.deleteWhere other condition).2.lookup key =
      none := by
  rw [Table.lookup_deleteWhere, hGone]
  simp

/- A transaction stores no row that it does not insert. -/
omit [DecidableEq ι] in
theorem lookup_transaction_none
    {made : Transaction}
    {now : Nat}
    (hMade : ¬ Stores (ι := ι) key (.transaction made))
    (hGone : table.lookup key = none) :
    (made.exec now table).2.lookup key = none := by
  cases made with
  | clock => exact hGone
  | selectValue => exact hGone
  | selectVersion => exact hGone
  | selectKey => exact hGone
  | write other columns expiresAt =>
      have hUpdated :
          (table.updateWhere other (fun _ => true)
            (StoreRow.overwrite columns
              (some expiresAt))).2.lookup key = none :=
        lookup_updateWhere_none hGone
      unfold Transaction.exec Transaction.writeRow
      dsimp only
      split
      · exact hUpdated
      · rw [lookup_insert_of_ne hMade]
        exact hUpdated
  | update => exact lookup_updateWhere_none hGone
  | updateVersion => exact lookup_updateWhere_none hGone
  | extend => exact lookup_updateWhere_none hGone
  | remove other =>
      exact lookup_deleteWhere_none
        (lookup_deleteWhere_none hGone)
  | claim other columns expiresAt =>
      have hDropped : (table.deleteWhere other fun row =>
          row.expiresAt ≤ now).2.lookup key = none :=
        lookup_deleteWhere_none hGone
      exact (lookup_insert_of_ne hMade).trans hDropped
  | consume other returning =>
      cases returning with
      | true => exact lookup_deleteWhere_none hGone
      | false =>
          have hConsumed :
              (Transaction.consumeRow now table other
                false).2.lookup key = none := by
            unfold Transaction.consumeRow
            cases (table.lookup other).filter
                (StoreRow.isLive now) with
            | none => exact hGone
            | some row => exact lookup_deleteWhere_none hGone
          exact hConsumed
  | selectUser => exact hGone
  | selectKeys => exact hGone

theorem lookup_execute_none
    {step : Step ι}
    (hStep : ¬ Stores key step)
    (hGone : state.table.lookup key = none) :
    (execute step state).2.table.lookup key = none := by
  cases step with
  | pass time => exact hGone
  | purge batch =>
      cases hLeft :
        (Transaction.purge state.clock state.table
          batch).lookup key with
      | none => exact hLeft
      | some row =>
          have hOld := Table.lookup_of_sweep batch hLeft
          rw [hGone] at hOld
          cases hOld
  | transaction made =>
      exact lookup_transaction_none hStep hGone
  | returning caller other =>
      exact lookup_deleteWhere_none hGone
  | select caller other => exact hGone
  | claim caller other =>
      cases hSelected : state.selected caller with
      | none =>
          rw [execute_claim_none hSelected]
          exact hGone
      | some value =>
          rw [execute_claim_some hSelected]
          exact lookup_deleteWhere_none hGone

/- A row stays away while nobody stores it. -/
theorem lookup_after_none
    {steps : List (Step ι)}
    (hSteps : ∀ step ∈ steps, ¬ Stores key step)
    (hGone : state.table.lookup key = none) :
    (after steps state).table.lookup key = none := by
  induction steps generalizing state with
  | nil => exact hGone
  | cons step steps ih =>
      apply ih
      · intro later hLater
        exact hSteps later (List.mem_cons_of_mem _ hLater)
      · exact lookup_execute_none
          (hSteps step List.mem_cons_self) hGone

/- A step that hands out a value takes it. -/
theorem takes_of_hands
    {step : Step ι}
    (hHands : Hands key step state) :
    ∃ value, Takes state key value
      (execute step state).2 := by
  rcases hHands with ⟨⟨caller, hStep⟩, hSome⟩
  rcases Option.isSome_iff_exists.mp hSome with
    ⟨value, hDone⟩
  rcases hStep with rfl | rfl
  · exact ⟨value, takes_returning hDone⟩
  · exact ⟨value, (takes_claim hDone).2⟩

end Gone

------------------------------------------------------------
-- Runs
------------------------------------------------------------

section Runs

variable {start : State ι}
variable {run : List (Step ι)}

namespace FallbackCall

variable {call : FallbackCall ι}

/- At its DELETE the caller still has what it selected. -/
theorem selected_closing (hAlone : call.Alone) :
    (call.closing start).selected call.caller =
      (call.opened start).live call.key := by
  have hKept := @selected_after _ _
    (execute (.select call.caller call.key)
      (call.opened start)).2 call.caller _ hAlone
  exact hKept.trans (Function.update_self _ _ _)

/- The SELECT changes no row. -/
theorem live_meanwhile_nil :
    (call.meanwhile start []).live call.key =
      (call.opened start).live call.key :=
  rfl

end FallbackCall

/- The contract holds where no value is changed meanwhile. -/
theorem refused_of_unchanged
    (hUnchanged : Unchanged run start)
    (call : FallbackCall ι)
    (hRun : call.run = run)
    (hAlone : call.Alone)
    (hRefused : (call.ended start).1 = none) :
    ∃ steps, steps <+: call.between ∧
      (call.meanwhile start steps).live call.key = none := by
  by_contra hNever
  have hLive : ∀ steps, steps <+: call.between →
      (call.meanwhile start steps).live call.key ≠ none :=
    fun steps hSteps hNone => hNever ⟨steps, hSteps, hNone⟩
  have hSame := hUnchanged call hRun hAlone hLive
  have hSelected :
      (call.closing start).selected call.caller =
        (call.opened start).live call.key :=
    call.selected_closing hAlone
  have hOpened := hLive [] (List.nil_prefix)
  rw [FallbackCall.live_meanwhile_nil] at hOpened
  rcases Option.ne_none_iff_exists'.mp hOpened with
    ⟨value, hValue⟩
  rw [hValue] at hSame hSelected
  have hTaken := claim_of_live hSelected hSame
  have hEnded : (call.ended start).1 = some value := hTaken
  rw [hEnded] at hRefused
  cases hRefused

/- A value that stays live and is changed is refused. -/
theorem unchanged_of_indivisible
    (hIndivisible : Indivisible run start) :
    Unchanged run start := by
  intro call hRun hAlone hLive
  have hSelected :
      (call.closing start).selected call.caller =
        (call.opened start).live call.key :=
    call.selected_closing hAlone
  cases hEnded : (call.ended start).1 with
  | none =>
      rcases hIndivisible.refused call hRun hAlone
        hEnded with
        ⟨steps, hSteps, hNone⟩
      exact absurd hNone (hLive steps hSteps)
  | some value =>
      have hTaken := takes_claim hEnded
      rw [← hSelected, hTaken.1]
      exact hTaken.2.1

/- Once handed out, a row is stored before another is. -/
theorem stored_between
    {before between : List (Step ι)}
    {first second : Step ι}
    {key : Text}
    (hFirst : Hands key first (after before start))
    (hSecond : Hands key second
      (after (before ++ first :: between) start)) :
    ∃ step ∈ between, Stores key step := by
  by_contra hNever
  have hNone : ∀ step ∈ between, ¬ Stores key step :=
    fun step hStep hStores => hNever ⟨step, hStep, hStores⟩
  rcases takes_of_hands hFirst with ⟨_, hTakes⟩
  have hGone := lookup_after_none hNone hTakes.2.1
  rcases takes_of_hands hSecond with ⟨value, hTaken⟩
  have hSplit : after (before ++ first :: between) start =
      after between
        (execute first (after before start)).2 := by
    unfold after
    rw [List.foldl_append, List.foldl_cons]
  have hLive := hTaken.1
  rw [hSplit] at hLive
  unfold State.live State.row at hLive
  rw [hGone] at hLive
  cases hLive

/-
  In every run, `get_and_delete` keeps its contract exactly
  if no value of a row that stays live is changed between
  the two statements of a fallback.
-/
theorem indivisible_iff
    (run : List (Step ι))
    (start : State ι) :
    Indivisible run start ↔ Unchanged run start := by
  constructor
  · exact unchanged_of_indivisible
  · intro hUnchanged
    constructor
    · intro call _ state done
      constructor
      · intro value hDone
        exact takes_returning hDone
      · exact not_live_of_returning
    · intro call _ _ value hDone
      exact (takes_claim hDone).2
    · exact refused_of_unchanged hUnchanged
    · intro before first between second rest key _ hFirst
        hSecond
      exact stored_between hFirst hSecond

end Runs

/-
  With nothing between its statements, the fallback is the
  transaction `Transaction.consumeRow`.
-/
theorem consumeRow_of_adjacent
    (state : State ι)
    (caller : ι)
    (key : Text) :
    let selected := execute (.select caller key) state
    let done := execute (.claim caller key) selected.2
    (done.1, done.2.table) =
      Transaction.consumeRow state.clock state.table key
        false := by
  intro selected done
  have hSelected :
      selected.2.selected caller = state.live key :=
    Function.update_self _ _ _
  unfold Transaction.consumeRow
  cases hRow : (state.table.lookup key).filter
      (StoreRow.isLive state.clock) with
  | none =>
      have hNone : state.live key = none := by
        unfold State.live State.row
        rw [hRow]
        rfl
      rw [hNone] at hSelected
      have hDone : done = (none, selected.2) :=
        execute_claim_none hSelected
      rw [hDone]
      rfl
  | some row =>
      have hSome : state.live key = some row.value := by
        unfold State.live State.row
        rw [hRow]
        rfl
      rw [hSome] at hSelected
      have hTaken : done.1 = some row.value :=
        claim_of_live hSelected hSome
      have hDone : done =
          ((deleteValue selected.2 key row.value).1,
            { selected.2 with
              table :=
                (deleteValue selected.2 key
                  row.value).2 }) :=
        execute_claim_some hSelected
      have hStored := (Option.filter_eq_some_iff.mp hRow).1
      have hFresh := (Option.filter_eq_some_iff.mp hRow).2
      rw [hTaken, hDone]
      simp [hStored, hFresh, Option.filter]
      rfl

/-
  The attempt counter of a challenge is written between the
  two statements of the attempt that was accepted.
-/
def challenge : Text := ['c']

/- A challenge with so many attempts. -/
def attempted (attempts : Char) : Columns where
  value := [attempts]
  userId := none

/- The challenge is stored. -/
def created : List (Step Nat) :=
  [.transaction (.write challenge (attempted '1') 600)]

/- A wrong code is counted on it. -/
def counted : List (Step Nat) :=
  [.transaction (.selectVersion challenge 0),
    .transaction
      (.updateVersion challenge 0 1 (attempted '2') none)]

/- A right code reads it before, and deletes it after. -/
def accepted : FallbackCall Nat where
  caller := 0
  key := challenge
  before := created
  between := counted
  rest := []

/- No challenge is stored. -/
def empty : State Nat where
  clock := 0
  table := ∅
  selected := fun _ => none

/- The sample take was divided. -/
theorem not_indivisible :
    ¬ Indivisible accepted.run empty := by
  intro hIndivisible
  have hAlone : accepted.Alone := by
    intro step hStep
    rcases List.mem_cons.mp hStep with rfl | hStep
    · rfl
    · cases List.mem_singleton.mp hStep
      rfl
  rcases hIndivisible.refused accepted rfl hAlone (by decide)
    with ⟨steps, hSteps, hNone⟩
  have hLive : ∀ steps ∈ counted.inits,
      ((accepted.meanwhile empty steps).live
        challenge).isSome = true := by
    decide
  have hSome := hLive steps ((List.mem_inits _ _).mpr hSteps)
  have hNone' :
      (accepted.meanwhile empty steps).live challenge =
        none :=
    hNone
  rw [hNone'] at hSome
  cases hSome

end GetAndDelete

end Storage

end CrudAuth
