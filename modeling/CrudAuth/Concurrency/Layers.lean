import CrudAuth.Concurrency.Interleaving

/-
  Clients of a service that is itself implemented by
  atomic commands.

  A client calls the service; an implementation answers a
  call by a program of commands to a server.  Between two
  commands other clients may run, so a call is not atomic.
  The two ends of every call are recorded, and a contract
  of the clients together with a contract of the
  implementation is one of the layered programs.

  Main declarations:
    * `Server`
    * `layered`
    * `Layered.lower`
    * `Layered.view`
    * `Layered.underway`
    * `Layered.Discipline`
    * `Layered.lower_obeys`
    * `Layered.underway_since`
-/

------------------------------------------------------------
-- Servers And Clients
------------------------------------------------------------

namespace CrudAuth

namespace Concurrency

/-
  Answers operations at a time it does not move itself.
  `upkeep` is what it does on its own.
-/
structure Server
    (I : Interface)
    (σ : Type) where
  Upkeep : Type
  exec : (op : I.Op) → Nat → σ → I.Ret op × σ
  upkeep : Upkeep → Nat → σ → σ

variable {C I J : Interface}
variable {σ ω ε α : Type}

/- What a client does: calls, and operations of its own. -/
inductive ClientOp (C J : Interface) where
  | now
  | call (op : C.Op)
  | app (op : J.Op)

/- Answers of what a client does. -/
@[reducible]
def ClientOp.Ret : ClientOp C J → Type
  | .now => Nat
  | .call op => C.Ret op
  | .app op => J.Ret op

/- The interface a client is written against. -/
abbrev client (C J : Interface) : Interface where
  Op := ClientOp C J
  Ret := ClientOp.Ret

/- What a client does when its calls are implemented. -/
inductive LayeredOp (C I J : Interface) where
  | now
  | began (op : C.Op)
  | command (op : I.Op)
  | finished (op : C.Op) (ret : C.Ret op)
  | app (op : J.Op)

/- The two ends of a call are recorded with their times. -/
@[reducible]
def LayeredOp.Ret : LayeredOp C I J → Type
  | .now => Nat
  | .began _ => Nat
  | .command op => I.Ret op
  | .finished _ _ => Nat
  | .app op => J.Ret op

/- Clients and backend in one interface. -/
abbrev layered (C I J : Interface) : Interface where
  Op := LayeredOp C I J
  Ret := LayeredOp.Ret

/- The state of a server and of the clients' world. -/
structure Layered (σ ω : Type) where
  clock : Nat
  store : σ
  app : ω

namespace Layered

/- Time passes, and both sides keep themselves up. -/
inductive Tick
    (server : Server I σ)
    (world : Server J ω) where
  | pass (time : Nat)
  | store (upkeep : server.Upkeep)
  | app (upkeep : world.Upkeep)

variable (C)
variable (server : Server I σ)
variable (world : Server J ω)

/- The effect and the answer of one operation. -/
def exec :
    (op : LayeredOp C I J) →
    Layered σ ω →
    op.Ret × Layered σ ω
  | .now, state => (state.clock, state)
  | .began _, state => (state.clock, state)
  | .command op, state =>
      ((server.exec op state.clock state.store).1,
        { state with
          store :=
            (server.exec op state.clock state.store).2 })
  | .finished _ _, state => (state.clock, state)
  | .app op, state =>
      ((world.exec op state.clock state.app).1,
        { state with
          app := (world.exec op state.clock state.app).2 })

/- What happens between the operations. -/
def tick :
    Tick server world →
    Layered σ ω →
    Layered σ ω
  | .pass time, state =>
      { state with clock := state.clock + time }
  | .store upkeep, state =>
      { state with
        store :=
          server.upkeep upkeep state.clock state.store }
  | .app upkeep, state =>
      { state with
        app := world.upkeep upkeep state.clock state.app }

/- A server and its clients. -/
abbrev machine : Machine (layered C I J) (Layered σ ω) where
  Tick := Tick server world
  exec := exec C server world
  tick := tick server world

------------------------------------------------------------
-- Implemented Calls
------------------------------------------------------------

variable {C}

/- A program of commands, as a part of a layered one. -/
def embed :
    Program I ε α →
    Program (layered C I J) ε α :=
  Program.translate fun op =>
    Program.call (I := layered C I J) (.command op)

variable (implement :
  (op : C.Op) → Program I ε (C.Ret op))

/- An implemented call, between its two ends. -/
def served (op : C.Op) :
    Program (layered C I J) ε (C.Ret op) :=
  .perform (.began op) fun _ =>
    (embed (implement op)).bind fun ret =>
      .perform (.finished op ret) fun _ => .done ret

/- One operation of a client over the implementation. -/
def perform :
    (op : ClientOp C J) →
    Program (layered C I J) ε op.Ret
  | .now => Program.call (I := layered C I J) .now
  | .call op => served implement op
  | .app op => Program.call (I := layered C I J) (.app op)

/- A client over the implementation. -/
def lower :
    Program (client C J) ε α →
    Program (layered C I J) ε α :=
  Program.translate (perform implement)

------------------------------------------------------------
-- What A Layered Past Shows
------------------------------------------------------------

/- What the client sees of an action. -/
def shown :
    Action (layered C I J) → Option (Action (client C J))
  | ⟨.now, ret⟩ => some ⟨.now, ret⟩
  | ⟨.app op, ret⟩ => some ⟨.app op, ret⟩
  | ⟨.finished op ret, _⟩ => some ⟨.call op, ret⟩
  | ⟨.began _, _⟩ => none
  | ⟨.command _, _⟩ => none

/- The actions of the client. -/
def view
    (past : List (Action (layered C I J))) :
    List (Action (client C J)) :=
  past.filterMap shown

/- All commands, of every call so far. -/
def performed
    (past : List (Action (layered C I J))) :
    List (Action I) :=
  past.filterMap fun action =>
    match action with
    | ⟨.command op, ret⟩ => some ⟨op, ret⟩
    | _ => none

/- The client has not finished a call yet. -/
def NoCalls
    (seen : List (Action (client C J))) : Prop :=
  ∀ op ret,
    (⟨.call op, ret⟩ : Action (client C J)) ∉ seen

/- The call under way and its commands, newest first. -/
def underway :
    List (Action (layered C I J)) →
    Option (C.Op × List (Action I))
  | ⟨.began op, _⟩ :: _ => some (op, [])
  | ⟨.command op, ret⟩ :: past =>
      (underway past).map fun call =>
        (call.1, ⟨op, ret⟩ :: call.2)
  | _ => none

variable {past : List (Action (layered C I J))}

/- The commands of the call under way were performed. -/
theorem mem_of_underway
    {call : C.Op}
    {commands : List (Action I)}
    {action : Action I}
    (hUnderway : underway past = some (call, commands))
    (hAction : action ∈ commands) :
    (⟨.command action.op, action.ret⟩ :
      Action (layered C I J)) ∈ past := by
  induction past generalizing commands with
  | nil => cases hUnderway
  | cons newest past ih =>
      rcases newest with ⟨op, ret⟩
      cases op with
      | command op =>
          cases hOlder : underway past with
          | none => simp [underway, hOlder] at hUnderway
          | some older =>
              obtain ⟨rfl, rfl⟩ := by
                simpa [underway, hOlder] using hUnderway
              rcases List.mem_cons.mp hAction with
                rfl | hOld
              · exact List.mem_cons_self
              · exact List.mem_cons_of_mem _
                  (ih hOlder hOld)
      | began op =>
          obtain ⟨rfl, rfl⟩ := by
            simpa [underway] using hUnderway
          cases hAction
      | now => cases hUnderway
      | finished op ret => cases hUnderway
      | app op => cases hUnderway

@[simp]
theorem view_nil :
    view ([] : List (Action (layered C I J))) = [] :=
  rfl

/- A reading of the clock is seen as it is. -/
@[simp]
theorem view_now (ret : Nat) :
    view ((⟨.now, ret⟩ : Action (layered C I J)) :: past) =
      ⟨.now, ret⟩ :: view past :=
  rfl

/- So is an operation of the application. -/
@[simp]
theorem view_app (op : J.Op) (ret : J.Ret op) :
    view ((⟨.app op, ret⟩ : Action (layered C I J)) ::
        past) =
      ⟨.app op, ret⟩ :: view past :=
  rfl

/- A call is seen when it returns. -/
@[simp]
theorem view_finished
    (op : C.Op)
    (ret : C.Ret op)
    (time : Nat) :
    view ((⟨.finished op ret, time⟩ :
        Action (layered C I J)) :: past) =
      ⟨.call op, ret⟩ :: view past :=
  rfl

/- The start of a call is not seen. -/
@[simp]
theorem view_began (op : C.Op) (time : Nat) :
    view ((⟨.began op, time⟩ : Action (layered C I J)) ::
        past) =
      view past :=
  rfl

/- Nor are the commands that it consists of. -/
@[simp]
theorem view_command (op : I.Op) (ret : I.Ret op) :
    view ((⟨.command op, ret⟩ :
        Action (layered C I J)) :: past) =
      view past :=
  rfl

/- A call that is seen is one that has returned. -/
theorem shown_eq_call
    {action : Action (layered C I J)}
    {op : C.Op}
    {ret : C.Ret op}
    (hShown : shown action = some ⟨.call op, ret⟩) :
    ∃ time, action = ⟨.finished op ret, time⟩ := by
  rcases action with ⟨op', ret'⟩
  cases op' with
  | finished op' ret'' =>
      cases Option.some.inj hShown
      exact ⟨ret', rfl⟩
  | now => cases Option.some.inj hShown
  | app op' => cases Option.some.inj hShown
  | began op' => cases hShown
  | command op' => cases hShown

/- A call in the view has returned at some time. -/
theorem call_of_view
    {op : C.Op}
    {ret : C.Ret op}
    (hAction :
      (⟨.call op, ret⟩ : Action (client C J)) ∈
        view past) :
    ∃ time,
      (⟨.finished op ret, time⟩ :
        Action (layered C I J)) ∈ past := by
  rcases List.mem_filterMap.mp hAction with
    ⟨low, hLow, hShown⟩
  rcases shown_eq_call hShown with ⟨time, rfl⟩
  exact ⟨time, hLow⟩

/- Own operations are seen as they were performed. -/
theorem mem_view_app
    {op : J.Op}
    {ret : J.Ret op} :
    (⟨.app op, ret⟩ : Action (client C J)) ∈ view past ↔
      (⟨.app op, ret⟩ : Action (layered C I J)) ∈ past := by
  constructor
  · intro hAction
    rcases List.mem_filterMap.mp hAction with
      ⟨⟨op', ret'⟩, hLow, hShown⟩
    cases op' with
    | app op' =>
        cases Option.some.inj hShown
        exact hLow
    | now => cases Option.some.inj hShown
    | finished op' ret'' => cases Option.some.inj hShown
    | began op' => cases hShown
    | command op' => cases hShown
  · intro hAction
    exact List.mem_filterMap.mpr ⟨_, hAction, rfl⟩

/- Commands that were made were performed. -/
theorem mem_performed
    {op : I.Op}
    {ret : I.Ret op}
    (hAction :
      (⟨.command op, ret⟩ : Action (layered C I J)) ∈
        past) :
    (⟨op, ret⟩ : Action I) ∈ performed past :=
  List.mem_filterMap.mpr ⟨_, hAction, rfl⟩

/- A call that has returned is in the view. -/
theorem view_of_finished
    {op : C.Op}
    {ret : C.Ret op}
    {time : Nat}
    (hAction :
      (⟨.finished op ret, time⟩ :
        Action (layered C I J)) ∈ past) :
    (⟨.call op, ret⟩ : Action (client C J)) ∈ view past :=
  List.mem_filterMap.mpr ⟨_, hAction, rfl⟩

------------------------------------------------------------
-- Contracts Of Layered Programs
------------------------------------------------------------

/-
  What an implementation owes: which commands it performs
  in a call, and what it has done when the call returns.
-/
structure Discipline (C I : Interface) where
  rule : C.Op → List (Action I) → I.Op → Prop
  returns :
    (op : C.Op) → List (Action I) → C.Ret op → Prop

namespace Discipline

variable (discipline : Discipline C I)

/- The commands of one call. -/
def commands (op : C.Op) : Contract I where
  rule := discipline.rule op
  answer _ _ := True

/- The contract of a client over the implementation. -/
def contract
    (clients : Contract (client C J)) :
    Contract (layered C I J) where
  rule past
    | .now => clients.rule (view past) .now
    | .app op => clients.rule (view past) (.app op)
    | .began op => clients.rule (view past) (.call op)
    | .command op =>
        ∃ call commands,
          underway past = some (call, commands) ∧
          clients.rule (view past) (.call call) ∧
          discipline.rule call commands op ∧
          (NoCalls (view past) → performed past = commands)
    | .finished op ret =>
        clients.rule (view past) (.call op) ∧
        ∃ commands,
          underway past = some (op, commands) ∧
          discipline.returns op commands ret
  answer
    | .now, ret => clients.answer .now ret
    | .app op, ret => clients.answer (.app op) ret
    | _, _ => True

end Discipline

variable {discipline : Discipline C I}
variable {clients : Contract (client C J)}

/- The commands of a call keep to the contract. -/
theorem embed_obeys
    {op : C.Op}
    {program : Program I ε α}
    {commands : List (Action I)}
    {seen : List (Action (client C J))}
    {goal : List (Action I) → α → Prop}
    (hProgram :
      program.Obeys (discipline.commands op) commands
        (Program.Returns goal))
    (hUnderway : underway past = some (op, commands))
    (hSeen : view past = seen)
    (hCall : clients.rule seen (.call op))
    (hFirst : NoCalls seen → performed past = commands) :
    (embed program : Program (layered C I J) ε α).Obeys
      (discipline.contract clients) past
      (Program.Returns fun past' value =>
        ∃ commands',
          underway past' = some (op, commands') ∧
          view past' = seen ∧
          goal commands' value) := by
  induction program generalizing past commands with
  | done value =>
      simp only [embed, Program.translate,
        Program.obeys_done, Program.returns_ok]
      exact ⟨commands, hUnderway, hSeen,
        (Program.returns_ok value).mp hProgram⟩
  | raise error => simp [embed, Program.translate]
  | perform command next ih =>
      constructor
      · rw [← hSeen] at hCall hFirst
        exact ⟨op, commands, hUnderway, hCall, hProgram.1,
          hFirst⟩
      · intro ret _
        refine ih ret (hProgram.2 ret trivial) ?_ ?_ ?_
        · simp [underway, hUnderway]
        · rw [view_command, hSeen]
        · intro hNone
          rw [← hFirst hNone]
          rfl

/- A client over a disciplined implementation. -/
theorem lower_obeys
    {implement : (op : C.Op) → Program I ε (C.Ret op)}
    {program : Program (client C J) ε α}
    {post : List (Action (client C J)) →
      Except ε α → Prop}
    (hImplement : ∀ op,
      (implement op).Obeys (discipline.commands op) []
        (Program.Returns (discipline.returns op)))
    (hAnswer : ∀ op commands ret,
      discipline.returns op commands ret →
        clients.answer (.call op) ret)
    (hFirst : NoCalls (view past) → performed past = [])
    (hProgram :
      program.Obeys clients (view past) post) :
    (lower implement program).Obeys
      (discipline.contract clients) past
      fun _ _ => True := by
  let shows (low : List (Action (layered C I J)))
      (high : List (Action (client C J))) : Prop :=
    view low = high ∧ (NoCalls high → performed low = [])
  have hShows : shows past (view past) := ⟨rfl, hFirst⟩
  refine hProgram.translate hShows ?_
  rintro lowPast _ op ⟨rfl, hLow⟩ hRule
  have hOlder
      {action : Action (client C J)}
      (hNone : NoCalls (action :: view lowPast)) :
      NoCalls (view lowPast) :=
    fun op ret hCall =>
      hNone op ret (List.mem_cons_of_mem _ hCall)
  cases op with
  | now =>
      refine ⟨hRule, fun ret hRet => ?_⟩
      rw [Program.obeys_done, Program.returns_ok]
      exact ⟨hRet, rfl, fun hNone => hLow (hOlder hNone)⟩
  | app op =>
      refine ⟨hRule, fun ret hRet => ?_⟩
      rw [Program.obeys_done, Program.returns_ok]
      exact ⟨hRet, rfl, fun hNone => hLow (hOlder hNone)⟩
  | call op =>
      refine ⟨hRule, fun time _ => ?_⟩
      let start : List (Action (layered C I J)) :=
        ⟨.began op, time⟩ :: lowPast
      have hUnderway : underway start = some (op, []) := rfl
      have hSeen : view start = view lowPast := rfl
      have hStart :
          NoCalls (view lowPast) → performed start = [] :=
        hLow
      refine (embed_obeys (hImplement op) hUnderway hSeen
        hRule hStart).andThen ?_
      rintro past' ret _
        ⟨commands, hUnderway', hSeen', hRet⟩
      constructor
      · rw [← hSeen'] at hRule
        exact ⟨hRule, commands, hUnderway', hRet⟩
      · intro time' _
        rw [Program.obeys_done, Program.returns_ok]
        refine ⟨hAnswer op commands ret hRet, ?_, ?_⟩
        · rw [view_finished, hSeen']
        · intro hNone
          exact absurd List.mem_cons_self (hNone op ret)

------------------------------------------------------------
-- Time In A Layered Run
------------------------------------------------------------

variable {ι : Type} [DecidableEq ι]
variable {server : Server I σ}
variable {world : Server J ω}
variable {contract : ι → Contract (layered C I J)}
variable {condition :
  Condition ι (layered C I J) (Layered σ ω)}
variable {start state : Layered σ ω}
variable {opening history :
  List (Event ι (layered C I J))}

/- Operations take no time. -/
@[simp]
theorem clock_exec
    (op : LayeredOp C I J)
    (state : Layered σ ω) :
    (exec C server world op state).2.clock =
      state.clock := by
  cases op <;> rfl

/- Between the operations, time only passes. -/
theorem clock_tick
    (tick : Tick server world)
    (state : Layered σ ω) :
    state.clock ≤
      ((machine C server world).tick tick state).clock := by
  cases tick with
  | pass time => exact Nat.le_add_right _ _
  | store upkeep => exact Nat.le_refl _
  | app upkeep => exact Nat.le_refl _

/- The clock never goes back. -/
theorem clock_mono
    (hTrace :
      Trace (machine C server world) contract condition
        start opening state history) :
    start.clock ≤ state.clock := by
  induction hTrace with
  | start => exact Nat.le_refl _
  | @perform state history thread op _ _ _ ih =>
      rw [clock_exec op state]
      exact ih
  | @tick state history _ tick ih =>
      exact ih.trans (clock_tick tick state)

/-
  The commands of the call under way were answered between
  its beginning and now.
-/
theorem underway_since
    {thread : ι}
    {call : C.Op}
    {made : List (Action I)}
    (hTrace :
      Trace (machine C server world) contract condition
        start [] state history)
    (hUnderway :
      underway (own thread history) = some (call, made)) :
    ∃ began,
      (⟨thread, .began call, began⟩ :
        Event ι (layered C I J)) ∈ history ∧
      began ≤ state.clock ∧
      ∀ action ∈ made, ∃ time store,
        began ≤ time ∧ time ≤ state.clock ∧
        action.ret =
          (server.exec action.op time store).1 := by
  induction hTrace generalizing made with
  | start => cases hUnderway
  | @perform state history active op hTrace _ _ ih =>
      by_cases hThread : active = thread
      · subst hThread
        have hOwn :
            underway
                (⟨op, ((machine C server world).exec op
                  state).1⟩ :: own active history) =
              some (call, made) := by
          simpa [own, Event.action] using hUnderway
        cases op with
        | began op =>
            obtain ⟨rfl, rfl⟩ := by
              simpa [underway] using hOwn
            refine ⟨state.clock, List.mem_cons_self,
              Nat.le_refl _, ?_⟩
            intro action hAction
            cases hAction
        | command command =>
            cases hOlder : underway (own active history) with
            | none => simp [underway, hOlder] at hOwn
            | some older =>
                obtain ⟨rfl, rfl⟩ := by
                  simpa [underway, hOlder] using hOwn
                rcases ih hOlder with
                  ⟨began, hBegan, hClock, hMade⟩
                refine ⟨began, List.mem_cons_of_mem _ hBegan,
                  hClock, ?_⟩
                intro action hAction
                rcases List.mem_cons.mp hAction with
                  rfl | hOld
                · exact ⟨state.clock, state.store, hClock,
                    Nat.le_refl _, rfl⟩
                · exact hMade action hOld
        | now => cases hOwn
        | finished op ret => cases hOwn
        | app op => cases hOwn
      · rw [own_cons_of_ne hThread] at hUnderway
        rcases ih hUnderway with
          ⟨began, hBegan, hClock, hMade⟩
        rw [clock_exec op state]
        exact ⟨began, List.mem_cons_of_mem _ hBegan, hClock,
          hMade⟩
  | @tick state history _ tick ih =>
      rcases ih hUnderway with
        ⟨began, hBegan, hClock, hMade⟩
      have hLater :
          state.clock ≤
            ((machine C server world).tick tick
              state).clock :=
        clock_tick tick state
      refine ⟨began, hBegan, hClock.trans hLater, ?_⟩
      intro action hAction
      rcases hMade action hAction with
        ⟨time, store, hBefore, hAfter, hRet⟩
      exact ⟨time, store, hBefore, hAfter.trans hLater, hRet⟩

end Layered

end Concurrency

end CrudAuth
