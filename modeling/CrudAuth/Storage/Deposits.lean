import CrudAuth.Storage.Backends

/-
  Values that are stored under a key of their own, and
  taken out again: `create` and `get_and_delete` on every
  backend.

  A client that creates under a key once gets the value out
  once, by whichever of its calls comes first, and not after
  the value's time.

  Main declarations:
    * `Deposits`
    * `Deposits.discipline`
    * `depositsOf`
    * `depositsOf_obeys`
-/

------------------------------------------------------------
-- Deposits
------------------------------------------------------------

namespace CrudAuth

namespace Storage

open Concurrency
open Concurrency.Program

variable {κ ν σ : Type}
variable {I : Interface}

/-
  What the commands of the two calls do to the rows.  `puts`
  and `takes` read it off an answered command: a put is kept
  until `due`, and a take finds what was kept at `asOf`.
  `tells` is the time that an answer tells.
-/
structure Deposits
    (κ ν : Type)
    (server : Server I σ) where
  row : σ → κ → Option (ν × Option Nat)
  performs : I.Op → Prop
  puts : Action I → Option (κ × ν)
  takes : Action I → Option (κ × ν)
  due : I.Op → Nat → Nat
  asOf : I.Op → Nat → Nat
  tells : Action I → Option Nat
  tells_exec : ∀ op now state time,
    tells ⟨op, (server.exec op now state).1⟩ = some time →
    time = now
  row_exec : ∀ op now state key value deadline,
    performs op →
    row (server.exec op now state).2 key =
      some (value, deadline) →
    row state key = some (value, deadline) ∨
      puts ⟨op, (server.exec op now state).1⟩ =
          some (key, value) ∧
        deadline = some (due op now)
  row_take : ∀ op now state key value,
    takes ⟨op, (server.exec op now state).1⟩ =
      some (key, value) →
    (∃ deadline,
      row state key = some (value, deadline) ∧
        ∀ time ∈ deadline, asOf op now ≤ time) ∧
    row (server.exec op now state).2 key = none
  row_upkeep : ∀ upkeep now state key kept,
    row (server.upkeep upkeep now state) key = some kept →
    row state key = some kept

namespace Deposits

variable {server : Server I σ}
variable (deposits : Deposits κ ν server)

/- The times that a call has been told lie in between. -/
def Told
    (made : List (Action I))
    (since now : Nat) : Prop :=
  ∀ action ∈ made, ∀ time ∈ deposits.tells action,
    since ≤ time ∧ time ≤ now

/-
  A `create` puts its value once, for its expiration from
  now at most; a `get_and_delete` takes from its own key,
  as of no earlier than it began.
-/
def rule
    (call : Call κ ν)
    (made : List (Action I))
    (op : I.Op) : Prop :=
  match call with
  | .create key data expiration =>
      deposits.performs op ∧
      (∀ ret, deposits.takes ⟨op, ret⟩ = none) ∧
      ∀ ret written,
        deposits.puts ⟨op, ret⟩ = some written →
          written = (key, data) ∧
          (∀ action ∈ made, deposits.puts action = none) ∧
          ∀ since now,
            deposits.Told made since now →
            ∀ seconds ∈ expiration,
              deposits.due op now ≤ now + seconds * 1000
  | .getAndDelete key =>
      deposits.performs op ∧
      (∀ ret, deposits.puts ⟨op, ret⟩ = none) ∧
      ∀ ret written,
        deposits.takes ⟨op, ret⟩ = some written →
          written.1 = key ∧
          ∀ since now,
            deposits.Told made since now →
            since ≤ now →
              since ≤ deposits.asOf op now
  | _ => True

/- What a `get_and_delete` returns, it has taken. -/
def returns
    (call : Call κ ν)
    (made : List (Action I))
    (ret : call.Ret) : Prop :=
  match call, ret with
  | .getAndDelete key, some value =>
      ∃ action ∈ made,
        deposits.takes action = some (key, value)
  | _, _ => True

/- Deposits rule a layer over their backend. -/
def discipline : Layered.Discipline (calls κ ν) I where
  rule := deposits.rule
  returns := deposits.returns

variable {deposits}
variable {α : Type}
variable {call : Call κ ν}
variable {made : List (Action I)}
variable {post : List (Action I) → Except HttpError α → Prop}

/- A command with the rest of its call. -/
theorem obeys_command
    {op : I.Op}
    {rest : I.Ret op → Program I HttpError α}
    (hRule : deposits.rule call made op)
    (hRest : ∀ ret,
      Obeys (deposits.discipline.commands call)
        (⟨op, ret⟩ :: made) (rest ret) post) :
    Obeys (deposits.discipline.commands call) made
      ((Program.call op).bind rest) post :=
  ⟨hRule, fun ret _ => hRest ret⟩

/- The last command of a call. -/
theorem obeys_last
    {op : I.Op}
    {post :
      List (Action I) → Except HttpError (I.Ret op) → Prop}
    (hRule : deposits.rule call made op)
    (hPost : ∀ ret, post (⟨op, ret⟩ :: made) (.ok ret)) :
    Obeys (deposits.discipline.commands call) made
      (Program.call op) post :=
  ⟨hRule, fun ret _ => hPost ret⟩

variable (deposits)

/- An implementation keeps to the discipline. -/
def Keeps
    (implement :
      (call : Call κ ν) →
        Program I HttpError call.Ret) : Prop :=
  ∀ call,
    Obeys (deposits.discipline.commands call) []
      (implement call)
      (Returns (deposits.discipline.returns call))

variable {deposits}

/- Calls but the two owe nothing. -/
theorem keeps_of_both
    {implement :
      (call : Call κ ν) → Program I HttpError call.Ret}
    (hCreate : ∀ key data expiration,
      Obeys
        (deposits.discipline.commands
          (.create key data expiration)) []
        (implement (.create key data expiration))
        fun _ _ => True)
    (hTake : ∀ key,
      Obeys
        (deposits.discipline.commands (.getAndDelete key))
        [] (implement (.getAndDelete key))
        (Returns
          (deposits.discipline.returns
            (.getAndDelete key)))) :
    deposits.Keeps implement := by
  intro call
  have hOther
      (hRule : ∀ made op, deposits.rule call made op)
      (hReturns : ∀ made ret,
        deposits.returns call made ret) :
      Obeys (deposits.discipline.commands call) []
        (implement call)
        (Returns (deposits.discipline.returns call)) := by
    have hFree :
        Obeys (deposits.discipline.commands call) []
          (implement call) fun _ _ => True :=
      obeys_of_free fun made op _ => hRule made op
    refine hFree.mono ?_
    intro made _ _ _ ret _
    exact hReturns made ret
  cases call with
  | create key data expiration =>
      refine (hCreate key data expiration).mono ?_
      intro _ _ _ _ _ _
      trivial
  | getAndDelete key => exact hTake key
  | get _ =>
      exact hOther (fun _ _ => trivial) fun _ _ => trivial
  | modify _ _ _ _ =>
      exact hOther (fun _ _ => trivial) fun _ _ => trivial
  | delete _ _ =>
      exact hOther (fun _ _ => trivial) fun _ _ => trivial
  | setIfAbsent _ _ _ =>
      exact hOther (fun _ _ => trivial) fun _ _ => trivial
  | getUserSessions _ =>
      exact hOther (fun _ _ => trivial) fun _ _ => trivial
  | removeFromUserIndex _ _ =>
      exact hOther (fun _ _ => trivial) fun _ _ => trivial

end Deposits

------------------------------------------------------------
-- In Memory
------------------------------------------------------------

namespace Memory

variable [DecidableEq κ] [Owned ν]

/- What a call deposits. -/
def puts : Action (calls κ ν) → Option (κ × ν)
  | ⟨.create key data _, _⟩ => some (key, data)
  | _ => none

/- What a call hands out. -/
def takes : Action (calls κ ν) → Option (κ × ν)
  | ⟨.getAndDelete key, some value⟩ => some (key, value)
  | _ => none

/- When the deposit of a call is due. -/
def due (expiration : Nat) : Call κ ν → Nat → Nat
  | .create _ _ ttl, now => now + lifetime expiration ttl
  | _, now => now

/- The calls that make and take deposits. -/
def performs : Call κ ν → Prop
  | .create _ _ _ => True
  | .getAndDelete _ => True
  | _ => False

/- The value of an entry, and when it expires. -/
def kept (memory : Memory κ ν) (key : κ) :
    Option (ν × Option Nat) :=
  (memory.lookup key).map fun entry =>
    (entry.value, some entry.expiry)

variable {memory : Memory κ ν}
variable {now : Nat}
variable {key other : κ}
variable {value : ν}

/- Nothing is kept where nothing is stored. -/
omit [Owned ν] in
theorem kept_eq_none :
    memory.kept key = none ↔ memory.lookup key = none :=
  Option.map_eq_none_iff

/- Only a take takes a value. -/
omit [DecidableEq κ] [Owned ν] in
theorem eq_of_takes
    {call : Call κ ν}
    {ret : call.Ret}
    (hTakes : takes ⟨call, ret⟩ = some (key, value)) :
    call = .getAndDelete key ∧ HEq ret (some value) := by
  cases call with
  | getAndDelete other =>
      cases ret with
      | none => cases hTakes
      | some taken =>
          obtain ⟨rfl, rfl⟩ := by simpa [takes] using hTakes
          exact ⟨rfl, HEq.rfl⟩
  | create _ _ _ => cases hTakes
  | get _ => cases hTakes
  | modify _ _ _ _ => cases hTakes
  | delete _ _ => cases hTakes
  | setIfAbsent _ _ _ => cases hTakes
  | getUserSessions _ => cases hTakes
  | removeFromUserIndex _ _ => cases hTakes

/- An expiry check brings nothing back. -/
omit [Owned ν] in
theorem kept_checkExpiry
    {entry : ν × Option Nat}
    (hKept :
      (memory.checkExpiry now other).kept key = some entry) :
    memory.kept key = some entry := by
  rcases Option.map_eq_some_iff.mp hKept with
    ⟨row, hRow, rfl⟩
  unfold checkExpiry at hRow
  rw [Table.lookup_eraseIf] at hRow
  apply Option.map_eq_some_iff.mpr
  split at hRow
  · exact ⟨row, (Option.filter_eq_some_iff.mp hRow).1, rfl⟩
  · exact ⟨row, hRow, rfl⟩

omit [Owned ν] in
/- What is there under other keys stays. -/
theorem kept_getAndDelete
    {entry : ν × Option Nat}
    (hKept :
      (memory.getAndDelete now key).2.kept other =
        some entry) :
    key ≠ other ∧ memory.kept other = some entry := by
  unfold getAndDelete get at hKept
  cases hRow : (memory.checkExpiry now key).lookup key with
  | none =>
      simp only [hRow, Option.map_none] at hKept
      refine ⟨?_, kept_checkExpiry hKept⟩
      rintro rfl
      unfold kept at hKept
      rw [hRow] at hKept
      cases hKept
  | some row =>
      simp only [hRow, Option.map_some] at hKept
      unfold delete kept at hKept
      dsimp only at hKept
      rw [Table.lookup_erase'] at hKept
      split at hKept
      · cases hKept
      · rename_i hKey
        exact ⟨hKey, kept_checkExpiry hKept⟩

omit [Owned ν] in
/- What is taken was there, and in time. -/
theorem kept_of_getAndDelete
    {value : ν}
    (hTaken : (memory.getAndDelete now key).1 = some value) :
    ∃ expiry,
      memory.kept key = some (value, some expiry) ∧
        now ≤ expiry := by
  unfold getAndDelete get at hTaken
  cases hRow : (memory.checkExpiry now key).lookup key with
  | none => simp [hRow] at hTaken
  | some entry =>
      simp only [hRow, Option.map_some, Option.some.injEq]
        at hTaken
      unfold checkExpiry at hRow
      rw [Table.lookup_eraseIf, if_pos rfl,
        Option.filter_eq_some_iff] at hRow
      refine ⟨entry.expiry, ?_, ?_⟩
      · unfold kept
        rw [hRow.1, ← hTaken]
        rfl
      · simpa [expired] using hRow.2

/- Only a `create` adds to what is kept. -/
theorem kept_exec
    {expiration : Nat}
    {call : Call κ ν}
    {deadline : Option Nat}
    (hPerforms : performs call)
    (hKept :
      (exec expiration call now memory).2.kept key =
        some (value, deadline)) :
    memory.kept key = some (value, deadline) ∨
      puts ⟨call, (exec expiration call now memory).1⟩ =
          some (key, value) ∧
        deadline = some (due expiration call now) := by
  cases call with
  | create other data ttl =>
      have hInsert :
          (exec expiration (.create other data ttl) now
              memory).2.lookup key =
            if other = key then
              some ⟨data, now + lifetime expiration ttl⟩
            else
              memory.lookup key :=
        Table.lookup_insert' _ _ _ _
      unfold kept at hKept ⊢
      rw [hInsert] at hKept
      split at hKept
      · rename_i hKey
        subst hKey
        obtain ⟨rfl, rfl⟩ := by simpa using hKept
        exact Or.inr ⟨rfl, rfl⟩
      · exact Or.inl hKept
  | getAndDelete other =>
      exact Or.inl (kept_getAndDelete hKept).2
  | get other => cases hPerforms
  | modify other change reset ttl => cases hPerforms
  | delete other userId => cases hPerforms
  | setIfAbsent other data ttl => cases hPerforms
  | getUserSessions userId => cases hPerforms
  | removeFromUserIndex userId other => cases hPerforms

/- What is taken was kept, in time, and is so no longer. -/
theorem kept_take
    {expiration : Nat}
    {call : Call κ ν}
    (hTakes :
      takes ⟨call, (exec expiration call now memory).1⟩ =
        some (key, value)) :
    (∃ deadline,
      memory.kept key = some (value, deadline) ∧
        ∀ time ∈ deadline, now ≤ time) ∧
    (exec expiration call now memory).2.kept key = none := by
  rcases eq_of_takes hTakes with ⟨rfl, hRet⟩
  rcases kept_of_getAndDelete (eq_of_heq hRet) with
    ⟨expiry, hKept, hTime⟩
  refine ⟨⟨some expiry, hKept, ?_⟩, ?_⟩
  · rintro _ ⟨⟩
    exact hTime
  · rw [Option.eq_none_iff_forall_ne_some]
    intro entry hLeft
    exact (kept_getAndDelete hLeft).1 rfl

/- Nor does a sweep. -/
omit [Owned ν] in
theorem kept_sweep
    {entry : ν × Option Nat}
    (hKept : (memory.sweep now).kept key = some entry) :
    memory.kept key = some entry := by
  rcases Option.map_eq_some_iff.mp hKept with
    ⟨row, hRow, rfl⟩
  exact Option.map_eq_some_iff.mpr
    ⟨row, Table.lookup_of_sweep _ hRow, rfl⟩

end Memory

section

variable [DecidableEq κ] [Owned ν]

/- Deposits in memory. -/
def memoryDeposits (expiration : Nat) :
    Deposits κ ν
      (Memory.server expiration :
        Server (calls κ ν) (Memory κ ν)) where
  row := Memory.kept
  performs := Memory.performs
  puts := Memory.puts
  takes := Memory.takes
  due := Memory.due expiration
  asOf _ now := now
  tells _ := none
  tells_exec := by
    intro op now state time hTells
    cases hTells
  row_exec _ _ _ _ _ _ := Memory.kept_exec
  row_take _ _ _ _ _ := Memory.kept_take
  row_upkeep _ _ _ _ _ := Memory.kept_sweep

end

------------------------------------------------------------
-- In The Database
------------------------------------------------------------

namespace Database

variable [DecidableEq κ] [DecidableEq ν]

/- What a statement deposits. -/
def puts : Action (statements κ ν) → Option (κ × ν)
  | ⟨.update key data, true⟩ => some (key, data.value)
  | ⟨.insert key data, true⟩ => some (key, data.value)
  | _ => none

/- What a statement hands out. -/
def takes : Action (statements κ ν) → Option (κ × ν)
  | ⟨.deleteReturning key _, some value⟩ => some (key, value)
  | ⟨.deleteValue key _ value, true⟩ => some (key, value)
  | _ => none

/- When the deposit of a statement is due. -/
def due : Statement κ ν → Nat → Nat
  | .update _ data, _ => data.expiresAt.getD 0
  | .insert _ data, _ => data.expiresAt.getD 0
  | _, now => now

/- A delete looks at the rows of the time it was built at. -/
def asOf : Statement κ ν → Nat → Nat
  | .deleteReturning _ current, _ => current
  | .deleteValue _ current _, _ => current
  | _, now => now

/- The time that a statement tells. -/
def tells : Action (statements κ ν) → Option Nat
  | ⟨.clock, time⟩ => some time
  | _ => none

/- The statements that deposits are made and taken with. -/
def performs : Statement κ ν → Prop
  | .clock => True
  | .update _ data => data.expiresAt.isSome = true
  | .insert _ data => data.expiresAt.isSome = true
  | .select _ _ => True
  | .deleteReturning _ _ => True
  | .deleteValue _ _ _ => True
  | _ => False

/- The value of a row, and when it expires. -/
def kept (database : Database κ ν) (key : κ) :
    Option (ν × Option Nat) :=
  (database.lookup key).map fun row =>
    (row.value, some row.expiresAt)

variable {database : Database κ ν}
variable {now : Nat}
variable {key other : κ}
variable {value : ν}
variable {statement : Statement κ ν}

omit [DecidableEq ν] in
theorem kept_eq_none :
    database.kept key = none ↔ database.lookup key = none :=
  Option.map_eq_none_iff

omit [DecidableEq ν] in
/- A delete adds nothing. -/
theorem kept_deleteWhere
    {condition : Row ν → Bool}
    {entry : ν × Option Nat}
    (hKept :
      (database.deleteWhere other condition).2.kept key =
        some entry) :
    database.kept key = some entry := by
  rcases Option.map_eq_some_iff.mp hKept with
    ⟨row, hRow, rfl⟩
  rw [lookup_deleteWhere] at hRow
  apply Option.map_eq_some_iff.mpr
  split at hRow
  · exact ⟨row, (Option.filter_eq_some_iff.mp hRow).1, rfl⟩
  · exact ⟨row, hRow, rfl⟩

omit [DecidableEq ν] in
/- A row that was deleted is gone. -/
theorem kept_deleted
    {condition : Row ν → Bool}
    {row : Row ν}
    (hRow :
      (database.deleteWhere key condition).1 = some row) :
    database.kept key =
        some (row.value, some row.expiresAt) ∧
      condition row = true ∧
      (database.deleteWhere key condition).2.kept key =
        none := by
  rw [deleteWhere_fst, Option.filter_eq_some_iff] at hRow
  refine ⟨?_, hRow.2, ?_⟩
  · unfold kept
    rw [hRow.1]
    rfl
  · rw [kept_eq_none, lookup_deleteWhere, if_pos rfl, hRow.1]
    simp [Option.filter, hRow.2]

/- Only an update or an insert adds to what is kept. -/
theorem kept_exec
    {deadline : Option Nat}
    (hPerforms : performs statement)
    (hKept :
      (exec statement now database).2.kept key =
        some (value, deadline)) :
    database.kept key = some (value, deadline) ∨
      puts ⟨statement, (exec statement now database).1⟩ =
          some (key, value) ∧
        deadline = some (due statement now) := by
  cases statement with
  | clock => exact Or.inl hKept
  | select other current => exact Or.inl hKept
  | deleteReturning other current =>
      exact Or.inl (kept_deleteWhere hKept)
  | deleteValue other current old =>
      exact Or.inl (kept_deleteWhere hKept)
  | update other data =>
      rcases Option.isSome_iff_exists.mp hPerforms with
        ⟨expires, hExpires⟩
      rcases Option.map_eq_some_iff.mp hKept with
        ⟨row, hRow, hEntry⟩
      have hLookup := lookup_updateWhere.symm.trans hRow
      split at hLookup
      · rename_i hKey
        subst hKey
        rcases Option.map_eq_some_iff.mp hLookup with
          ⟨old, hOld, rfl⟩
        have hWritten :
            (exec (.update other data) now database).1 =
              true := by
          refine updateWhere_fst.trans ?_
          rw [hOld]
          rfl
        rw [hWritten]
        obtain ⟨rfl, rfl⟩ := Prod.mk.inj hEntry
        refine Or.inr ⟨rfl, ?_⟩
        simp [written, due, hExpires]
      · exact Or.inl (Option.map_eq_some_iff.mpr
          ⟨row, hLookup, hEntry⟩)
  | insert other data =>
      rcases Option.isSome_iff_exists.mp hPerforms with
        ⟨expires, hExpires⟩
      rcases Option.map_eq_some_iff.mp hKept with
        ⟨row, hRow, hEntry⟩
      have hLookup := lookup_insertRow.symm.trans hRow
      split at hLookup
      · rename_i hFree
        rcases hFree with ⟨rfl, hFree⟩
        cases hLookup
        have hInserted :
            (exec (.insert other data) now database).1 =
              true := by
          refine insertRow_fst.trans ?_
          rw [hFree]
          rfl
        rw [hInserted]
        obtain ⟨rfl, rfl⟩ := Prod.mk.inj hEntry
        exact Or.inr ⟨rfl, rfl⟩
      · exact Or.inl (Option.map_eq_some_iff.mpr
          ⟨row, hLookup, hEntry⟩)
  | updateVersion _ _ _ _ => cases hPerforms
  | deleteLive _ _ => cases hPerforms
  | deleteKey _ => cases hPerforms
  | deleteExpired _ _ => cases hPerforms
  | selectKeys _ _ => cases hPerforms

/- What is taken was kept, in time, and is so no longer. -/
theorem kept_take
    (hTakes :
      takes ⟨statement, (exec statement now database).1⟩ =
        some (key, value)) :
    (∃ deadline,
      database.kept key = some (value, deadline) ∧
        ∀ time ∈ deadline, asOf statement now ≤ time) ∧
    (exec statement now database).2.kept key = none := by
  cases statement with
  | deleteReturning other current =>
      cases hDeleted :
          (database.deleteWhere other
            (isLive current)).1 with
      | none => simp [takes, exec, hDeleted] at hTakes
      | some row =>
          obtain ⟨rfl, rfl⟩ := by
            simpa [takes, exec, hDeleted] using hTakes
          rcases kept_deleted hDeleted with
            ⟨hKept, hLive, hGone⟩
          refine ⟨⟨_, hKept, ?_⟩, hGone⟩
          rintro _ ⟨⟩
          exact Nat.le_of_lt (of_decide_eq_true hLive)
  | deleteValue other current old =>
      cases hDeleted :
          (database.deleteWhere other fun row =>
            isLive current row && row.value == old).1 with
      | none => simp [takes, exec, hDeleted] at hTakes
      | some row =>
          obtain ⟨rfl, rfl⟩ := by
            simpa [takes, exec, hDeleted] using hTakes
          rcases kept_deleted hDeleted with
            ⟨hKept, hLive, hGone⟩
          rw [Bool.and_eq_true, beq_iff_eq] at hLive
          rw [hLive.2] at hKept
          refine ⟨⟨_, hKept, ?_⟩, hGone⟩
          rintro _ ⟨⟩
          exact Nat.le_of_lt (of_decide_eq_true hLive.1)
  | clock => cases hTakes
  | update _ _ => cases hTakes
  | insert _ _ => cases hTakes
  | select _ _ => cases hTakes
  | updateVersion _ _ _ _ => cases hTakes
  | deleteLive _ _ => cases hTakes
  | deleteKey _ => cases hTakes
  | deleteExpired _ _ => cases hTakes
  | selectKeys _ _ => cases hTakes

/- A purge brings nothing back. -/
omit [DecidableEq ν] in
theorem kept_purge
    {batch : List κ}
    {entry : ν × Option Nat}
    (hKept :
      (purge batch now database).kept key = some entry) :
    database.kept key = some entry := by
  rcases Option.map_eq_some_iff.mp hKept with
    ⟨row, hRow, rfl⟩
  exact Option.map_eq_some_iff.mpr
    ⟨row, Table.lookup_of_sweep _ hRow, rfl⟩

/- A statement tells the time it ran at. -/
theorem eq_of_tells
    {time : Nat}
    (hTells :
      tells ⟨statement, (exec statement now database).1⟩ =
        some time) :
    time = now := by
  cases statement with
  | clock => exact (Option.some.inj hTells).symm
  | update _ _ => cases hTells
  | insert _ _ => cases hTells
  | select _ _ => cases hTells
  | updateVersion _ _ _ _ => cases hTells
  | deleteLive _ _ => cases hTells
  | deleteKey _ => cases hTells
  | deleteExpired _ _ => cases hTells
  | deleteReturning _ _ => cases hTells
  | deleteValue _ _ _ => cases hTells
  | selectKeys _ _ => cases hTells

end Database

/- Deposits in a database. -/
def databaseDeposits (κ ν : Type)
    [DecidableEq κ] [DecidableEq ν] :
    Deposits κ ν
      (Database.server :
        Server (statements κ ν) (Database κ ν)) where
  row := Database.kept
  performs := Database.performs
  puts := Database.puts
  takes := Database.takes
  due := Database.due
  asOf := Database.asOf
  tells := Database.tells
  tells_exec _ _ _ _ := Database.eq_of_tells
  row_exec _ _ _ _ _ _ := Database.kept_exec
  row_take _ _ _ _ _ := Database.kept_take
  row_upkeep _ _ _ _ _ := Database.kept_purge

------------------------------------------------------------
-- In Redis
------------------------------------------------------------

namespace Redis

/- What a command deposits. -/
def puts : Action (redisCommands κ ν) → Option (κ × ν)
  | ⟨.set key data _, _⟩ => some (key, data)
  | _ => none

/- What a command hands out. -/
def takes : Action (redisCommands κ ν) → Option (κ × ν)
  | ⟨.getDel key, some value⟩ => some (key, value)
  | _ => none

/- When the deposit of a command is due. -/
def due : RedisCommand κ ν → Nat → Nat
  | .set _ _ ttl, now => now + ttl
  | _, now => now

/- The commands that deposits are made and taken with. -/
def performs : RedisCommand κ ν → Prop
  | .set _ _ _ => True
  | .index _ _ _ => True
  | .getDel _ => True
  | _ => False

variable [DecidableEq κ]

/- The value of a record, and when it expires. -/
def kept (redis : Redis κ ν) (key : κ) :
    Option (ν × Option Nat) :=
  (redis.records.lookup key).map fun record =>
    (record.value, record.expiresAt)

variable {redis : Redis κ ν}
variable {now : Nat}
variable {key other : κ}
variable {value : ν}
variable {command : RedisCommand κ ν}

theorem kept_eq_none :
    redis.kept key = none ↔ redis.records.lookup key =
      none :=
  Option.map_eq_none_iff

/- Only a `set` adds to what is kept. -/
theorem kept_exec
    {deadline : Option Nat}
    (hPerforms : performs command)
    (hKept :
      (exec command now redis).2.kept key =
        some (value, deadline)) :
    redis.kept key = some (value, deadline) ∨
      puts ⟨command, (exec command now redis).1⟩ =
          some (key, value) ∧
        deadline = some (due command now) := by
  rcases Option.map_eq_some_iff.mp hKept with
    ⟨record, hRecord, hEntry⟩
  cases command with
  | set other data ttl =>
      have hLookup := lookup_put.symm.trans hRecord
      split at hLookup
      · rename_i hKey
        subst hKey
        cases hLookup
        obtain ⟨rfl, rfl⟩ := Prod.mk.inj hEntry
        exact Or.inr ⟨rfl, rfl⟩
      · exact Or.inl (Option.map_eq_some_iff.mpr
          ⟨record, hLookup, hEntry⟩)
  | index userId other ttl =>
      exact Or.inl (Option.map_eq_some_iff.mpr
        ⟨record, hRecord, hEntry⟩)
  | getDel other =>
      have hLookup := lookup_remove.symm.trans hRecord
      split at hLookup
      · cases hLookup
      · exact Or.inl (Option.map_eq_some_iff.mpr
          ⟨record, hLookup, hEntry⟩)
  | setNx _ _ _ => cases hPerforms
  | get _ => cases hPerforms
  | watch _ => cases hPerforms
  | exec _ _ _ _ => cases hPerforms
  | del _ => cases hPerforms
  | srem _ _ => cases hPerforms
  | smembers _ => cases hPerforms

/- What is taken was kept, in time, and is so no longer. -/
theorem kept_take
    (hTakes :
      takes ⟨command, (exec command now redis).1⟩ =
        some (key, value)) :
    (∃ deadline,
      redis.kept key = some (value, deadline) ∧
        ∀ time ∈ deadline, now ≤ time) ∧
    (exec command now redis).2.kept key = none := by
  cases command with
  | getDel other =>
      cases hAlive : redis.alive now other with
      | none => simp [takes, exec, hAlive] at hTakes
      | some record =>
          obtain ⟨rfl, rfl⟩ := by
            simpa [takes, exec, hAlive] using hTakes
          rcases alive_eq_some.mp hAlive with
            ⟨hRecord, hExpired⟩
          refine ⟨⟨record.expiresAt, ?_, ?_⟩, ?_⟩
          · unfold kept
            rw [hRecord]
            rfl
          · intro time hTime
            unfold expired at hExpired
            rw [Option.mem_def.mp hTime] at hExpired
            simpa using hExpired
          · rw [kept_eq_none]
            exact lookup_remove.trans (if_pos rfl)
  | set _ _ _ => cases hTakes
  | setNx _ _ _ => cases hTakes
  | get _ => cases hTakes
  | watch _ => cases hTakes
  | exec _ _ _ _ => cases hTakes
  | del _ => cases hTakes
  | index _ _ _ => cases hTakes
  | srem _ _ => cases hTakes
  | smembers _ => cases hTakes

/- An eviction brings nothing back. -/
theorem kept_evict
    {entry : ν × Option Nat}
    (hKept :
      (evict other now redis).kept key = some entry) :
    redis.kept key = some entry := by
  rcases Option.map_eq_some_iff.mp hKept with
    ⟨record, hRecord, hEntry⟩
  apply Option.map_eq_some_iff.mpr
  rw [lookup_evict] at hRecord
  split at hRecord
  · exact ⟨record, (Option.filter_eq_some_iff.mp hRecord).1,
      hEntry⟩
  · exact ⟨record, hRecord, hEntry⟩

end Redis

/- Deposits in Redis. -/
def redisDeposits (κ ν : Type) [DecidableEq κ] :
    Deposits κ ν
      (Redis.server :
        Server (redisCommands κ ν) (Redis κ ν)) where
  row := Redis.kept
  performs := Redis.performs
  puts := Redis.puts
  takes := Redis.takes
  due := Redis.due
  asOf _ now := now
  tells _ := none
  tells_exec := by
    intro op now state time hTells
    cases hTells
  row_exec _ _ _ _ _ _ := Redis.kept_exec
  row_take _ _ _ _ _ := Redis.kept_take
  row_upkeep _ _ _ _ _ := Redis.kept_evict

------------------------------------------------------------
-- Calls
------------------------------------------------------------

section Memory

variable [DecidableEq κ] [Owned ν]

/- The dictionary keeps to its commands. -/
theorem keeps_memory (expiration : Nat) :
    (memoryDeposits expiration :
      Deposits κ ν (Memory.server expiration)).Keeps
        (memory expiration).implement := by
  apply Deposits.keeps_of_both
  · intro key data ttl
    refine Deposits.obeys_last
      ⟨trivial, fun _ => rfl, ?_⟩ fun _ => trivial
    rintro ret _ ⟨⟩
    refine ⟨rfl, nofun, ?_⟩
    rintro since now - seconds ⟨⟩
    exact Nat.le_refl _
  · intro key
    refine Deposits.obeys_last
      ⟨trivial, fun _ => rfl, ?_⟩ fun ret => ?_
    · intro ret written hTakes
      refine ⟨?_, fun _ _ _ hSince => hSince⟩
      have hKey := (Memory.eq_of_takes hTakes).1
      injection hKey with hKey
      exact hKey.symm
    · rw [returns_ok]
      cases ret with
      | none => trivial
      | some value => exact ⟨_, List.mem_cons_self, rfl⟩

end Memory

section Database

variable [DecidableEq κ] [DecidableEq ν] [Owned ν]

variable {config : Database.Config}
variable {key : κ}
variable {data : ν}
variable {expiration : Option Nat}
variable {time : Nat}
variable {made : List (Action (statements κ ν))}

/- The clock was read, and nothing was put since. -/
def Unwritten
    (made : List (Action (statements κ ν)))
    (time : Nat) : Prop :=
  (⟨.clock, time⟩ : Action (statements κ ν)) ∈ made ∧
    ∀ action ∈ made, Database.puts action = none

/- A step that writes nothing. -/
omit [DecidableEq κ] [DecidableEq ν] [Owned ν] in
theorem Unwritten.cons
    {action : Action (statements κ ν)}
    (hUnwritten : Unwritten made time)
    (hAction : Database.puts action = none) :
    Unwritten (action :: made) time := by
  refine ⟨List.mem_cons_of_mem _ hUnwritten.1, ?_⟩
  intro other hOther
  rcases List.mem_cons.mp hOther with rfl | hOld
  · exact hAction
  · exact hUnwritten.2 other hOld

omit [Owned ν] in
/- A write of the row that is due from the clock read. -/
theorem rule_write
    {statement : Statement κ ν}
    (hUnwritten : Unwritten made time)
    (hPerforms : Database.performs statement)
    (hTakes : ∀ ret,
      Database.takes ⟨statement, ret⟩ = none)
    (hPuts : ∀ ret written,
      Database.puts ⟨statement, ret⟩ = some written →
        written = (key, data))
    (hDue : ∀ now,
      Database.due statement now =
        time + lifetime config.expiration expiration) :
    (databaseDeposits κ ν).rule
      (.create key data expiration) made
      statement := by
  refine ⟨hPerforms, hTakes, ?_⟩
  intro ret written hWritten
  refine ⟨hPuts ret written hWritten, hUnwritten.2, ?_⟩
  rintro since now hTold seconds ⟨⟩
  have hTime := hTold _ hUnwritten.1 time rfl
  exact (hDue now).trans_le
    (Nat.add_le_add_right hTime.2 _)

/-
  One try of the two writes, which put the row or nothing.
-/
theorem write_keeps
    (hUnwritten : Unwritten made time) :
    Obeys
      ((databaseDeposits κ ν).discipline.commands
        (.create key data expiration))
      made
      (Database.write key
        ⟨data, Owned.userId data,
          some (time +
            lifetime config.expiration expiration)⟩)
      (Returns fun made' written =>
        written = false → Unwritten made' time) := by
  refine Deposits.obeys_command
    (rule_write hUnwritten rfl (fun _ => rfl) ?_
      fun _ => rfl) ?_
  · intro ret written hWritten
    cases ret with
    | true => exact (Option.some.inj hWritten).symm
    | false => cases hWritten
  · intro updated
    cases updated with
    | true =>
        rw [if_pos rfl, obeys_pure, returns_ok]
        nofun
    | false =>
        rw [if_neg Bool.false_ne_true]
        let row : RowData ν :=
          ⟨data, Owned.userId data,
            some (time +
              lifetime config.expiration expiration)⟩
        have hStill :
            Unwritten (⟨.update key row, false⟩ :: made)
              time :=
          hUnwritten.cons rfl
        refine Deposits.obeys_last
          (rule_write hStill rfl (fun _ => rfl) ?_
            fun _ => rfl) ?_
        · intro ret written hWritten
          cases ret with
          | true => exact (Option.some.inj hWritten).symm
          | false => cases hWritten
        · intro inserted
          rw [returns_ok]
          rintro rfl
          exact hStill.cons rfl

/- A create writes once. -/
theorem create_keeps :
    Obeys
      ((databaseDeposits κ ν).discipline.commands
        (.create key data expiration)) []
      (Database.create config key data expiration)
      fun _ _ => True := by
  refine Deposits.obeys_command
    ⟨trivial, fun _ => rfl, fun _ _ => nofun⟩ fun now => ?_
  have hClock :
      Unwritten
        [(⟨.clock, now⟩ : Action (statements κ ν))] now := by
    refine ⟨List.mem_cons_self, ?_⟩
    rintro _ ⟨⟩
    · rfl
    · contradiction
  refine (write_keeps hClock).bind ?_ fun _ _ _ _ => trivial
  intro made₁ written _ hFirst
  cases written with
  | true => trivial
  | false =>
      rw [if_neg Bool.false_ne_true]
      refine (write_keeps (hFirst false rfl rfl)).bind ?_
        fun _ _ _ _ => trivial
      intro made₂ written' _ _
      cases written' with
      | true => trivial
      | false => trivial

omit [Owned ν] in
/- The rule of a statement that does not take. -/
theorem rule_read
    {statement : Statement κ ν}
    (hPerforms : Database.performs statement)
    (hPuts : ∀ ret, Database.puts ⟨statement, ret⟩ = none)
    (hTakes :
      ∀ ret, Database.takes ⟨statement, ret⟩ = none) :
    (databaseDeposits κ ν).rule (.getAndDelete key) made
      statement := by
  refine ⟨hPerforms, hPuts, ?_⟩
  intro ret written hWritten
  cases (hTakes ret).symm.trans hWritten

/- A take deletes what it has selected. -/
omit [Owned ν] in
theorem selectAndDelete_keeps :
    Obeys
      ((databaseDeposits κ ν).discipline.commands
        (.getAndDelete key)) []
      (Database.selectAndDelete key)
      (Returns
        ((databaseDeposits κ ν).discipline.returns
          (.getAndDelete key))) := by
  refine Deposits.obeys_command
    (rule_read trivial (fun _ => rfl) fun _ => rfl)
    fun now => ?_
  refine Deposits.obeys_command
    (rule_read trivial (fun _ => rfl) fun _ => rfl)
    fun found => ?_
  rcases found with - | ⟨value, version⟩
  · dsimp only
    rw [obeys_pure, returns_ok]
    trivial
  · refine Deposits.obeys_command
      (rule_read trivial (fun _ => rfl) fun _ => rfl)
      fun current => ?_
    refine Deposits.obeys_command
      ⟨trivial, fun _ => rfl, ?_⟩ fun deleted => ?_
    · intro ret written hWritten
      cases ret with
      | false => cases hWritten
      | true =>
          cases hWritten
          refine ⟨rfl, ?_⟩
          intro since now' hTold _
          exact (hTold _ List.mem_cons_self current rfl).1
    · cases deleted with
      | true =>
          rw [if_pos rfl, obeys_pure, returns_ok]
          exact ⟨_, List.mem_cons_self, rfl⟩
      | false =>
          rw [if_neg Bool.false_ne_true, obeys_pure,
            returns_ok]
          trivial

/- The database keeps to its commands. -/
theorem keeps_database (config : Database.Config) :
    (databaseDeposits κ ν).Keeps
      (Database.implement config) := by
  apply Deposits.keeps_of_both
  · intro key data expiration
    exact create_keeps
  · intro key
    simp only [Database.implement, Database.getAndDelete]
    split
    · refine Deposits.obeys_command
        (rule_read trivial (fun _ => rfl) fun _ => rfl)
        fun now => ?_
      refine Deposits.obeys_last
        ⟨trivial, fun _ => rfl, ?_⟩ fun ret => ?_
      · intro ret written hWritten
        cases ret with
        | none => cases hWritten
        | some value =>
            cases hWritten
            refine ⟨rfl, ?_⟩
            intro since now' hTold _
            exact (hTold _ List.mem_cons_self now rfl).1
      · rw [returns_ok]
        cases ret with
        | none => trivial
        | some value => exact ⟨_, List.mem_cons_self, rfl⟩
    · exact selectAndDelete_keeps

end Database

section Redis

variable [DecidableEq κ] [Owned ν]

/- The index is told of the value, if at all. -/
theorem index_keeps
    {key : κ}
    {data : ν}
    {expiration : Option Nat}
    {ttl : Nat} :
    Obeys
      ((redisDeposits κ ν).discipline.commands
        (.create key data expiration)) []
      (Redis.index data key ttl)
      (Returns fun made _ =>
        ∀ action ∈ made, Redis.puts action = none) := by
  unfold Redis.index
  split
  · rw [obeys_pure, returns_ok]
    nofun
  · refine Deposits.obeys_last
      ⟨trivial, fun _ => rfl, fun _ _ => nofun⟩ fun _ => ?_
    rw [returns_ok]
    intro action hAction
    rw [List.mem_singleton.mp hAction]
    rfl

theorem keeps_redis (config : Redis.Config) :
    (redisDeposits κ ν).Keeps (Redis.implement config) := by
  apply Deposits.keeps_of_both
  · intro key data expiration
    refine index_keeps.bind ?_ fun _ _ _ _ => trivial
    intro made _ _ hMade
    refine Deposits.obeys_last
      ⟨trivial, fun _ => rfl, ?_⟩ fun _ => trivial
    rintro ret _ ⟨⟩
    refine ⟨rfl, hMade () rfl, ?_⟩
    rintro since now - seconds ⟨⟩
    exact Nat.le_refl _
  · intro key
    refine Deposits.obeys_last
      ⟨trivial, fun _ => rfl, ?_⟩ fun ret => ?_
    · intro ret written hWritten
      cases ret with
      | none => cases hWritten
      | some value =>
          cases hWritten
          exact ⟨rfl, fun _ _ _ hSince => hSince⟩
    · rw [returns_ok]
      cases ret with
      | none => trivial
      | some value => exact ⟨_, List.mem_cons_self, rfl⟩

end Redis

------------------------------------------------------------
-- Every Backend
------------------------------------------------------------

section

variable [DecidableEq κ] [DecidableEq ν] [Owned ν]

/- The deposits of the chosen backend. -/
def depositsOf :
    (choice : BackendChoice) →
    Deposits κ ν
      (getSessionStorage choice : Backend κ ν).server
  | .memory expiration => memoryDeposits expiration
  | .database _ => databaseDeposits κ ν
  | .redis _ => redisDeposits κ ν

variable {choice : BackendChoice}

/- Each backend keeps to its commands. -/
theorem depositsOf_keeps :
    (depositsOf choice).Keeps
      (getSessionStorage choice :
        Backend κ ν).implement := by
  cases choice with
  | memory expiration => exact keeps_memory expiration
  | database config => exact keeps_database config
  | redis config => exact keeps_redis config

/- What is not stored is not kept. -/
theorem row_of_stored
    {state :
      (getSessionStorage choice : Backend κ ν).State}
    {key : κ}
    (hNone :
      (getSessionStorage choice).stored state key = none) :
    (depositsOf choice).row state key = none := by
  cases choice with
  | memory expiration =>
      exact Memory.kept_eq_none.mpr
        (Option.map_eq_none_iff.mp hNone)
  | database config =>
      exact Database.kept_eq_none.mpr
        (Option.map_eq_none_iff.mp hNone)
  | redis config =>
      exact Redis.kept_eq_none.mpr
        (Option.map_eq_none_iff.mp hNone)

end

end Storage

end CrudAuth
