import CrudAuth.Storage.Memory
import CrudAuth.Storage.Database
import CrudAuth.Storage.Redis

/-
  What each backend's calls perform, and what they have
  done when they return.

  Main declarations:
    * `Memory.discipline`
    * `Database.discipline`
    * `Redis.discipline`
    * `Memory.implement_obeys`
    * `Database.implement_obeys`
    * `Redis.implement_obeys`
-/

namespace CrudAuth

namespace Storage

open Concurrency
open Concurrency.Program

variable {κ ν : Type}
variable [DecidableEq κ] [Owned ν]

------------------------------------------------------------
-- Memory
------------------------------------------------------------

namespace Memory

/- A call is one command. -/
def discipline :
    Layered.Discipline (calls κ ν) (calls κ ν) where
  rule call made command := made = [] ∧ command = call
  returns call made ret := made = [⟨call, ret⟩]

/- A call of the dictionary is one command. -/
omit [DecidableEq κ] [Owned ν] in
theorem implement_obeys
    (call : Call κ ν) :
    Obeys (discipline.commands call) []
      (Program.call (I := calls κ ν) call :
        Program (calls κ ν) HttpError call.Ret)
      (Returns (discipline.returns call)) := by
  refine ⟨⟨rfl, rfl⟩, fun ret _ => ?_⟩
  rw [obeys_done, returns_ok]
  rfl

end Memory

------------------------------------------------------------
-- The Database
------------------------------------------------------------

namespace Database

/- The statements a call has made, the last one first. -/
abbrev Made (κ ν : Type) := List (Action (statements κ ν))

/- The clock was read in this call. -/
def Clocked (made : Made κ ν) (now : Nat) : Prop :=
  (⟨.clock, now⟩ : Action (statements κ ν)) ∈ made

variable (config : Config)

/- The row of a `create` or a `set_if_absent`. -/
def NewRow
    (made : Made κ ν)
    (data : ν)
    (expiration : Option Nat)
    (row : RowData ν) : Prop :=
  ∃ now,
    Clocked made now ∧
    row = ⟨data, Owned.userId data,
      some (now + lifetime config.expiration expiration)⟩

/- What a `modify` writes, for the version it has read. -/
def Changed
    (made : Made κ ν)
    (key : κ)
    (change : ν → ν)
    (resetExpiration : Bool)
    (expiration : Option Nat)
    (version : Nat)
    (row : RowData ν) : Prop :=
  ∃ current old,
    (⟨.select key current, some (old, version)⟩ :
      Action (statements κ ν)) ∈ made ∧
    row.value = change old ∧
    row.userId = Owned.userId (change old) ∧
    if resetExpiration then
      ∃ now,
        Clocked made now ∧
        row.expiresAt =
          some (now + lifetime config.expiration expiration)
    else
      row.expiresAt = none

/- A write of this call has gone through. -/
def wrote : Action (statements κ ν) → Bool
  | ⟨.update _ _, written⟩ => written
  | ⟨.insert _ _, written⟩ => written
  | _ => false

/- The statements that a call may make next. -/
def rule
    (call : Call κ ν)
    (made : Made κ ν) : Statement κ ν → Prop
  | .clock => True
  | .update key row =>
      ∃ data expiration,
        call = .create key data expiration ∧
        NewRow config made data expiration row ∧
        made.any wrote = false
  | .insert key row =>
      (∃ data expiration,
        call = .create key data expiration ∧
        NewRow config made data expiration row ∧
        made.any wrote = false) ∨
      (∃ data expiration,
        call = .setIfAbsent key data expiration ∧
        NewRow config made data expiration row ∧
        made.any wrote = false)
  | .select key now =>
      Clocked made now ∧
      (call = .get key ∨
        call = .getAndDelete key ∨
        ∃ change resetExpiration expiration,
          call =
            .modify key change resetExpiration expiration)
  | .updateVersion key now version row =>
      Clocked made now ∧
      ∃ change resetExpiration expiration,
        call =
          .modify key change resetExpiration expiration ∧
        Changed config made key change resetExpiration
          expiration version row
  | .deleteLive key now =>
      Clocked made now ∧ ∃ userId, call = .delete key userId
  | .deleteKey key => ∃ userId, call = .delete key userId
  | .deleteExpired key now =>
      Clocked made now ∧
      ∃ data expiration,
        call = .setIfAbsent key data expiration
  | .deleteReturning key now =>
      Clocked made now ∧ call = .getAndDelete key
  | .deleteValue key now value =>
      Clocked made now ∧
      call = .getAndDelete key ∧
      ∃ current version,
        (⟨.select key current, some (value, version)⟩ :
          Action (statements κ ν)) ∈ made
  | .selectKeys userId now =>
      Clocked made now ∧ call = .getUserSessions userId

/- A `modify` returns what its last statement has written. -/
def Modified
    (made : Made κ ν)
    (key : κ)
    (change : ν → ν)
    (old new : ν) : Prop :=
  new = change old ∧
  ∃ now current version row earlier,
    made =
      ⟨.updateVersion key now version row, true⟩ ::
        earlier ∧
    row.value = new ∧
    (⟨.select key current, some (old, version)⟩ :
      Action (statements κ ν)) ∈ earlier

/- What a call may return, after what it has made. -/
def returns :
    (call : Call κ ν) → Made κ ν → call.Ret → Prop
  | .create key _ _, made, _ =>
      ∃ row,
        (⟨.update key row, true⟩ :
          Action (statements κ ν)) ∈ made ∨
        (⟨.insert key row, true⟩ :
          Action (statements κ ν)) ∈ made
  | .get key, made, ret =>
      ∃ now row,
        (⟨.select key now, row⟩ :
          Action (statements κ ν)) ∈ made ∧
        ret = row.map Prod.fst
  | .modify key change _ _, made, some (old, new) =>
      Modified made key change old new
  | .modify key _ _ _, made, none =>
      ∃ now,
        (⟨.select key now, none⟩ :
          Action (statements κ ν)) ∈ made
  | .delete key _, made, _ =>
      (⟨.deleteKey key, ()⟩ :
        Action (statements κ ν)) ∈ made
  | .setIfAbsent key data expiration, made, ret =>
      ∃ row,
        NewRow config made data expiration row ∧
        (⟨.insert key row, ret⟩ :
          Action (statements κ ν)) ∈ made
  | .getAndDelete key, made, some value =>
      ∃ now,
        (⟨.deleteReturning key now, some value⟩ :
          Action (statements κ ν)) ∈ made ∨
        (⟨.deleteValue key now value, true⟩ :
          Action (statements κ ν)) ∈ made
  | .getAndDelete _, _, none => True
  | .getUserSessions userId, made, ret =>
      ∃ now,
        (⟨.selectKeys userId now, ret⟩ :
          Action (statements κ ν)) ∈ made
  | .removeFromUserIndex _ _, _, _ => True

/- The discipline of calls on a database. -/
def discipline :
    Layered.Discipline (calls κ ν) (statements κ ν) where
  rule := rule config
  returns := returns config

variable {config : Config}
variable {call : Call κ ν}
variable {made : Made κ ν}
variable {α : Type}
variable {post : Made κ ν → Except HttpError α → Prop}

omit [DecidableEq κ] in
/- A statement with the rest of its call. -/
theorem obeys_execute
    {statement : Statement κ ν}
    {rest : statement.Ret → Sql κ ν α}
    (hRule : rule config call made statement)
    (hRest : ∀ ret : statement.Ret,
      Obeys ((discipline config).commands call)
        (⟨statement, ret⟩ :: made) (rest ret) post) :
    Obeys ((discipline config).commands call) made
      (Program.bind (execute statement) rest) post :=
  ⟨hRule, fun ret _ => hRest ret⟩

/- The last command of a call. -/
omit [DecidableEq κ] in
theorem obeys_last
    {statement : Statement κ ν}
    {post : Made κ ν → Except HttpError statement.Ret →
      Prop}
    (hRule : rule config call made statement)
    (hPost : ∀ ret : statement.Ret,
      post (⟨statement, ret⟩ :: made) (.ok ret)) :
    Obeys ((discipline config).commands call) made
      (execute statement) post :=
  ⟨hRule, fun ret _ => hPost ret⟩

omit [DecidableEq κ] [Owned ν] in
theorem clocked_now (now : Nat) :
    Clocked (⟨.clock, now⟩ :: made) now :=
  List.mem_cons_self

/- A clock that was read stays read. -/
omit [DecidableEq κ] [Owned ν] in
theorem Clocked.cons
    {now : Nat}
    (hClocked : Clocked made now)
    (action : Action (statements κ ν)) :
    Clocked (action :: made) now :=
  List.mem_cons_of_mem _ hClocked

/- A row is stamped with that clock. -/
omit [DecidableEq κ] in
theorem Clocked.newRow
    {now : Nat}
    {data : ν}
    {expiration : Option Nat}
    (hClocked : Clocked made now) :
    NewRow config made data expiration
      ⟨data, Owned.userId data,
        some (now +
          lifetime config.expiration expiration)⟩ :=
  ⟨now, hClocked, rfl⟩

/- It stays so as the call goes on. -/
omit [DecidableEq κ] in
theorem NewRow.cons
    {data : ν}
    {expiration : Option Nat}
    {row : RowData ν}
    (hRow : NewRow config made data expiration row)
    (action : Action (statements κ ν)) :
    NewRow config (action :: made) data expiration row := by
  rcases hRow with ⟨now, hNow, hRow⟩
  exact ⟨now, hNow.cons action, hRow⟩

omit [DecidableEq κ] in
/- One try of the two writes of a `create`. -/
theorem write_obeys
    {key : κ}
    {data : ν}
    {expiration : Option Nat}
    {row : RowData ν}
    (hCall : call = .create key data expiration)
    (hRow : NewRow config made data expiration row)
    (hWrote : made.any wrote = false) :
    Obeys ((discipline config).commands call) made
      (write key row)
      (Returns fun made' written =>
        NewRow config made' data expiration row ∧
        if written then
          (⟨.update key row, true⟩ :
            Action (statements κ ν)) ∈ made' ∨
          (⟨.insert key row, true⟩ :
            Action (statements κ ν)) ∈ made'
        else
          made'.any wrote = false) := by
  refine obeys_execute
    ⟨data, expiration, hCall, hRow, hWrote⟩ ?_
  intro replaced
  cases replaced with
  | true =>
      rw [if_pos rfl, obeys_pure, returns_ok, if_pos rfl]
      exact ⟨hRow.cons _, Or.inl List.mem_cons_self⟩
  | false =>
      rw [if_neg Bool.false_ne_true]
      have hWrote' :
          (⟨.update key row, false⟩ :: made :
            Made κ ν).any wrote = false := by
        rw [List.any_cons, hWrote]
        rfl
      refine obeys_last
        (Or.inl ⟨data, expiration, hCall, hRow.cons _,
          hWrote'⟩) ?_
      intro inserted
      rw [returns_ok]
      refine ⟨(hRow.cons _).cons _, ?_⟩
      cases inserted with
      | true => exact Or.inr List.mem_cons_self
      | false =>
          rw [if_neg Bool.false_ne_true, List.any_cons,
            hWrote']
          rfl

/- A create writes a row of its own. -/
omit [DecidableEq κ] in
theorem create_obeys
    {key : κ}
    {data : ν}
    {expiration : Option Nat}
    (hCall : call = .create key data expiration) :
    Obeys ((discipline config).commands call) []
      (create config key data expiration)
      (Returns (returns config
        (.create key data expiration))) := by
  refine obeys_execute trivial fun now => ?_
  refine Obeys.andThen
    (write_obeys hCall (clocked_now now).newRow rfl) ?_
  rintro made₁ written _ ⟨hRow₁, hWritten⟩
  cases written with
  | true =>
      rw [if_pos rfl, obeys_pure, returns_ok]
      exact ⟨_, hWritten⟩
  | false =>
      refine (write_obeys hCall hRow₁ hWritten).andThen ?_
      rintro made₂ written _ ⟨-, hWritten₂⟩
      cases written with
      | true =>
          rw [if_pos rfl, obeys_pure, returns_ok]
          exact ⟨_, hWritten₂⟩
      | false => simp

omit [DecidableEq κ] in
/- The rounds of a `modify`. -/
theorem modifyRounds_obeys
    {key : κ}
    {change : ν → ν}
    {resetExpiration : Bool}
    {expiration : Option Nat}
    {current rounds : Nat}
    (hCall :
      call = .modify key change resetExpiration expiration)
    (hCurrent : Clocked made current) :
    Obeys ((discipline config).commands call) made
      (modifyRounds config key change resetExpiration
        expiration current rounds)
      (Returns (returns config
        (.modify key change resetExpiration
          expiration))) := by
  induction rounds generalizing made with
  | zero => simp [modifyRounds]
  | succ rounds ih =>
      refine obeys_execute
        ⟨hCurrent, Or.inr (Or.inr ⟨_, _, _, hCall⟩)⟩ ?_
      intro row
      rcases row with - | ⟨data, version⟩
      · rw [obeys_pure, returns_ok]
        exact ⟨current, List.mem_cons_self⟩
      · dsimp only
        have hSelected :
            (⟨.select key current, some (data, version)⟩ :
              Action (statements κ ν)) ∈
              (⟨.select key current,
                some (data, version)⟩ :: made : Made κ ν) :=
          List.mem_cons_self
        generalize hMade :
          (⟨.select key current, some (data, version)⟩ ::
            made : Made κ ν) = made₁ at hSelected ⊢
        have hCurrent₁ : Clocked made₁ current := by
          rw [← hMade]
          exact hCurrent.cons _
        have hRenewed :
            Obeys ((discipline config).commands call) made₁
              (renewed config resetExpiration expiration)
              (Returns fun made' expires =>
                made₁ <:+ made' ∧
                if resetExpiration then
                  ∃ now, Clocked made' now ∧
                    expires =
                      some (now +
                        lifetime config.expiration
                          expiration)
                else
                  expires = none) := by
          unfold renewed
          cases resetExpiration with
          | true =>
              refine obeys_execute trivial fun now => ?_
              dsimp only
              rw [obeys_pure, returns_ok]
              exact ⟨List.suffix_cons _ _, now,
                clocked_now now, rfl⟩
          | false =>
              rw [if_neg Bool.false_ne_true, obeys_pure,
                returns_ok]
              exact ⟨List.suffix_rfl, rfl⟩
        refine hRenewed.andThen ?_
        rintro made₂ expires _ ⟨hSuffix, hExpires⟩
        refine obeys_execute trivial fun now => ?_
        have hSelected₃ := List.mem_cons_of_mem
          (⟨.clock, now⟩ : Action (statements κ ν))
          (hSuffix.subset hSelected)
        have hChanged :
            Changed config (⟨.clock, now⟩ :: made₂) key
              change resetExpiration expiration version
              ⟨change data, Owned.userId (change data),
                expires⟩ := by
          refine ⟨current, data, hSelected₃, rfl, rfl, ?_⟩
          cases resetExpiration with
          | true =>
              rcases hExpires with ⟨time, hTime, hExpires⟩
              exact ⟨time, hTime.cons _, hExpires⟩
          | false => exact hExpires
        refine obeys_execute
          ⟨clocked_now now, _, _, _, hCall, hChanged⟩ ?_
        intro updated
        cases updated with
        | true =>
            rw [if_pos rfl, obeys_pure, returns_ok]
            exact ⟨rfl, now, current, version, _, _, rfl,
              rfl, hSelected₃⟩
        | false =>
            rw [if_neg Bool.false_ne_true]
            apply ih
            exact ((show Clocked made₂ current from
              hSuffix.subset hCurrent₁).cons _).cons _

/- A take deletes what it has selected. -/
omit [DecidableEq κ] in
theorem selectAndDelete_obeys
    {key : κ}
    (hCall : call = .getAndDelete key) :
    Obeys ((discipline config).commands call) made
      (selectAndDelete key)
      (Returns (returns config (.getAndDelete key))) := by
  refine obeys_execute trivial fun now => ?_
  refine obeys_execute
    ⟨clocked_now now, Or.inr (Or.inl hCall)⟩ ?_
  intro row
  rcases row with - | ⟨value, version⟩
  · rw [obeys_pure, returns_ok]
    trivial
  · refine obeys_execute trivial fun now' => ?_
    refine obeys_execute ?_ ?_
    · exact ⟨clocked_now now', hCall, now, version,
        List.mem_cons_of_mem _ List.mem_cons_self⟩
    · intro deleted
      cases deleted with
      | true =>
          rw [if_pos rfl, obeys_pure, returns_ok]
          exact ⟨now', Or.inr List.mem_cons_self⟩
      | false =>
          rw [if_neg Bool.false_ne_true, obeys_pure,
            returns_ok]
          trivial

omit [DecidableEq κ] in
/- Every call of the database backend. -/
theorem implement_obeys
    (call : Call κ ν) :
    Obeys ((discipline config).commands call) []
      (implement config call)
      (Returns ((discipline config).returns call)) := by
  cases call with
  | create key data expiration => exact create_obeys rfl
  | get key =>
      refine obeys_execute trivial fun now => ?_
      refine obeys_execute
        ⟨clocked_now now, Or.inl rfl⟩ fun row => ?_
      rw [obeys_pure, returns_ok]
      exact ⟨now, row, List.mem_cons_self, rfl⟩
  | modify key change resetExpiration expiration =>
      refine obeys_execute trivial fun now => ?_
      exact modifyRounds_obeys rfl (clocked_now now)
  | delete key userId =>
      refine obeys_execute trivial fun now => ?_
      refine obeys_execute
        ⟨clocked_now now, userId, rfl⟩ fun live => ?_
      refine obeys_execute ⟨userId, rfl⟩ fun _ => ?_
      rw [obeys_pure, returns_ok]
      exact List.mem_cons_self
  | setIfAbsent key data expiration =>
      refine obeys_execute trivial fun now => ?_
      refine obeys_execute trivial fun now' => ?_
      refine obeys_execute
        ⟨clocked_now now', data, expiration, rfl⟩ fun _ => ?_
      refine obeys_last
        (Or.inr ⟨data, expiration, rfl,
          (((clocked_now now).cons _).cons _).newRow, rfl⟩)
            ?_
      intro inserted
      rw [returns_ok]
      exact ⟨_,
        ((((clocked_now now).cons _).cons _).cons _).newRow,
        List.mem_cons_self⟩
  | getAndDelete key =>
      simp only [implement, getAndDelete]
      split
      · refine obeys_execute trivial fun now => ?_
        refine obeys_last ⟨clocked_now now, rfl⟩ ?_
        intro value
        rw [returns_ok]
        cases value with
        | none => trivial
        | some value =>
            exact ⟨now, Or.inl List.mem_cons_self⟩
      · exact selectAndDelete_obeys rfl
  | getUserSessions userId =>
      refine obeys_execute trivial fun now => ?_
      refine obeys_last ⟨clocked_now now, rfl⟩ ?_
      intro keys
      rw [returns_ok]
      exact ⟨now, List.mem_cons_self⟩
  | removeFromUserIndex userId key =>
      simp [implement, discipline, returns]

end Database

------------------------------------------------------------
-- Redis
------------------------------------------------------------

namespace Redis

/- The commands a call has made, the last one first. -/
abbrev Made (κ ν : Type) :=
  List (Action (redisCommands κ ν))

variable (config : Config)

/- What `index` is asked to add, and for how long. -/
def Indexes
    (data : ν)
    (expiration : Option Nat)
    (userId : UserId)
    (ttl : Nat) : Prop :=
  Owned.userId data = some userId ∧
  ttl =
    lifetime config.expiration expiration + userIndexBuffer

/- The index knows the owner of `data`, if it has one. -/
def Indexed
    (made : Made κ ν)
    (key : κ)
    (data : ν)
    (expiration : Option Nat) : Prop :=
  ∀ userId, Owned.userId data = some userId →
    (⟨.index userId key
        (lifetime config.expiration expiration +
          userIndexBuffer), ()⟩ :
      Action (redisCommands κ ν)) ∈ made

/- The TTL that a `modify` sets, if it sets one. -/
def resetTtl
    (resetExpiration : Bool)
    (expiration : Option Nat) : Option Nat :=
  if resetExpiration then
    some (lifetime config.expiration expiration)
  else
    none

/- The last round of a `modify` that went through. -/
def Swapped
    (made : Made κ ν)
    (key : κ)
    (change : ν → ν)
    (ttl : Option Nat)
    (old new : ν) : Prop :=
  new = change old ∧
  ∃ watched earlier,
    made =
      ⟨.exec key watched new ttl, true⟩ ::
        ⟨.get key, some old⟩ ::
        ⟨.watch key, watched⟩ :: earlier

/- The commands that a call may make next. -/
def rule
    (call : Call κ ν)
    (made : Made κ ν) : RedisCommand κ ν → Prop
  | .set key data ttl =>
      ∃ expiration,
        call = .create key data expiration ∧
        ttl = lifetime config.expiration expiration ∧
        Indexed config made key data expiration ∧
        made.length ≤ 1
  | .setNx key data ttl =>
      ∃ expiration,
        call = .setIfAbsent key data expiration ∧
        ttl = lifetime config.expiration expiration ∧
        made = []
  | .get key =>
      call = .get key ∨
      (∃ change resetExpiration expiration,
        call =
          .modify key change resetExpiration expiration) ∨
      call = .delete key none
  | .watch key =>
      ∃ change resetExpiration expiration,
        call = .modify key change resetExpiration expiration
  | .exec key watched data ttl =>
      ∃ change resetExpiration expiration old earlier,
        call =
          .modify key change resetExpiration expiration ∧
        data = change old ∧
        ttl = resetTtl config resetExpiration expiration ∧
        made =
          ⟨.get key, some old⟩ ::
            ⟨.watch key, watched⟩ :: earlier
  | .del key => ∃ userId, call = .delete key userId
  | .getDel key => call = .getAndDelete key ∧ made = []
  | .index userId key ttl =>
      (∃ data expiration,
        call = .create key data expiration ∧
        Indexes config data expiration userId ttl ∧
        made = []) ∨
      (∃ change resetExpiration expiration old new,
        call =
          .modify key change resetExpiration expiration ∧
        Indexes config new expiration userId ttl ∧
        Swapped made key change
          (resetTtl config resetExpiration expiration)
          old new)
  | .srem userId key =>
      call = .removeFromUserIndex userId key ∨
      ((⟨.del key, true⟩ :
          Action (redisCommands κ ν)) ∈ made ∧
        ∃ owner, call = .delete key owner)
  | .smembers userId => call = .getUserSessions userId

/- What a `modify` has done for what it returns. -/
def Modified
    (made : Made κ ν)
    (key : κ)
    (change : ν → ν)
    (resetExpiration : Bool)
    (expiration : Option Nat)
    (old new : ν) : Prop :=
  Indexed config made key new expiration ∧
  ∃ swapped,
    swapped <:+ made ∧
    Swapped swapped key change
      (resetTtl config resetExpiration expiration) old new

/- What a call may return, after what it has made. -/
def returns :
    (call : Call κ ν) → Made κ ν → call.Ret → Prop
  | .create key data expiration, made, _ =>
      Indexed config made key data expiration ∧
      (⟨.set key data
          (lifetime config.expiration expiration), ()⟩ :
        Action (redisCommands κ ν)) ∈ made
  | .get key, made, ret => made = [⟨.get key, ret⟩]
  | .modify key change resetExpiration expiration, made,
      some (old, new) =>
      Modified config made key change resetExpiration
        expiration old new
  | .modify key _ _ _, made, none =>
      (⟨.get key, none⟩ :
        Action (redisCommands κ ν)) ∈ made
  | .delete key _, made, ret =>
      (⟨.del key, ret⟩ :
        Action (redisCommands κ ν)) ∈ made
  | .setIfAbsent key data expiration, made, ret =>
      made =
        [⟨.setNx key data
          (lifetime config.expiration expiration), ret⟩]
  | .getAndDelete key, made, ret =>
      made = [⟨.getDel key, ret⟩]
  | .getUserSessions userId, made, ret =>
      made = [⟨.smembers userId, ret⟩]
  | .removeFromUserIndex _ _, _, _ => True

/- The discipline of calls on Redis. -/
def discipline :
    Layered.Discipline (calls κ ν) (redisCommands κ ν) where
  rule := rule config
  returns := returns config

variable {config : Config}
variable {call : Call κ ν}
variable {made : Made κ ν}
variable {α : Type}
variable {post : Made κ ν → Except HttpError α → Prop}

omit [DecidableEq κ] in
/- A command with the rest of its call. -/
theorem obeys_command
    {command : RedisCommand κ ν}
    {rest : command.Ret → Client κ ν α}
    (hRule : rule config call made command)
    (hRest : ∀ ret : command.Ret,
      Obeys ((discipline config).commands call)
        (⟨command, ret⟩ :: made) (rest ret) post) :
    Obeys ((discipline config).commands call) made
      (Program.bind (Redis.command command) rest) post :=
  ⟨hRule, fun ret _ => hRest ret⟩

omit [DecidableEq κ] in
theorem obeys_last
    {command : RedisCommand κ ν}
    {post : Made κ ν → Except HttpError command.Ret →
      Prop}
    (hRule : rule config call made command)
    (hPost : ∀ ret : command.Ret,
      post (⟨command, ret⟩ :: made) (.ok ret)) :
    Obeys ((discipline config).commands call) made
      (Redis.command command) post :=
  ⟨hRule, fun ret _ => hPost ret⟩

omit [DecidableEq κ] in
/- The index is told, if there is an owner to tell it of. -/
theorem index_obeys
    {key : κ}
    {data : ν}
    {expiration : Option Nat}
    (hRule : ∀ userId,
      Owned.userId data = some userId →
        rule config call made
          (.index userId key
            (lifetime config.expiration expiration +
              userIndexBuffer))) :
    Obeys ((discipline config).commands call) made
      (index data key
        (lifetime config.expiration expiration))
      (Returns fun made' _ =>
        made <:+ made' ∧
        made'.length ≤ made.length + 1 ∧
        Indexed config made' key data expiration) := by
  unfold index
  split
  · rename_i hOwner
    rw [obeys_pure, returns_ok]
    refine ⟨List.suffix_rfl, Nat.le_succ _, ?_⟩
    intro userId hUser
    rw [hOwner] at hUser
    cases hUser
  · rename_i owner hOwner
    refine obeys_last (hRule owner hOwner) fun _ => ?_
    rw [returns_ok]
    refine ⟨List.suffix_cons _ _, Nat.le_refl _, ?_⟩
    intro userId hUser
    obtain rfl : owner = userId :=
      Option.some.inj (hOwner.symm.trans hUser)
    exact List.mem_cons_self

omit [DecidableEq κ] in
theorem create_obeys
    {key : κ}
    {data : ν}
    {expiration : Option Nat}
    (hCall : call = .create key data expiration) :
    Obeys ((discipline config).commands call) []
      (create config key data expiration)
      (Returns (returns config
        (.create key data expiration))) := by
  refine Obeys.andThen (index_obeys ?_) ?_
  · intro userId hOwner
    exact Or.inl ⟨data, expiration, hCall,
      ⟨hOwner, rfl⟩, rfl⟩
  · rintro made' _ _ ⟨-, hLength, hIndexed⟩
    refine obeys_last
      ⟨expiration, hCall, rfl, hIndexed, hLength⟩
      fun _ => ?_
    rw [returns_ok]
    refine ⟨?_, List.mem_cons_self⟩
    intro userId hOwner
    exact List.mem_cons_of_mem _ (hIndexed userId hOwner)

omit [DecidableEq κ] in
/- The rounds of the WATCH loop. -/
theorem modifyRounds_obeys
    {key : κ}
    {change : ν → ν}
    {resetExpiration : Bool}
    {expiration : Option Nat}
    {rounds : Nat}
    (hCall :
      call =
        .modify key change resetExpiration expiration) :
    Obeys ((discipline config).commands call) made
      (modifyRounds key change
        (resetTtl config resetExpiration expiration) rounds)
      (Returns fun made' ret =>
        match ret with
        | none =>
            (⟨.get key, none⟩ :
              Action (redisCommands κ ν)) ∈ made'
        | some (old, new) =>
            Swapped made' key change
              (resetTtl config resetExpiration expiration)
              old new) := by
  induction rounds generalizing made with
  | zero => simp [modifyRounds]
  | succ rounds ih =>
      refine obeys_command ⟨_, _, _, hCall⟩ fun watched => ?_
      refine obeys_command
        (Or.inr (Or.inl ⟨_, _, _, hCall⟩)) fun found => ?_
      cases found with
      | none =>
          dsimp only
          rw [obeys_pure, returns_ok]
          exact List.mem_cons_self
      | some data =>
          refine obeys_command
            ⟨_, _, _, data, _, hCall, rfl, rfl, rfl⟩ ?_
          intro written
          cases written with
          | true =>
              rw [if_pos rfl, obeys_pure, returns_ok]
              exact ⟨rfl, watched, _, rfl⟩
          | false =>
              rw [if_neg Bool.false_ne_true]
              exact ih

/- A modify writes what it has watched. -/
omit [DecidableEq κ] in
theorem modify_obeys
    {key : κ}
    {change : ν → ν}
    {resetExpiration : Bool}
    {expiration : Option Nat}
    (hCall :
      call =
        .modify key change resetExpiration expiration) :
    Obeys ((discipline config).commands call) made
      (modify config key change resetExpiration expiration)
      (Returns (returns config
        (.modify key change resetExpiration
          expiration))) := by
  refine Obeys.andThen (modifyRounds_obeys hCall) ?_
  rintro made₁ found _ hFound
  rcases found with - | ⟨old, new⟩
  · rw [obeys_pure, returns_ok]
    exact hFound
  · refine Obeys.andThen (index_obeys ?_) ?_
    · intro userId hOwner
      exact Or.inr ⟨_, _, _, old, new, hCall,
        ⟨hOwner, rfl⟩, hFound⟩
    · rintro made₂ _ _ ⟨hSuffix, -, hIndexed⟩
      rw [obeys_pure, returns_ok]
      exact ⟨hIndexed, made₁, hSuffix, hFound⟩

/- A deletion removes key and index. -/
omit [DecidableEq κ] in
theorem delete_obeys
    {key : κ}
    {userId : Option UserId}
    (hCall : call = .delete key userId) :
    Obeys ((discipline config).commands call) []
      (delete key userId)
      (Returns (returns config (.delete key userId))) := by
  have hOwner :
      Obeys ((discipline config).commands call)
        ([] : Made κ ν) (owner key userId)
        (Returns fun _ _ => True) := by
    unfold owner
    split
    · simp
    · refine obeys_command (Or.inr (Or.inr hCall)) ?_
      intro data
      simp
  refine hOwner.andThen ?_
  intro made₁ known _ _
  refine obeys_command ⟨userId, hCall⟩ fun deleted => ?_
  have hUnindex :
      Obeys ((discipline config).commands call)
        (⟨.del key, deleted⟩ :: made₁)
        (unindexDeleted deleted known key)
        (Returns fun made' _ =>
          (⟨.del key, deleted⟩ :
            Action (redisCommands κ ν)) ∈ made') := by
    unfold unindexDeleted
    split
    · refine obeys_last
        (Or.inr ⟨List.mem_cons_self, userId, hCall⟩) ?_
      intro _
      rw [returns_ok]
      exact List.mem_cons_of_mem _ List.mem_cons_self
    · rw [obeys_pure, returns_ok]
      exact List.mem_cons_self
  refine hUnindex.andThen ?_
  intro made₂ _ _ hDeleted
  rw [obeys_pure, returns_ok]
  exact hDeleted

omit [DecidableEq κ] in
/- Every call of the Redis backend. -/
theorem implement_obeys
    (call : Call κ ν) :
    Obeys ((discipline config).commands call) []
      (implement config call)
      (Returns ((discipline config).returns call)) := by
  cases call with
  | create key data expiration => exact create_obeys rfl
  | get key =>
      refine obeys_last (Or.inl rfl) fun ret => ?_
      rw [returns_ok]
      rfl
  | modify key change resetExpiration expiration =>
      exact modify_obeys rfl
  | delete key userId => exact delete_obeys rfl
  | setIfAbsent key data expiration =>
      refine obeys_last ⟨expiration, rfl, rfl, rfl⟩ ?_
      intro ret
      rw [returns_ok]
      rfl
  | getAndDelete key =>
      refine obeys_last ⟨rfl, rfl⟩ fun ret => ?_
      rw [returns_ok]
      rfl
  | getUserSessions userId =>
      refine obeys_last rfl fun ret => ?_
      rw [returns_ok]
      rfl
  | removeFromUserIndex userId key =>
      refine obeys_last (Or.inl rfl) fun ret => ?_
      rw [returns_ok]
      trivial

end Redis

end Storage

end CrudAuth
