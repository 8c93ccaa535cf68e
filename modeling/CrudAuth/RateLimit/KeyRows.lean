import CrudAuth.RateLimit.Policy
import CrudAuth.RateLimit.WindowKeys
import Mathlib.Data.Set.Function

/-
  Where the backends keep the counters of lockouts and of
  sudo.  The texts of two keys are never the same, so in
  memory and in Redis each key has a counter of its own.
  The database stores a text that is too long by its start
  and its digest, which is a text that a key may have.

  Main declarations:
    * `Key.text`
    * `DatabaseCounters.Config.row`
    * `DatabaseCounters.injOn_row_of_fits`
    * `LockoutPolicy.keys`
    * `Placed`
    * `Placed.run`
-/

namespace CrudAuth

namespace RateLimit

open Concurrency
open Storage (Text databaseKeyMaxLength)

------------------------------------------------------------
-- Texts Of Keys
------------------------------------------------------------

/- What a counter is for. -/
inductive Key.Kind
  | ipAttempts
  | userAttempts
  | pairAttempts
  | ipLock
  | userLock
  | ipRounds
  | userRounds
  | sudoFail
  | sudoLock

/- What the text of a key begins with. -/
def Key.Kind.head : Key.Kind → Text
  | .ipAttempts => "login:ip:".toList
  | .userAttempts => "login:user:".toList
  | .pairAttempts => "login:pair:".toList
  | .ipLock => "login:lock:ip:".toList
  | .userLock => "login:lock:user:".toList
  | .ipRounds => "login:rounds:ip:".toList
  | .userRounds => "login:rounds:user:".toList
  | .sudoFail => "sudo:fail:".toList
  | .sudoLock => "sudo:lock:".toList

/- The kind of a key. -/
def Key.kind : Key → Key.Kind
  | .ipAttempts _ => .ipAttempts
  | .userAttempts _ => .userAttempts
  | .pairAttempts _ => .pairAttempts
  | .ipLock _ => .ipLock
  | .userLock _ => .userLock
  | .ipRounds _ => .ipRounds
  | .userRounds _ => .userRounds
  | .sudoFail _ => .sudoFail
  | .sudoLock _ => .sudoLock

/- Whom a key is for. -/
def Key.name : Key → Text
  | .ipAttempts ip => ip.toList
  | .userAttempts user => user.toList
  | .pairAttempts pair => pair.toList
  | .ipLock ip => ip.toList
  | .userLock user => user.toList
  | .ipRounds ip => ip.toList
  | .userRounds user => user.toList
  | .sudoFail userId => digits userId
  | .sudoLock userId => digits userId

/- `f"{ns}:ip:{ip}"`, and so on -/
def Key.text (key : Key) : Text :=
  key.kind.head ++ key.name

/- No kind's text begins that of another kind. -/
theorem Key.Kind.eq_of_prefix
    {kind kind' : Key.Kind}
    (hHeads : kind.head <+: kind'.head) :
    kind = kind' := by
  revert hHeads
  cases kind <;> cases kind' <;>
    first
      | exact fun _ => rfl
      | exact fun hHeads => absurd hHeads (by decide +kernel)

/- Keys of one kind, for one name, are one key. -/
theorem Key.eq_of_kind_eq
    {key key' : Key}
    (hKind : key.kind = key'.kind)
    (hName : key.name = key'.name) :
    key = key' := by
  cases key <;> cases key' <;> cases hKind <;>
    first
      | rw [String.toList_injective hName]
      | rw [digits_inj hName]

/- Two keys never have the same text. -/
theorem Key.text_injective :
    Function.Injective Key.text := by
  intro key key' hText
  have hStart : key.kind.head <+: key'.text :=
    hText ▸ List.prefix_append _ _
  have hStart' : key'.kind.head <+: key'.text :=
    List.prefix_append _ _
  have hKind : key.kind = key'.kind := by
    rcases List.prefix_or_prefix_of_prefix hStart hStart'
      with hFirst | hSecond
    · exact Key.Kind.eq_of_prefix hFirst
    · exact (Key.Kind.eq_of_prefix hSecond).symm
  refine Key.eq_of_kind_eq hKind ?_
  unfold Key.text at hText
  rw [hKind] at hText
  exact List.append_cancel_left hText

namespace DatabaseCounters

/- The row of a key: `stored_key(f"{self.prefix}{key}")` -/
def Config.row (config : Config) (key : Key) : Text :=
  config.column key.text

/- Keys that fit their column have a row of their own. -/
theorem injOn_row_of_fits
    {config : Config}
    {keys : Set Key}
    (hFits : ∀ key ∈ keys,
      (config.keyPrefix ++ key.text).length ≤
        databaseKeyMaxLength) :
    Set.InjOn config.row keys := by
  intro key hKey key' hKey' hSame
  unfold Config.row Config.column at hSame
  rw [Storage.storedKey_of_fits (hFits key hKey),
    Storage.storedKey_of_fits (hFits key' hKey')] at hSame
  exact Key.text_injective (List.append_cancel_left hSame)

/- An empty prefix, and digests that are all zeros. -/
def zeros : Config where
  keyPrefix := []
  digest := fun _ => List.replicate 64 '0'
  dialect := .upsertsReturning

end DatabaseCounters

------------------------------------------------------------
-- Keys Of A Call
------------------------------------------------------------

/- The key an operation is about, if it is about one. -/
def Op.key? : Op → Option Key
  | .increment key _ _ => some key
  | .incrementAndRefreshTtl key _ _ => some key
  | .getCount key => some key
  | .delete key => some key
  | .getTtl key => some key
  | _ => none

/- A flow that uses no other keys than these. -/
def within (keys : Set Key) : Contract interface where
  rule _ op := ∀ key, op.key? = some key → key ∈ keys
  answer _ _ := True

namespace LockoutPolicy

variable (policy : LockoutPolicy)

/- The keys that an attempt is recorded under. -/
def keys (ipAddress username : String) : Set Key :=
  {policy.ipAttempts ipAddress,
    policy.userAttempts username,
    policy.pairAttempts ipAddress username,
    policy.ipLock ipAddress,
    policy.userLock username,
    policy.ipRounds ipAddress,
    policy.userRounds username}

variable {policy : LockoutPolicy}
variable {ipAddress username : String}
variable {used : Set Key}
variable {past : List Act}
variable (hKeys : policy.keys ipAddress username ⊆ used)

include hKeys

/- One operation on a key of the call, and what follows. -/
theorem within_step
    {α : Type}
    {op : Op}
    {key : Key}
    {rest : op.Ret → Flow α}
    {post : List Act → Except Empty α → Prop}
    (hOp : op.key? = some key)
    (hKey : key ∈ policy.keys ipAddress username)
    (hRest : ∀ ret : op.Ret,
      Program.Obeys (within used) (⟨op, ret⟩ :: past)
        (rest ret) post) :
    Program.Obeys (within used) past
      (Program.bind (call op) rest) post := by
  refine obeys_step ?_ fun ret _ => hRest ret
  intro other hOther
  rw [hOp] at hOther
  exact hKeys (Option.some.inj hOther ▸ hKey)

/- A success uses the keys of its call. -/
theorem recordSuccess_within :
    (policy.recordSuccess ipAddress username).Obeys
      (within used) past fun _ _ => True := by
  unfold recordSuccess
  refine within_step hKeys rfl (by simp [keys]) fun _ => ?_
  refine within_step hKeys rfl (by simp [keys]) fun _ => ?_
  refine within_step hKeys rfl (by simp [keys]) fun _ => ?_
  split
  · trivial
  refine within_step hKeys rfl (by simp [keys]) fun own => ?_
  split
  · trivial
  split
  · trivial
  refine within_step hKeys rfl (by simp [keys])
    fun gone => ?_
  split
  · exact within_step hKeys rfl (by simp [keys])
      fun _ => trivial
  · trivial

/- So does the count of a pair. -/
theorem countPair_within :
    (policy.countPair ipAddress username).Obeys
      (within used) past fun _ _ => True := by
  unfold countPair
  split
  · trivial
  refine within_step hKeys rfl (by simp [keys]) fun ttl => ?_
  split
  · exact within_step hKeys rfl (by simp [keys])
      fun _ => trivial
  · trivial

/- So does a lockout. -/
theorem lockOut_within :
    (policy.lockOut ipAddress username).Obeys
      (within used) past fun _ _ => True := by
  unfold lockOut
  refine within_step hKeys rfl (by simp [keys]) fun _ => ?_
  refine within_step hKeys rfl (by simp [keys]) fun _ => ?_
  refine within_step hKeys rfl (by simp [keys]) fun _ => ?_
  refine within_step hKeys rfl (by simp [keys]) fun _ => ?_
  refine within_step hKeys rfl (by simp [keys]) fun _ => ?_
  exact within_step hKeys rfl (by simp [keys])
    fun _ => trivial

/- So does a failure. -/
theorem recordFailure_within :
    (policy.recordFailure ipAddress username).Obeys
      (within used) past fun _ _ => True := by
  unfold recordFailure
  refine within_step hKeys rfl (by simp [keys]) fun _ => ?_
  refine within_step hKeys rfl (by simp [keys]) fun _ => ?_
  dsimp only
  split
  · trivial
  refine within_step hKeys rfl (by simp [keys]) fun _ => ?_
  refine within_step hKeys rfl (by simp [keys]) fun _ => ?_
  refine Program.Obeys.bind (countPair_within hKeys) ?_ ?_
  · intro past' _ _ _
    split
    · trivial
    · exact lockOut_within hKeys
  · intro past' error _ _
    exact error.elim

/- A call of `check_and_record` uses its own keys. -/
theorem checkAndRecord_within
    (success : Bool) :
    (policy.checkAndRecord ipAddress username success).Obeys
      (within used) past fun _ _ => True := by
  unfold checkAndRecord
  split
  · exact recordSuccess_within hKeys
  · exact recordFailure_within hKeys

/- Taking one back uses the key it is taken from. -/
theorem forgetOne_within
    {key : Key}
    (hKey : key ∈ policy.keys ipAddress username) :
    (policy.forgetOne key).Obeys
      (within used) past fun _ _ => True := by
  unfold forgetOne
  refine within_step hKeys rfl hKey fun count => ?_
  split
  · exact within_step hKeys rfl hKey fun _ => trivial
  · trivial

/- A call of `forget_attempt` uses its own keys. -/
theorem forgetAttempt_within :
    (policy.forgetAttempt ipAddress username).Obeys
      (within used) past fun _ _ => True := by
  unfold forgetAttempt
  refine Program.Obeys.bind
    (forgetOne_within hKeys (by simp [keys])) ?_ ?_
  · intro _ _ _ _
    refine Program.Obeys.bind
      (forgetOne_within hKeys (by simp [keys])) ?_ ?_
    · intro _ _ _ _
      split
      · trivial
      · refine Program.Obeys.bind
          (forgetOne_within hKeys (by simp [keys])) ?_ ?_
        · intro _ _ _ _
          trivial
        · intro _ error _ _
          exact error.elim
    · intro _ error _ _
      exact error.elim
  · intro _ error _ _
    exact error.elim

end LockoutPolicy

------------------------------------------------------------
-- Limiters With Their Rows Elsewhere
------------------------------------------------------------

section Placed

variable {ρ ρ' : Type} [DecidableEq ρ] [DecidableEq ρ']

/-
  Two limiters are alike in some rows, each of which has a
  place of its own in the first one.
-/
structure Placed
    (place : ρ' → ρ)
    (rows : Set ρ')
    (limiter : Limiter ρ)
    (limiter' : Limiter ρ') : Prop where
  clock : limiter.clock = limiter'.clock
  checks : limiter.checks = limiter'.checks
  counters : ∀ row ∈ rows,
    limiter.counters (place row) = limiter'.counters row

/- A key's row in the one has its place in the other. -/
def RowsAt
    (place : ρ' → ρ)
    (rows : Set ρ')
    (row : Key → ρ)
    (row' : Key → ρ')
    (keys : Set Key) : Prop :=
  ∀ key ∈ keys, row' key ∈ rows ∧ row key = place (row' key)

variable {backend : Backend}
variable {place : ρ' → ρ}
variable {rows : Set ρ'}
variable {row : Key → ρ}
variable {row' : Key → ρ'}
variable {keys : Set Key}
variable {limiter : Limiter ρ}
variable {limiter' : Limiter ρ'}

omit [DecidableEq ρ] [DecidableEq ρ'] in
/- What holds of all keys holds of some. -/
theorem RowsAt.mono
    {used : Set Key}
    (hRows : RowsAt place rows row row' keys)
    (hUsed : used ⊆ keys) :
    RowsAt place rows row row' used :=
  fun key hKey => hRows key (hUsed hKey)

omit [DecidableEq ρ] [DecidableEq ρ'] in
/- What is live in a row is live in its place. -/
theorem Placed.live
    {cell : ρ'}
    (hPlaced : Placed place rows limiter limiter')
    (hRow : cell ∈ rows) :
    backend.live limiter (place cell) =
      backend.live limiter' cell := by
  unfold Backend.live
  rw [hPlaced.counters cell hRow, hPlaced.clock]

/- Both write the row. -/
theorem Placed.put
    {cell : ρ'}
    (hPlaced : Placed place rows limiter limiter')
    (hPlace : Set.InjOn place rows)
    (hRow : cell ∈ rows)
    (counter : Option Counter) :
    Placed place rows
      (Backend.put limiter (place cell) counter)
      (Backend.put limiter' cell counter) where
  clock := hPlaced.clock
  checks := hPlaced.checks
  counters other hOther := by
    dsimp only [Backend.put]
    by_cases hSame : other = cell
    · subst hSame
      rw [Function.update_self, Function.update_self]
    · have hApart : place other ≠ place cell :=
        fun hPlaces => hSame (hPlace hOther hRow hPlaces)
      rw [Function.update_of_ne hSame,
        Function.update_of_ne hApart]
      exact hPlaced.counters other hOther

/- One operation is answered alike, and does the same. -/
theorem Placed.exec
    (backend : Backend)
    (op : Op)
    (hPlaced : Placed place rows limiter limiter')
    (hPlace : Set.InjOn place rows)
    (hRows : RowsAt place rows row row' keys)
    (hOp : ∀ key, op.key? = some key → key ∈ keys) :
    (backend.exec row op limiter).1 =
        (backend.exec row' op limiter').1 ∧
      Placed place rows (backend.exec row op limiter).2
        (backend.exec row' op limiter').2 := by
  have hCurrent : ∀ key ∈ keys,
      backend.live limiter (row key) =
        backend.live limiter' (row' key) := by
    intro key hKey
    rw [(hRows key hKey).2]
    exact hPlaced.live (hRows key hKey).1
  have hPut : ∀ key ∈ keys, ∀ counter,
      Placed place rows
        (Backend.put limiter (row key) counter)
        (Backend.put limiter' (row' key) counter) := by
    intro key hKey counter
    rw [(hRows key hKey).2]
    exact hPlaced.put hPlace (hRows key hKey).1 counter
  cases op with
  | arrive called => exact ⟨rfl, hPlaced⟩
  | respond outcome => exact ⟨rfl, hPlaced⟩
  | increment key amount expiry =>
      have hKey := hOp key rfl
      have hNext :
          backend.incremented limiter (row key) amount
              expiry =
            backend.incremented limiter' (row' key) amount
              expiry := by
        unfold Backend.incremented Backend.current
        rw [hCurrent key hKey, hPlaced.clock]
      simp only [Backend.exec]
      rw [hNext]
      exact ⟨rfl, hPut key hKey _⟩
  | incrementAndRefreshTtl key amount expiry =>
      have hKey := hOp key rfl
      have hNext :
          backend.refreshed limiter (row key) amount
              expiry =
            backend.refreshed limiter' (row' key) amount
              expiry := by
        unfold Backend.refreshed Backend.current
        rw [hCurrent key hKey, hPlaced.clock]
      simp only [Backend.exec]
      rw [hNext]
      exact ⟨rfl, hPut key hKey _⟩
  | getCount key =>
      simp only [Backend.exec]
      rw [hCurrent key (hOp key rfl)]
      exact ⟨rfl, hPlaced⟩
  | getTtl key =>
      simp only [Backend.exec]
      rw [hCurrent key (hOp key rfl), hPlaced.clock]
      exact ⟨rfl, hPlaced⟩
  | delete key =>
      have hKey := hOp key rfl
      have hExisted :
          backend.existed limiter (row key) =
            backend.existed limiter' (row' key) := by
        have hStored :
            limiter.counters (row key) =
              limiter'.counters (row' key) := by
          rw [(hRows key hKey).2]
          exact hPlaced.counters _ (hRows key hKey).1
        unfold Backend.existed
        rw [hStored, hCurrent key hKey]
      exact ⟨hExisted, hPut key hKey none⟩
  | verify =>
      rcases limiter with ⟨counters, clock, checks⟩
      rcases limiter' with ⟨counters', clock', checks'⟩
      obtain rfl : checks = checks' := hPlaced.checks
      cases checks with
      | nil => exact ⟨rfl, hPlaced⟩
      | cons check checks =>
          exact ⟨rfl, hPlaced.clock, rfl, hPlaced.counters⟩

/- A flow that keeps to the keys ends alike on both. -/
theorem Placed.run
    {α : Type}
    {flow : Flow α}
    {post : List Act → Except Empty α → Prop}
    (backend : Backend)
    (past : List Act)
    (hPlaced : Placed place rows limiter limiter')
    (hPlace : Set.InjOn place rows)
    (hRows : RowsAt place rows row row' keys)
    (hWithin : flow.Obeys (within keys) past post) :
    (flow.run (backend.exec row) limiter).1 =
        (flow.run (backend.exec row') limiter').1 ∧
      Placed place rows
        (flow.run (backend.exec row) limiter).2
        (flow.run (backend.exec row') limiter').2 := by
  induction flow generalizing past limiter limiter' with
  | done value => exact ⟨rfl, hPlaced⟩
  | raise error => exact ⟨rfl, hPlaced⟩
  | perform op next ih =>
      obtain ⟨hRet, hNext⟩ :=
        hPlaced.exec backend op hPlace hRows hWithin.1
      rw [Program.run_perform, Program.run_perform, hRet]
      exact ih _ _ hNext (hWithin.2 _ trivial)

/- Time passes on both. -/
theorem Placed.pass
    (backend : Backend)
    (microseconds : Nat)
    (hPlaced : Placed place rows limiter limiter') :
    Placed place rows
      (backend.tick (.pass microseconds) limiter)
      (backend.tick (.pass microseconds) limiter') where
  clock := congrArg (· + microseconds) hPlaced.clock
  checks := hPlaced.checks
  counters := hPlaced.counters

omit [DecidableEq ρ] [DecidableEq ρ'] in
/- Nothing has been counted on either. -/
theorem Placed.empty
    (clock : Nat)
    (checks : List Bool) :
    Placed place rows ⟨fun _ => none, clock, checks⟩
      ⟨fun _ => none, clock, checks⟩ where
  clock := rfl
  checks := rfl
  counters _ _ := rfl

end Placed

------------------------------------------------------------
-- Keys That Share No Row
------------------------------------------------------------

section Apart

variable {ρ : Type} [DecidableEq ρ]
variable {backend : Backend}
variable {row : Key → ρ}
variable {keys : Set Key}
variable {limiter : Limiter ρ}
variable {keyed : Limiter Key}

omit [DecidableEq ρ] in
/- Under the key itself, a counter is where its row is. -/
theorem rowsAt_id :
    RowsAt row keys row id keys :=
  fun _ hKey => ⟨hKey, rfl⟩

open Classical in
/- What a tick is to the counters of some keys. -/
noncomputable def Backend.Tick.under
    (row : Key → ρ)
    (keys : Set Key) :
    Backend.Tick ρ → Backend.Tick Key
  | .pass microseconds => .pass microseconds
  | .sweep swept =>
      if hKey : ∃ key ∈ keys, row key = swept then
        .sweep hKey.choose
      else
        .pass 0

/- A tick on the rows is one on the keys. -/
theorem Placed.tick
    (backend : Backend)
    (tick : Backend.Tick ρ)
    (hPlaced : Placed row keys limiter keyed)
    (hApart : Set.InjOn row keys) :
    Placed row keys (backend.tick tick limiter)
      (backend.tick (tick.under row keys) keyed) := by
  cases tick with
  | pass microseconds =>
      exact hPlaced.pass backend microseconds
  | sweep swept =>
      simp only [Backend.Tick.under]
      by_cases hKey : ∃ key ∈ keys, row key = swept
      · rw [dif_pos hKey]
        obtain ⟨hMem, hRow⟩ := hKey.choose_spec
        have hLive : backend.live limiter swept =
            backend.live keyed hKey.choose := by
          rw [← hPlaced.live hMem, hRow]
        have hPut := hPlaced.put hApart hMem
          (backend.live keyed hKey.choose)
        rw [hRow] at hPut
        change Placed row keys
          (Backend.put limiter swept
            (backend.live limiter swept)) _
        rw [hLive]
        exact hPut
      · rw [dif_neg hKey]
        refine ⟨hPlaced.clock, hPlaced.checks, ?_⟩
        intro key hMem
        have hOther : row key ≠ swept :=
          fun hRow => hKey ⟨key, hMem, hRow⟩
        exact (Function.update_of_ne hOther _ _).trans
          (hPlaced.counters key hMem)

end Apart

end RateLimit

end CrudAuth
