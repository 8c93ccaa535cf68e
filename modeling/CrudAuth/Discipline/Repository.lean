import CrudAuth.Discipline.Rules

/-
  The writes of the repository keep the contract: each one
  starts from the copy read last, and ends with a new one.

  Main declarations:
    * `refreshRow_obeys`
    * `update_obeys`
    * `incrementTokenVersion_obeys`
    * `updateIfUnchanged_obeys`
-/

namespace CrudAuth

open Concurrency
open Concurrency.Program

namespace Runtime

variable {runtime : Runtime}
variable {request : Request}
variable {past : List Act}
variable {user : User}

------------------------------------------------------------
-- Repository
------------------------------------------------------------

/- A row that is read again is the one loaded. -/
theorem refreshRow_obeys
    {loaded : User}
    (hRead : lastRead past = some loaded)
    (hId : loaded.id = user.id) :
    Obeys (runtime.contract request) past
      (refreshRow user.id)
      (Returns fun past' user' =>
        Reread past past' user user') := by
  refine obeys_step ⟨loaded, hRead, hId⟩
    fun ret hAnswer => ?_
  cases ret with
  | none => simp
  | some user' =>
      simp only [obeys_pure, returns_ok]
      exact ⟨hAnswer user' rfl, rfl, rfl⟩

/- An update from the copy read last. -/
theorem update?_obeys
    {data : Patch}
    (hRead : lastRead past = some user)
    (hEntitled : runtime.Entitled request past user.id)
    (hWrite : runtime.Write request past user
      (runtime.canonical data)) :
    Obeys (runtime.contract request) past
      (runtime.update? user data)
      (Returns fun past' result =>
        ∀ user', result = some user' →
          Reread past past' user user' ∧
          (⟨.commit user (runtime.canonical data), true⟩ :
            Act) ∈ past') := by
  refine obeys_step ⟨hRead, hEntitled, hWrite⟩
    fun committed _ => ?_
  cases committed with
  | false => simp
  | true =>
      refine Obeys.andThen (refreshRow_obeys hRead rfl) ?_
      intro past' user' hSuffix hReread
      simp only [obeys_pure, returns_ok,
        Option.some.injEq]
      rintro _ rfl
      refine ⟨?_, hSuffix.subset List.mem_cons_self⟩
      exact Kept.reread (Kept.cons rfl rfl) hReread

/- A plain write, for who is entitled to it. -/
theorem update_obeys
    {data : Patch}
    (hRead : lastRead past = some user)
    (hEntitled : runtime.Entitled request past user.id)
    (hWrite : runtime.Write request past user
      (runtime.canonical data)) :
    Obeys (runtime.contract request) past
      (runtime.update user data)
      (Returns fun past' user' =>
        Reread past past' user user' ∧
        (⟨.commit user (runtime.canonical data), true⟩ :
          Act) ∈ past') := by
  refine Obeys.andThen
    (update?_obeys hRead hEntitled hWrite) ?_
  intro past' result _ hResult
  cases result with
  | none => simp
  | some user' =>
      simp only [obeys_pure, returns_ok]
      exact hResult user' rfl

/- The bump follows the password write it belongs to. -/
theorem incrementTokenVersion_obeys
    {loaded : User}
    {data : Patch}
    (hRead : lastRead past = some user)
    (hCommitted :
      (⟨.commit loaded data, true⟩ : Act) ∈ past)
    (hId : loaded.id = user.id)
    (hPassword : data.hashedPassword.isSome = true) :
    Obeys (runtime.contract request) past
      (runtime.incrementTokenVersion user)
      (Returns fun past' user' =>
        Reread past past' user user' ∧
        (runtime.hasTokenVersion = true →
          (⟨.incrementVersion user.id, ()⟩ : Act) ∈
            past')) := by
  unfold incrementTokenVersion
  split
  · rename_i hVersion
    refine obeys_step
      ⟨hVersion, loaded, data, hCommitted, hId, hPassword⟩
      fun _ _ => ?_
    refine Obeys.mono (refreshRow_obeys hRead rfl) ?_
    intro past' result hSuffix hReread user' hResult
    refine ⟨?_, fun _ => hSuffix.subset List.mem_cons_self⟩
    exact Kept.reread (Kept.cons rfl rfl)
      (hReread user' hResult)
  · rename_i hVersion
    simp only [obeys_pure, returns_ok]
    exact ⟨Reread.refl hRead, fun h => absurd h hVersion⟩

/- A step is claimed for a code that matches. -/
theorem claimTotpStep_obeys
    {step : Nat}
    (hRead : lastRead past = some user)
    (hMatches :
      runtime.Matches request past user.id step) :
    Obeys (runtime.contract request) past
      (claimTotpStep user step)
      (Returns fun past' result =>
        Reread past past' user result.2 ∧
        (result.1 = true →
          (⟨.claimStep user.id step, true⟩ : Act) ∈
            past')) := by
  refine obeys_step hMatches fun claimed _ => ?_
  refine Obeys.andThen (refreshRow_obeys hRead rfl) ?_
  intro past' user' hSuffix hReread
  simp only [obeys_pure, returns_ok]
  refine ⟨Kept.reread (Kept.cons rfl rfl) hReread, ?_⟩
  rintro rfl
  exact hSuffix.subset List.mem_cons_self

/- A guarded write. -/
theorem updateIfUnchanged_obeys
    {guard : Guard}
    {values : Patch}
    (hRead : lastRead past = some user)
    (hEntitled : runtime.Entitled request past user.id)
    (hSwap :
      runtime.Swap request past user.id guard values) :
    Obeys (runtime.contract request) past
      (updateIfUnchanged user guard values)
      (Returns fun past' result =>
        Reread past past' user result.2 ∧
        (result.1 = true →
          (⟨.updateIf user.id guard values, true⟩ : Act) ∈
            past')) := by
  refine obeys_step
    ⟨hEntitled, ⟨user, hRead, rfl⟩, hSwap⟩
    fun updated _ => ?_
  refine Obeys.andThen (refreshRow_obeys hRead rfl) ?_
  intro past' user' hSuffix hReread
  simp only [obeys_pure, returns_ok]
  refine ⟨Kept.reread (Kept.cons rfl rfl) hReread, ?_⟩
  rintro rfl
  exact hSuffix.subset List.mem_cons_self

end Runtime

end CrudAuth
