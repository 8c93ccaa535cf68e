import CrudAuth.Discipline.TokenStore
import CrudAuth.Scenario

/-
  Signed tokens are redeemed once, as long as no marker is
  claimed after the token has expired.

  A marker lives for the lifetime of the flow from its first
  use, and so at least until the token's `exp`.  Up to then
  a second claim finds it.

  Main declarations:
    * `RedeemedOnce`
    * `MarkerLaws`
    * `redeemedOnce_of_timely`
-/

namespace CrudAuth

namespace TokenStore

open Concurrency
open Concurrency.Program
open Storage

------------------------------------------------------------
-- The Property
------------------------------------------------------------

/- The key a command may claim. -/
def claimed :
    (choice : BackendChoice) →
    (storage choice).commands.Op →
    Option SignedToken
  | .memory _ => fun command =>
      match (command : Call SignedToken UsedToken) with
      | .setIfAbsent token _ _ => some token
      | _ => none
  | .database _ => fun command =>
      match (command : Statement SignedToken UsedToken) with
      | .insert token _ => some token
      | _ => none
  | .redis _ => fun command =>
      match (command : RedisCommand SignedToken UsedToken)
      with
      | .setNx token _ _ => some token
      | _ => none

variable {ι : Type}

/- What happened, over a backend. -/
abbrev TokenEvent (choice : BackendChoice) (ι : Type) :=
  Event ι (tokenLayer choice)

/- No key is claimed once its token has expired. -/
def Timely
    {backend : Backend SignedToken UsedToken}
    (claimed : backend.commands.Op → Option SignedToken) :
    Condition ι
      (layered (calls SignedToken UsedToken)
        backend.commands interface)
      (Layered backend.State World) :=
  fun state _ _ op =>
    match op with
    | .command command =>
        ∀ token ∈ claimed command,
          state.clock < token.exp * 1000
    | _ => True

/- No marker is claimed once its token has expired. -/
abbrev timely (choice : BackendChoice) :
    Condition ι (tokenLayer choice) (State choice) :=
  Timely (claimed choice)

instance (choice : BackendChoice) :
    ∀ (state : State choice)
      (history : List (TokenEvent choice ι))
      (thread : ι) (op : (tokenLayer choice).Op),
      Decidable (timely choice state history thread op) :=
  fun state _ _ op =>
    match op with
    | .command command =>
        inferInstanceAs (Decidable
          (∀ token ∈ claimed choice command,
            state.clock < token.exp * 1000))
    | .now => isTrue trivial
    | .began _ => isTrue trivial
    | .finished _ _ => isTrue trivial
    | .app _ => isTrue trivial

/- A request has written to an account. -/
def Wrote
    {choice : BackendChoice}
    (history : List (TokenEvent choice ι))
    (thread : ι) : Prop :=
  ∃ (op : Op) (ret : op.Ret),
    (⟨thread, .app op, ret⟩ : TokenEvent choice ι) ∈
      history ∧
    writesAccount op = true

/- One redemption of the token, at most, writes. -/
def RedeemedOnce
    {choice : BackendChoice}
    (redemptions : ι → Redemption)
    (token : SignedToken)
    (history : List (TokenEvent choice ι)) : Prop :=
  ∀ thread thread',
    (redemptions thread).token = token →
    (redemptions thread').token = token →
    Wrote history thread →
    Wrote history thread' →
    thread = thread'

/- The service has minted the token, at this time at last. -/
def MintedBy
    (runtime : Runtime)
    (flows : EmailFlows)
    (token : SignedToken)
    (clock : Nat) : Prop :=
  ∃ purpose user newEmail world,
    world.clock ≤ clock / 1000 ∧
    ((runtime.mintToken purpose user (flows.ttl purpose)
      newEmail).run World.exec world).1 = .ok token

/- The redemptions an application is handling. -/
def pool
    (choice : BackendChoice)
    (runtime : Runtime)
    (redemptions : ι → Redemption) :
    ι → Program (tokenLayer choice) HttpError Unit :=
  fun thread => (redemptions thread).redeem choice runtime

/-
  Every token minted by the start of a run is redeemed at
  most once in it, by any number of redemptions of it and
  of other tokens.
-/
def SingleUse
    [DecidableEq ι]
    (choice : BackendChoice)
    (runtime : Runtime)
    (flows : EmailFlows)
    (redemptions : ι → Redemption)
    (condition :
      Condition ι (tokenLayer choice) (State choice))
    (start : State choice) : Prop :=
  ∀ token config,
    MintedBy runtime flows token start.clock →
    Reaches (machine choice) condition
      ⟨start, [], pool choice runtime redemptions⟩
      config →
    RedeemedOnce redemptions token config.history

/- A minted token lives for its flow's lifetime, at most. -/
theorem exp_of_minted
    {runtime : Runtime}
    {flows : EmailFlows}
    {token : SignedToken}
    {clock : Nat}
    (hMinted : MintedBy runtime flows token clock) :
    token.exp ≤
      clock / 1000 + flows.ttl token.state.purpose := by
  rcases hMinted with
    ⟨purpose, user, newEmail, world, hClock, hToken⟩
  cases hToken
  rw [Runtime.purpose_stateFingerprint]
  exact Nat.add_le_add_right hClock _

------------------------------------------------------------
-- Markers
------------------------------------------------------------

/-
  What a backend's markers are good for.  `known` bounds
  what a command has told by the times of the run, `marked`
  says that a marker lasts until a deadline, and `claims`
  that a command has set one that does.
-/
structure MarkerLaws
    (backend : Backend SignedToken UsedToken)
    (discipline : Layered.Discipline
      (calls SignedToken UsedToken) backend.commands)
    (claimed : backend.commands.Op → Option SignedToken)
    where
  known : Nat → Nat → Action backend.commands → Prop
  marked : backend.State → SignedToken → Nat → Prop
  claims :
    Nat → SignedToken → Nat →
    Action backend.commands → Prop
  known_exec : ∀ command now state,
    known now now
      ⟨command, (backend.server.exec command now state).1⟩
  known_mono : ∀ lo lo' hi hi' action,
    lo' ≤ lo → hi ≤ hi' →
    known lo hi action → known lo' hi' action
  claims_key : ∀ lo token deadline action,
    claims lo token deadline action →
    claimed action.op = some token
  marks : ∀ lo token deadline command now state,
    lo ≤ now →
    claims lo token deadline
      ⟨command, (backend.server.exec command now state).1⟩ →
    marked (backend.server.exec command now state).2 token
      deadline
  keeps : ∀ lo token deadline command now state key data
      expiration made,
    marked state token deadline →
    now < deadline →
    discipline.rule (.setIfAbsent key data expiration) made
      command →
    (∀ action ∈ made, known lo now action) →
    marked (backend.server.exec command now state).2 token
      deadline
  upkeep : ∀ token deadline upkeep now state,
    marked state token deadline →
    now < deadline →
    marked (backend.server.upkeep upkeep now state) token
      deadline
  refuses : ∀ lo token deadline command now state,
    marked state token deadline →
    now < deadline →
    ¬ claims lo token deadline
      ⟨command, (backend.server.exec command now state).1⟩
  finished : ∀ lo hi token deadline data ttl made,
    discipline.returns (.setIfAbsent token data (some ttl))
      made true →
    (∀ action ∈ made, known lo hi action) →
    deadline ≤ lo + ttl * 1000 →
    ∃ action ∈ made, claims lo token deadline action

------------------------------------------------------------
-- Single Use
------------------------------------------------------------

section Runs

variable [DecidableEq ι]
variable {backend : Backend SignedToken UsedToken}
variable {discipline : Layered.Discipline
  (calls SignedToken UsedToken) backend.commands}
variable {claimed : backend.commands.Op → Option SignedToken}
variable (laws : MarkerLaws backend discipline claimed)
variable {flows : EmailFlows}
variable {redemptions : ι → Redemption}
variable {start state : Layered backend.State World}
variable {history : List
  (Event ι (layered (calls SignedToken UsedToken)
    backend.commands interface))}

/- Histories of redemptions over a backend. -/
abbrev Runs
    (discipline : Layered.Discipline
      (calls SignedToken UsedToken) backend.commands)
    (claimed : backend.commands.Op → Option SignedToken)
    (flows : EmailFlows)
    (redemptions : ι → Redemption)
    (start : Layered backend.State World) :
    Layered backend.State World →
    List (Event ι (layered (calls SignedToken UsedToken)
      backend.commands interface)) → Prop :=
  Trace (Layered.machine (calls SignedToken UsedToken)
      backend.server accounts)
    (fun thread => discipline.contract
      (marksFirstOver flows (redemptions thread)))
    (Timely claimed) start []

/- What the commands of a run have told is known. -/
theorem known_of_runs
    (hRuns : Runs discipline claimed flows redemptions start
      state history)
    (thread : ι)
    (command : backend.commands.Op)
    (ret : backend.commands.Ret command)
    (hEvent : (⟨thread, .command command, ret⟩ :
      Event ι (layered (calls SignedToken UsedToken)
        backend.commands interface)) ∈ history) :
    laws.known start.clock state.clock ⟨command, ret⟩ := by
  rcases List.append_of_mem hEvent with ⟨later, earlier, rfl⟩
  rcases hRuns.at_event with
    ⟨before, hBefore, -, -, hRet, -, hAfter⟩
  cases hRet
  have hStart := Layered.clock_mono hBefore
  have hEnd := Layered.clock_mono hAfter
  rw [Layered.clock_exec] at hEnd
  exact laws.known_mono _ _ _ _ _ hStart hEnd
    (laws.known_exec command before.clock before.store)

/- What the call under way has done so far is known. -/
theorem known_of_underway
    {thread : ι}
    {call : Call SignedToken UsedToken}
    {made : List (Action backend.commands)}
    (hRuns : Runs discipline claimed flows redemptions start
      state history)
    (hUnderway :
      Layered.underway (own thread history) =
        some (call, made)) :
    ∀ action ∈ made,
      laws.known start.clock state.clock action := by
  intro action hAction
  have hOwn := Layered.mem_of_underway hUnderway hAction
  exact known_of_runs laws hRuns thread action.op action.ret
    (mem_own_iff.mp hOwn)

/- Markers of the token, until it expires. -/
def Taken
    (token : SignedToken)
    (state : Layered backend.State World)
    (_ : List (Event ι
      (layered (calls SignedToken UsedToken)
        backend.commands interface))) : Prop :=
  state.clock < token.exp * 1000 →
    laws.marked state.store token (token.exp * 1000)

/- A command that has set a marker up to the expiry. -/
def Claims
    (lo : Nat)
    (token : SignedToken)
    (event : Event ι
      (layered (calls SignedToken UsedToken)
        backend.commands interface)) : Prop :=
  ∃ command ret,
    event.action =
      (⟨.command command, ret⟩ :
        Action (layered (calls SignedToken UsedToken)
          backend.commands interface)) ∧
    laws.claims lo token (token.exp * 1000) ⟨command, ret⟩

/- A marker is kept by every step of a run. -/
theorem taken_step
    {token : SignedToken}
    {thread : ι}
    {op : LayeredOp (calls SignedToken UsedToken)
      backend.commands interface}
    (hRuns : Runs discipline claimed flows redemptions start
      state history)
    (hRule :
      (discipline.contract
        (marksFirstOver flows (redemptions thread))).rule
          (own thread history) op)
    (hTaken : Taken laws token state history) :
    laws.marked
        (Layered.exec (calls SignedToken UsedToken)
          backend.server accounts op state).2.store token
        (token.exp * 1000) ∨
      token.exp * 1000 ≤ state.clock := by
  by_cases hClock : state.clock < token.exp * 1000
  · left
    have hMarked := hTaken hClock
    cases op with
    | command command =>
        rcases hRule with
          ⟨call, made, hUnderway, hCall, hCommand, -⟩
        rcases hCall with ⟨key, ttl, rfl⟩
        exact laws.keeps start.clock token _ command
          state.clock state.store key {} (some ttl) made
          hMarked hClock hCommand
          (known_of_underway laws hRuns hUnderway)
    | now => exact hMarked
    | began call => exact hMarked
    | finished call ret => exact hMarked
    | app op => exact hMarked
  · right
    omega

/- The marker is claimed at most once before it expires. -/
theorem claims_once
    {token : SignedToken}
    (hRuns : Runs discipline claimed flows redemptions start
      state history) :
    history.Pairwise fun later earlier =>
      ¬ (Claims laws start.clock token later ∧
        Claims laws start.clock token earlier) := by
  refine (hRuns.claimed_once
    (Claims laws start.clock token)
    (Taken laws token) ?_ ?_ ?_ ?_).2
  · rintro state history thread op hBefore - -
      ⟨command, ret, hAction, hClaims⟩ -
    cases hAction
    exact laws.marks start.clock token _ command state.clock
      state.store (Layered.clock_mono hBefore) hClaims
  · intro state history thread op hBefore hRule _ hTaken
      hClock
    rw [Layered.clock_exec] at hClock
    rcases taken_step laws hBefore hRule hTaken with
      hMarked | hLate
    · exact hMarked
    · omega
  · intro state history tick hTaken hClock
    cases tick with
    | pass time =>
        apply hTaken
        exact Nat.lt_of_le_of_lt (Nat.le_add_right _ _)
          hClock
    | store upkeep =>
        exact laws.upkeep token _ upkeep state.clock
          state.store (hTaken hClock) hClock
    | app upkeep => exact hTaken hClock
  · rintro state history thread op - - hTimely hTaken
      ⟨command, ret, hAction, hClaims⟩
    cases hAction
    have hClock := hTimely token
      (laws.claims_key _ _ _ _ hClaims)
    exact laws.refuses start.clock token _ command
      state.clock state.store (hTaken hClock) hClock hClaims

/- A request that wrote has claimed its token's marker. -/
theorem claims_of_wrote
    {token : SignedToken}
    {thread : ι}
    (hRuns : Runs discipline claimed flows redemptions start
      state history)
    (hToken : (redemptions thread).token = token)
    (hExp :
      token.exp ≤ start.clock / 1000 +
        flows.ttl token.state.purpose)
    (hWrote : ∃ (op : Op) (ret : op.Ret),
      (⟨thread, .app op, ret⟩ : Event ι
        (layered (calls SignedToken UsedToken)
          backend.commands interface)) ∈ history ∧
      writesAccount op = true) :
    ∃ event ∈ history,
      event.thread = thread ∧
      Claims laws start.clock token event := by
  rcases hWrote with ⟨op, ret, hEvent, hWrites⟩
  rcases List.append_of_mem hEvent with ⟨later, earlier, rfl⟩
  rcases hRuns.at_event with ⟨before, hBefore, hRule, -⟩
  rcases hRule hWrites with ⟨hPurpose, hMarked⟩
  rcases List.mem_filterMap.mp hMarked with
    ⟨⟨op', ret'⟩, hSeen, hWorldly⟩
  rcases worldly_eq_consume hWorldly with ⟨data, hAction⟩
  rw [hAction] at hSeen
  rcases Layered.call_of_view hSeen with ⟨time, hFinished⟩
  rcases List.append_of_mem (mem_own_iff.mp hFinished) with
    ⟨newer, older, rfl⟩
  rcases hBefore.at_event with
    ⟨middle, hMiddle, ⟨-, made, hUnderway, hReturns⟩, -⟩
  have hKnown := known_of_underway laws hMiddle hUnderway
  have hDeadline :
      (redemptions thread).token.exp * 1000 ≤
        start.clock +
          flows.ttl (redemptions thread).purpose * 1000 := by
    rw [hToken] at hPurpose ⊢
    rw [← hPurpose]
    omega
  rcases laws.finished start.clock middle.clock _ _ data _
      made hReturns hKnown hDeadline with
    ⟨action, hMade, hClaims⟩
  have hOwn := mem_own_iff.mp
    (Layered.mem_of_underway hUnderway hMade)
  refine ⟨⟨thread, .command action.op, action.ret⟩, ?_,
    rfl, action.op, action.ret, rfl, ?_⟩
  · simp only [List.mem_append, List.mem_cons]
    exact Or.inr (Or.inr (Or.inr (Or.inr hOwn)))
  · rw [← hToken]
    exact hClaims

include laws in
/- Requests that wrote on one token are one request. -/
theorem once_of_runs
    {token : SignedToken}
    (hRuns : Runs discipline claimed flows redemptions start
      state history)
    (hExp :
      token.exp ≤ start.clock / 1000 +
        flows.ttl token.state.purpose)
    {thread thread' : ι}
    (hToken : (redemptions thread).token = token)
    (hToken' : (redemptions thread').token = token)
    (hWrote : ∃ (op : Op) (ret : op.Ret),
      (⟨thread, .app op, ret⟩ : Event ι
        (layered (calls SignedToken UsedToken)
          backend.commands interface)) ∈ history ∧
      writesAccount op = true)
    (hWrote' : ∃ (op : Op) (ret : op.Ret),
      (⟨thread', .app op, ret⟩ : Event ι
        (layered (calls SignedToken UsedToken)
          backend.commands interface)) ∈ history ∧
      writesAccount op = true) :
    thread = thread' := by
  rcases claims_of_wrote laws hRuns hToken hExp hWrote with
    ⟨event, hEvent, rfl, hClaims⟩
  rcases claims_of_wrote laws hRuns hToken' hExp hWrote' with
    ⟨event', hEvent', rfl, hClaims'⟩
  have hOnce :=
    @claims_once _ _ _ _ _ laws _ _ _ _ _ token hRuns
  rw [Trace.eq_of_pairwise hOnce hEvent hEvent' hClaims
    hClaims']

end Runs

------------------------------------------------------------
-- Markers In Memory
------------------------------------------------------------

/- An entry lasts until a deadline. -/
def markedInMemory
    (memory : Memory SignedToken UsedToken)
    (token : SignedToken)
    (deadline : Nat) : Prop :=
  ∃ entry,
    memory.lookup token = some entry ∧
    deadline ≤ entry.expiry

/- An entry that has not expired survives every check. -/
theorem lookup_checkExpiry
    {memory : Memory SignedToken UsedToken}
    {key token : SignedToken}
    {entry : Entry UsedToken}
    {now : Nat}
    (hEntry : memory.lookup token = some entry)
    (hLive : now ≤ entry.expiry) :
    (memory.checkExpiry now key).lookup token =
      some entry := by
  have hStays : Memory.expired now entry = false := by
    simpa [Memory.expired] using hLive
  unfold Memory.checkExpiry
  rw [Table.lookup_eraseIf, hEntry]
  simp [Option.filter, hStays]

/- A claim of a live entry's key is refused. -/
theorem setIfAbsent_of_live
    {memory : Memory SignedToken UsedToken}
    {token : SignedToken}
    {entry : Entry UsedToken}
    {expiration now : Nat}
    {data : UsedToken}
    {ttl : Option Nat}
    (hEntry : memory.lookup token = some entry)
    (hLive : now ≤ entry.expiry) :
    Memory.setIfAbsent expiration now memory token data
      ttl = (false, memory.checkExpiry now token) := by
  simp [Memory.setIfAbsent, Memory.exists?,
    lookup_checkExpiry hEntry hLive]

/- Markers in memory. -/
def memoryMarkers (expiration : Nat) :
    MarkerLaws (storage (.memory expiration))
      (disciplineOf (.memory expiration))
      (claimed (.memory expiration)) where
  known _ _ _ := True
  marked := markedInMemory
  claims lo token deadline action :=
    ∃ data ttl,
      action =
        (⟨.setIfAbsent token data (some ttl), true⟩ :
          Action (calls SignedToken UsedToken)) ∧
      deadline ≤ lo + ttl * 1000
  known_exec _ _ _ := trivial
  known_mono _ _ _ _ _ _ _ _ := trivial
  claims_key := by
    rintro lo token deadline action ⟨data, ttl, rfl, -⟩
    rfl
  marks := by
    rintro lo token deadline command now state hLo
      ⟨data, ttl, hAction, hDeadline⟩
    rcases Concurrency.Action.mk.inj hAction with ⟨rfl, hRet⟩
    have hFirst :
        (Memory.setIfAbsent expiration now state token data
          (some ttl)).1 = true := eq_of_heq hRet
    show markedInMemory (Memory.setIfAbsent expiration now
      state token data (some ttl)).2 token deadline
    unfold Memory.setIfAbsent at hFirst ⊢
    split at hFirst
    · cases hFirst
    · exact ⟨_, AList.lookup_insert _,
        Nat.le_trans hDeadline
          (Nat.add_le_add_right hLo _)⟩
  keeps := by
    rintro lo token deadline command now state key data
      expiration' made ⟨entry, hEntry, hDeadline⟩ hNow
      ⟨-, rfl⟩ -
    have hLive : now ≤ entry.expiry := by omega
    show markedInMemory (Memory.setIfAbsent expiration now
      state key data expiration').2 token deadline
    by_cases hKey : key = token
    · subst hKey
      rw [setIfAbsent_of_live hEntry hLive]
      exact ⟨entry, lookup_checkExpiry hEntry hLive,
        hDeadline⟩
    · have hOther := @lookup_checkExpiry _ key _ _ _ hEntry
        hLive
      refine ⟨entry, ?_, hDeadline⟩
      unfold Memory.setIfAbsent
      split
      · rename_i memory hExists
        obtain rfl : Memory.checkExpiry now state key =
          memory :=
          congrArg Prod.snd hExists
        exact hOther
      · rename_i memory hExists
        obtain rfl : Memory.checkExpiry now state key =
          memory :=
          congrArg Prod.snd hExists
        unfold Memory.create
        dsimp only
        rw [Table.lookup_insert', if_neg hKey]
        exact hOther
  upkeep := by
    rintro token deadline - now state
      ⟨entry, hEntry, hDeadline⟩ hNow
    refine ⟨entry, ?_, hDeadline⟩
    apply Table.lookup_sweep _ hEntry
    simp [Memory.expired]
    omega
  refuses := by
    rintro lo token deadline command now state
      ⟨entry, hEntry, hDeadline⟩ hNow
      ⟨data, ttl, hAction, -⟩
    rcases Concurrency.Action.mk.inj hAction with ⟨rfl, hRet⟩
    have hFirst :
        (Memory.setIfAbsent expiration now state token data
          (some ttl)).1 = true := eq_of_heq hRet
    have hLive : now ≤ entry.expiry := by omega
    rw [setIfAbsent_of_live hEntry hLive] at hFirst
    cases hFirst
  finished := by
    rintro lo hi token deadline data ttl made rfl -
      hDeadline
    exact ⟨_, List.mem_cons_self, data, ttl, rfl, hDeadline⟩

------------------------------------------------------------
-- Markers In The Database
------------------------------------------------------------

/- A row lasts until a deadline. -/
def markedInDatabase
    (database : Database SignedToken UsedToken)
    (token : SignedToken)
    (deadline : Nat) : Prop :=
  ∃ row,
    database.lookup token = some row ∧
    deadline ≤ row.expiresAt

/- Markers in a database. -/
def databaseMarkers (config : Database.Config) :
    MarkerLaws (storage (.database config))
      (disciplineOf (.database config))
      (claimed (.database config)) where
  known lo hi action :=
    ∀ now : Nat,
      action =
        (⟨.clock, now⟩ :
          Action (statements SignedToken UsedToken)) →
      lo ≤ now ∧ now ≤ hi
  marked := markedInDatabase
  claims _ token deadline action :=
    ∃ row expires,
      action =
        (⟨.insert token row, true⟩ :
          Action (statements SignedToken UsedToken)) ∧
      row.expiresAt = some expires ∧
      deadline ≤ expires
  known_exec := by
    rintro command now state now' hAction
    rcases Concurrency.Action.mk.inj hAction with ⟨rfl, hRet⟩
    have hNow : now = now' := eq_of_heq hRet
    omega
  known_mono := by
    intro lo lo' hi hi' action hLo hHi hKnown now hAction
    have hNow := hKnown now hAction
    omega
  claims_key := by
    rintro lo token deadline action ⟨row, expires, rfl, -⟩
    rfl
  marks := by
    rintro lo token deadline command now state hLo
      ⟨row, expires, hAction, hExpires, hDeadline⟩
    rcases Concurrency.Action.mk.inj hAction with ⟨rfl, hRet⟩
    have hInserted :
        (Database.insertRow state token row).1 = true :=
      eq_of_heq hRet
    have hAbsent : AList.lookup token state = none :=
      Option.isNone_iff_eq_none.mp
        (Database.insertRow_fst.symm.trans hInserted)
    refine ⟨_, Database.lookup_insertRow.trans
      (if_pos ⟨rfl, hAbsent⟩), ?_⟩
    simpa [hExpires] using hDeadline
  keeps := by
    rintro lo token deadline command now state key data
      expiration made ⟨row, hRow, hDeadline⟩ hNow hRule
      hKnown
    cases command with
    | clock => exact ⟨row, hRow, hDeadline⟩
    | insert key' row' =>
        refine ⟨row, ?_, hDeadline⟩
        have hTaken :
            ¬ (key' = token ∧ AList.lookup key' state =
              none) := by
          rintro ⟨rfl, hAbsent⟩
          exact absurd (hRow.symm.trans hAbsent) nofun
        exact (Database.lookup_insertRow.trans
          (if_neg hTaken)).trans hRow
    | deleteExpired key' now' =>
        have hClock := hKnown _ hRule.1 now' rfl
        refine ⟨row, ?_, hDeadline⟩
        have hLive : Database.isLive now' row = true := by
          simp [Database.isLive]
          omega
        refine Database.lookup_deleteWhere.trans ?_
        split
        · simp [hRow, hLive, Option.filter]
        · exact hRow
    | select key' now' => exact ⟨row, hRow, hDeadline⟩
    | selectKeys userId now' => exact ⟨row, hRow, hDeadline⟩
    | update key' row' =>
        rcases hRule with ⟨_, _, hCall, -⟩
        cases hCall
    | updateVersion key' now' version row' =>
        rcases hRule with ⟨-, _, _, _, hCall, -⟩
        cases hCall
    | deleteLive key' now' =>
        rcases hRule with ⟨-, _, hCall⟩
        cases hCall
    | deleteKey key' =>
        rcases hRule with ⟨_, hCall⟩
        cases hCall
    | deleteReturning key' now' =>
        rcases hRule with ⟨-, hCall⟩
        cases hCall
    | deleteValue key' now' value =>
        rcases hRule with ⟨-, hCall, -⟩
        cases hCall
  upkeep := by
    rintro token deadline batch now state
      ⟨row, hRow, hDeadline⟩ hNow
    refine ⟨row, ?_, hDeadline⟩
    apply Table.lookup_sweep _ hRow
    simp [Database.isLive]
    omega
  refuses := by
    rintro lo token deadline command now state
      ⟨row, hRow, -⟩ hNow ⟨row', expires, hAction, -⟩
    rcases Concurrency.Action.mk.inj hAction with ⟨rfl, hRet⟩
    have hInserted :
        (Database.insertRow state token row').1 = true :=
      eq_of_heq hRet
    have hAbsent : AList.lookup token state = none :=
      Option.isNone_iff_eq_none.mp
        (Database.insertRow_fst.symm.trans hInserted)
    exact absurd (hRow.symm.trans hAbsent) nofun
  finished := by
    rintro lo hi token deadline data ttl made
      ⟨row, ⟨now, hNow, rfl⟩, hInsert⟩ hKnown hDeadline
    have hClock := hKnown _ hNow now rfl
    refine ⟨_, hInsert, _, _, rfl, rfl, ?_⟩
    simp only [lifetime, Option.getD_some]
    omega

------------------------------------------------------------
-- Markers In Redis
------------------------------------------------------------

/- A record lasts until a deadline. -/
def markedInRedis
    (redis : Redis SignedToken UsedToken)
    (token : SignedToken)
    (deadline : Nat) : Prop :=
  ∃ record expires,
    redis.records.lookup token = some record ∧
    record.expiresAt = some expires ∧
    deadline ≤ expires

/- A record that has not expired is alive. -/
theorem alive_of_marked
    {redis : Redis SignedToken UsedToken}
    {token : SignedToken}
    {deadline now : Nat}
    (hMarked : markedInRedis redis token deadline)
    (hNow : now < deadline) :
    ∃ record, redis.alive now token = some record := by
  rcases hMarked with ⟨record, expires, hRecord, hExpires,
    hDeadline⟩
  refine ⟨record, Redis.alive_eq_some.mpr ⟨hRecord, ?_⟩⟩
  simp [Redis.expired, hExpires]
  omega

/- Markers in Redis. -/
def redisMarkers (config : Redis.Config) :
    MarkerLaws (storage (.redis config))
      (disciplineOf (.redis config))
      (claimed (.redis config)) where
  known _ _ _ := True
  marked := markedInRedis
  claims lo token deadline action :=
    ∃ data ttl,
      action =
        (⟨.setNx token data ttl, true⟩ :
          Action (redisCommands SignedToken UsedToken)) ∧
      deadline ≤ lo + ttl
  known_exec _ _ _ := trivial
  known_mono _ _ _ _ _ _ _ _ := trivial
  claims_key := by
    rintro lo token deadline action ⟨data, ttl, rfl, -⟩
    rfl
  marks := by
    rintro lo token deadline command now state hLo
      ⟨data, ttl, hAction, hDeadline⟩
    rcases Concurrency.Action.mk.inj hAction with ⟨rfl, hRet⟩
    have hFirst :
        (Redis.exec (.setNx token data ttl) now state).1 =
          true := eq_of_heq hRet
    show markedInRedis
      (Redis.exec (.setNx token data ttl) now state).2 token
      deadline
    simp only [Redis.exec] at hFirst ⊢
    split at hFirst
    · cases hFirst
    · refine ⟨_, now + ttl, AList.lookup_insert _, rfl, ?_⟩
      omega
  keeps := by
    rintro lo token deadline command now state key data
      expiration made hMarked hNow hRule -
    rcases hMarked with
      ⟨record, expires, hRecord, hExpires, hDeadline⟩
    cases command with
    | setNx key' data' ttl =>
        refine ⟨record, expires, ?_, hExpires, hDeadline⟩
        show (Redis.exec (.setNx key' data' ttl) now
          state).2.records.lookup token = some record
        simp only [Redis.exec]
        split
        · exact hRecord
        · rename_i hAbsent
          have hKey : key' ≠ token := by
            rintro rfl
            rcases alive_of_marked
                ⟨record, expires, hRecord, hExpires,
                  hDeadline⟩ hNow with ⟨_, hAlive⟩
            rw [hAlive] at hAbsent
            cases hAbsent
          exact (Redis.lookup_put.trans
            (if_neg hKey)).trans hRecord
    | set key' data' ttl =>
        rcases hRule with ⟨_, hCall, -⟩
        cases hCall
    | get key' =>
        exact ⟨record, expires, hRecord, hExpires, hDeadline⟩
    | watch key' =>
        exact ⟨record, expires, hRecord, hExpires, hDeadline⟩
    | exec key' watched data' ttl =>
        rcases hRule with ⟨_, _, _, _, _, hCall, -⟩
        cases hCall
    | del key' =>
        rcases hRule with ⟨_, hCall⟩
        cases hCall
    | getDel key' => cases hRule.1
    | index userId key' ttl =>
        rcases hRule with
          ⟨_, _, hCall, -⟩ | ⟨_, _, _, _, _, hCall, -⟩
        · cases hCall
        · cases hCall
    | srem userId key' =>
        rcases hRule with hCall | ⟨-, _, hCall⟩
        · cases hCall
        · cases hCall
    | smembers userId => cases hRule
  upkeep := by
    rintro token deadline key now state hMarked hNow
    rcases hMarked with
      ⟨record, expires, hRecord, hExpires, hDeadline⟩
    refine ⟨record, expires, ?_, hExpires, hDeadline⟩
    have hLive : Redis.expired now record = false := by
      simp [Redis.expired, hExpires]
      omega
    refine Redis.lookup_evict.trans ?_
    split
    · simp [hRecord, hLive, Option.filter]
    · exact hRecord
  refuses := by
    rintro lo token deadline command now state hMarked hNow
      ⟨data, ttl, hAction, -⟩
    rcases Concurrency.Action.mk.inj hAction with ⟨rfl, hRet⟩
    have hFirst :
        (Redis.exec (.setNx token data ttl) now state).1 =
          true := eq_of_heq hRet
    rcases alive_of_marked hMarked hNow with
      ⟨record, hAlive⟩
    simp [Redis.exec, hAlive] at hFirst
  finished := by
    rintro lo hi token deadline data ttl made rfl -
      hDeadline
    exact ⟨_, List.mem_cons_self, data, _, rfl, hDeadline⟩

------------------------------------------------------------
-- Single Use Of Timely Redemptions
------------------------------------------------------------

/- The markers of the chosen backend. -/
def markersOf :
    (choice : BackendChoice) →
    MarkerLaws (storage choice) (disciplineOf choice)
      (claimed choice)
  | .memory expiration => memoryMarkers expiration
  | .database config => databaseMarkers config
  | .redis config => redisMarkers config

/-
  On every backend, whatever the interleaving: a token is
  redeemed once, where no marker is claimed too late.
-/
theorem redeemedOnce_of_timely
    [DecidableEq ι]
    (choice : BackendChoice)
    (runtime : Runtime)
    (flows : EmailFlows)
    (redemptions : ι → Redemption)
    (start : State choice)
    (hFlows : runtime.emails = some flows)
    (hStore : flows.tokenStore = true) :
    SingleUse choice runtime flows redemptions
      (timely choice) start := by
  intro token config hMinted hReaches thread thread' hToken
    hToken' hWrote hWrote'
  have hObeys (thread : ι) :
      (pool choice runtime redemptions thread).Obeys
        (redeems choice flows (redemptions thread)) []
        (fun _ _ => True) :=
    redeem_obeys choice hFlows hStore
  have hAnswer (thread : ι) (op : (tokenLayer choice).Op)
      (state : State choice) :
      (redeems choice flows (redemptions thread)).answer op
        ((machine choice).exec op state).1 := by
    cases op <;> trivial
  have hRuns : Runs (disciplineOf choice) (claimed choice)
      flows redemptions start config.state config.history :=
    Reaches.trace hObeys hAnswer hReaches
  exact once_of_runs (markersOf choice) hRuns
    (exp_of_minted hMinted) hToken hToken' hWrote hWrote'

------------------------------------------------------------
-- A Late Redemption
------------------------------------------------------------

/- Two resets with one token, to different passwords. -/
def twoResets : Fin 2 → Redemption
  | 0 => .reset (Scenario.resetToken Scenario.account) "new"
  | 1 =>
    .reset (Scenario.resetToken Scenario.account) "other"

/- Markers are kept in memory for a day. -/
def inMemory : BackendChoice := .memory 86400

/- Half a second after the token was minted. -/
def resetStart : State inMemory where
  clock := 400500
  store := (∅ : Memory SignedToken UsedToken)
  app := Scenario.world [Scenario.account]

/- The sample link is a minted one. -/
theorem resetToken_minted :
    MintedBy Scenario.runtime Scenario.emails
      (Scenario.resetToken Scenario.account)
      resetStart.clock :=
  ⟨.reset, Scenario.account, none,
    { Scenario.world [] with clock := 400 }, by decide, rfl⟩

/- One thread makes a number of steps. -/
def acts
    (thread : Fin 2)
    (count : Nat) :
    List (Choice (Fin 2) (machine inMemory).Tick) :=
  List.replicate count (.thread thread)

/- The reset of one runs through; the other has verified. -/
def firstReset :
    List (Choice (Fin 2) (machine inMemory).Tick) :=
  acts 1 3 ++ acts 0 8

/-
  And consumes when the marker is gone, and the token too.
-/
def lateReset :
    List (Choice (Fin 2) (machine inMemory).Tick) :=
  firstReset ++ [.tick (.pass 3600100)] ++ acts 1 5

/- A reset token is redeemed by two requests. -/
def resetRun
    (condition :
      Condition (Fin 2) (tokenLayer inMemory)
        (State inMemory))
    [∀ state history thread op,
      Decidable (condition state history thread op)]
    (schedule :
      List (Choice (Fin 2) (machine inMemory).Tick)) :=
  Config.run (machine inMemory) condition
    ⟨resetStart, [],
      pool inMemory Scenario.runtime twoResets⟩ schedule

/- The first redemption returns. -/
theorem firstReset_ends :
    (resetRun (timely inMemory) firstReset).isSome =
      true := by
  decide

theorem lateReset_ends :
    (resetRun anyStep lateReset).isSome = true := by
  decide

/- In time, the reset that wrote is the only one. -/
theorem reset_once :
    RedeemedOnce twoResets
      (Scenario.resetToken Scenario.account)
      ((resetRun (timely inMemory) firstReset).get
        firstReset_ends).history :=
  redeemedOnce_of_timely inMemory Scenario.runtime
    Scenario.emails twoResets resetStart rfl rfl
    (Scenario.resetToken Scenario.account) _
    resetToken_minted
    (Reaches.of_run (Option.some_get firstReset_ends).symm)

/- Late, both resets write their passwords. -/
theorem not_singleUse_of_lateReset :
    ¬ SingleUse inMemory Scenario.runtime Scenario.emails
      twoResets anyStep resetStart := by
  intro hOnce
  have hRun := Reaches.of_run
    (Option.some_get lateReset_ends).symm
  have hSame := hOnce
    (Scenario.resetToken Scenario.account) _
    resetToken_minted hRun 0 1 rfl rfl ?_ ?_
  · exact absurd hSame (by decide)
  · exact ⟨_, _, List.mem_of_getElem? (i := 5) rfl, rfl⟩
  · exact ⟨_, _, List.mem_of_getElem? (i := 0) rfl, rfl⟩

end TokenStore

end CrudAuth
