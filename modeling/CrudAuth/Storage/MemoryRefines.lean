import CrudAuth.Storage.Observation

/-
  The memory storage does what is expected of a storage,
  where no expired entry lingers under what it deletes or
  scans.

  Main declarations:
    * `MemoryStorage.view`
    * `MemoryStorage.Sparing`
    * `MemoryStorage.expected`
    * `MemoryStorage.kept_perform`
-/

------------------------------------------------------------
-- The View Of The Dictionary
------------------------------------------------------------

namespace CrudAuth

namespace Storage

namespace MemoryStorage

/- An entry that a read would find. -/
def readable (now : Nat) (entry : MemoryEntry) : Bool :=
  !expired now entry

/- What a read finds of it. -/
def shown (entry : MemoryEntry) : Live :=
  ⟨entry.value, entry.expiry⟩

/- The readable part of the dictionary. -/
abbrev view (now : Nat) (dictionary : Dictionary) : View :=
  View.of (readable now) shown dictionary

variable {now : Nat}
variable {dictionary : Dictionary}
variable {key : Text}

/- An entry is expired if it cannot be read. -/
theorem expired_eq :
    expired now = fun entry => !readable now entry := by
  funext entry
  simp [readable]

/- It can be read up to its expiry. -/
theorem readable_iff
    {entry : MemoryEntry} :
    readable now entry = true ↔
      ∀ expiry ∈ entry.expiry, now ≤ expiry := by
  unfold readable expired
  cases entry.expiry <;> simp

/- An expiry check is not seen. -/
@[simp]
theorem view_check :
    view now (checkExpiry now dictionary key).2 =
      view now dictionary := by
  unfold checkExpiry
  rw [expired_eq]
  exact View.of_eraseIf

theorem mem_keys_iff :
    key ∈ dictionary.keys ↔
      (dictionary.lookup key).isSome = true := by
  rw [← AList.mem_keys, AList.lookup_isSome]

/- Nor is a sweep. -/
theorem view_sweep :
    view now (sweep now dictionary) =
      view now dictionary := by
  unfold sweep
  rw [expired_eq]
  exact View.of_sweep dictionary.keys

/- After a check, what is there can be read. -/
theorem lookup_check :
    (checkExpiry now dictionary key).2.lookup key =
      (dictionary.lookup key).filter (readable now) := by
  simp only [checkExpiry, Table.lookup_eraseIf, if_true]
  rfl

/- An entry that was dropped was not seen. -/
theorem view_of_check
    (hDropped :
      (checkExpiry now dictionary key).1 = true) :
    view now dictionary key = none := by
  unfold checkExpiry at hDropped
  unfold view View.of
  cases hEntry : dictionary.lookup key with
  | none => rfl
  | some entry =>
      simp only [hEntry, Option.any_some] at hDropped
      simp [Option.filter, readable, hDropped]

/- No live entry is found where a check has dropped one. -/
theorem found_of_check :
    (if (checkExpiry now dictionary key).1 then
        none
      else
        (checkExpiry now dictionary key).2.lookup key) =
      (dictionary.lookup key).filter (readable now) := by
  split
  · rename_i hDropped
    have hNone := view_of_check hDropped
    unfold view View.of at hNone
    exact (Option.map_eq_none_iff.mp hNone).symm
  · exact lookup_check

/-
  A live entry is written anew, and can still be read; where
  there is none, nothing is written.
-/
theorem expected_rewrite
    {written : Except HttpError Bool × Dictionary}
    {change : MemoryEntry → MemoryEntry}
    {rewritten : Live → Live}
    (hAbsent :
      (dictionary.lookup key).filter (readable now) = none →
        written =
          (.ok false, (checkExpiry now dictionary key).2))
    (hThere : ∀ entry,
      (dictionary.lookup key).filter (readable now) =
          some entry →
        written =
          (.ok true,
            AList.insert key (change entry)
              (checkExpiry now dictionary key).2))
    (hShown : ∀ entry,
      shown (change entry) = rewritten (shown entry))
    (hReadable : ∀ entry, readable now entry = true →
      readable now (change entry) = true) :
    written.1 = .ok (view now dictionary key).isSome ∧
      view now written.2 =
        (view now dictionary).rewrite key rewritten := by
  cases hFound :
      (dictionary.lookup key).filter (readable now) with
  | none =>
      have hNone : view now dictionary key = none := by
        unfold view View.of
        rw [hFound]
        rfl
      rw [hAbsent hFound, View.rewrite_of_none hNone, hNone]
      exact ⟨rfl, view_check⟩
  | some entry =>
      have hLive :
          view now dictionary key = some (shown entry) := by
        unfold view View.of
        rw [hFound]
        rfl
      have hStays :=
        hReadable entry
          (Option.filter_eq_some_iff.mp hFound).2
      rw [hThere entry hFound,
        View.rewrite_of_some hLive, hLive]
      refine ⟨rfl, ?_⟩
      rw [← hShown, ← @view_check now dictionary key]
      exact View.of_insert hStays

------------------------------------------------------------
-- Methods
------------------------------------------------------------

variable {μ : Type}
variable {codec : Codec μ}
variable {config : Config}

/- A `get` reads what can be read. -/
theorem get_eq (sid : Text) :
    get codec config now dictionary sid =
      (readModel codec
        (view now dictionary (getKey config.keyPrefix sid)),
        (checkExpiry now dictionary
          (getKey config.keyPrefix sid)).2) := by
  unfold get
  dsimp only
  split
  · rename_i hDropped
    rw [view_of_check hDropped]
    rfl
  · rw [lookup_check]
    unfold view View.of
    cases (dictionary.lookup
      (getKey config.keyPrefix sid)).filter
        (readable now) <;> rfl

/- A key exists just when it is seen. -/
theorem exists_eq (sid : Text) :
    exists? config now dictionary sid =
      ((view now dictionary
        (getKey config.keyPrefix sid)).isSome,
        (checkExpiry now dictionary
          (getKey config.keyPrefix sid)).2) := by
  unfold exists?
  dsimp only
  split
  · rename_i hDropped
    rw [view_of_check hDropped]
    rfl
  · rw [lookup_check]
    unfold view View.of
    rw [Option.isSome_map]

/- A datetime can hold the expiry of a TTL from now on. -/
def Dated
    (config : Config)
    (now : Nat)
    (ttl : Option Nat) : Prop :=
  now + lifetime config.expiration ttl ≤ datetimeMax

/- A date within range does not raise. -/
theorem expire_of_dated
    {α : Type}
    {ttl : Option Nat}
    (hDated : Dated config now ttl)
    (ret : α)
    (entry : MemoryEntry) :
    expire config now dictionary ret key entry ttl =
      (.ok ret,
        AList.insert key
          { entry with
            expiry :=
              some (now + lifetime config.expiration ttl) }
          dictionary) := by
  unfold Dated at hDated
  unfold expire expiryOf
  rw [if_pos hDated]

/- A create with such a date. -/
theorem create_of_dated
    {ttl : Option Nat}
    (hDated : Dated config now ttl)
    (sid : Text)
    (data : μ) :
    create codec config now dictionary sid data ttl =
      (.ok sid,
        AList.insert (getKey config.keyPrefix sid)
          ⟨codec.dump data,
            some (now + lifetime config.expiration ttl)⟩
          dictionary) :=
  expire_of_dated hDated _ _

/- What has just been dated is read. -/
theorem readable_renewed
    {value : Text}
    {ttl : Option Nat} :
    readable now
      ⟨value,
        some (now + lifetime config.expiration ttl)⟩ =
          true := by
  simp [readable, expired]

/- A record created is seen. -/
theorem view_create
    {sid : Text}
    {data : μ}
    {ttl : Option Nat}
    (hDated : Dated config now ttl) :
    view now
        (create codec config now dictionary sid data ttl).2 =
      (view now dictionary).put
        (getKey config.keyPrefix sid)
        ⟨codec.dump data,
          some (now + lifetime config.expiration ttl)⟩ := by
  rw [create_of_dated hDated]
  exact View.of_insert readable_renewed

/- A written entry, with its new expiry or its old one. -/
def renew
    (config : Config)
    (now : Nat)
    (value : Text)
    (resetExpiration : Bool)
    (ttl : Option Nat)
    (entry : MemoryEntry) : MemoryEntry where
  value := value
  expiry :=
    renewedExpiry config.expiration now resetExpiration ttl
      entry.expiry

/- A renewed record can be read. -/
theorem readable_renew
    {value : Text}
    {resetExpiration : Bool}
    {ttl : Option Nat}
    {entry : MemoryEntry}
    (hReadable : readable now entry = true) :
    readable now
        (renew config now value resetExpiration ttl entry) =
      true := by
  cases resetExpiration with
  | false => exact hReadable
  | true => exact readable_renewed

/- An update meets the specification. -/
theorem update_eq
    {sid : Text}
    {data : μ}
    {resetExpiration : Bool}
    {ttl : Option Nat}
    (hDated : Dated config now ttl) :
    let updated := update codec config now dictionary sid
      data resetExpiration ttl
    updated.1 =
        .ok (view now dictionary
          (getKey config.keyPrefix sid)).isSome ∧
      view now updated.2 =
        (view now dictionary).rewrite
          (getKey config.keyPrefix sid) fun live =>
            ⟨codec.dump data,
              renewedExpiry config.expiration now
                resetExpiration ttl live.expiry⟩ := by
  apply @expected_rewrite now dictionary
    (getKey config.keyPrefix sid) _
    (renew config now (codec.dump data) resetExpiration ttl)
  · intro hAbsent
    rw [← found_of_check] at hAbsent
    unfold update
    dsimp only
    split at hAbsent
    · rename_i hDropped
      rw [if_pos hDropped]
    · rename_i hChecked
      rw [if_neg hChecked, hAbsent]
  · intro entry hThere
    rw [← found_of_check] at hThere
    unfold update
    dsimp only
    split at hThere
    · cases hThere
    · rename_i hChecked
      rw [if_neg hChecked, hThere]
      cases resetExpiration with
      | false => rfl
      | true => exact expire_of_dated hDated _ _
  · intro entry
    rfl
  · intro entry hReadable
    exact readable_renew hReadable

theorem extend_eq
    {sid : Text}
    {ttl : Option Nat}
    (hDated : Dated config now ttl) :
    let extended := extend config now dictionary sid ttl
    extended.1 =
        .ok (view now dictionary
          (getKey config.keyPrefix sid)).isSome ∧
      view now extended.2 =
        (view now dictionary).rewrite
          (getKey config.keyPrefix sid) fun live =>
            { live with
              expiry :=
                some (now +
                  lifetime config.expiration ttl) } := by
  apply @expected_rewrite now dictionary
    (getKey config.keyPrefix sid) _
    fun entry =>
      renew config now entry.value true ttl entry
  · intro hAbsent
    rw [← found_of_check] at hAbsent
    unfold extend
    dsimp only
    split at hAbsent
    · rename_i hDropped
      rw [if_pos hDropped]
    · rename_i hChecked
      rw [if_neg hChecked, hAbsent]
  · intro entry hThere
    rw [← found_of_check] at hThere
    unfold extend
    dsimp only
    split at hThere
    · cases hThere
    · rename_i hChecked
      rw [if_neg hChecked, hThere]
      exact expire_of_dated hDated _ _
  · intro entry
    rfl
  · intro entry hReadable
    exact readable_renew hReadable

theorem modify_expected
    (sid : Text)
    (change : μ → Except HttpError μ)
    (resetExpiration : Bool)
    {ttl : Option Nat}
    (hDated : Dated config now ttl) :
    let modified := modify codec config now dictionary sid
      change resetExpiration ttl
    ExpectedModify codec config.expiration now
      (view now dictionary) (getKey config.keyPrefix sid)
      change resetExpiration ttl modified.1
      (view now modified.2) := by
  unfold modify ExpectedModify
  rw [get_eq]
  cases hRead : readModel codec
      (view now dictionary
        (getKey config.keyPrefix sid)) with
  | error error => exact ⟨rfl, view_check⟩
  | ok found =>
      cases found with
      | none => exact ⟨rfl, view_check⟩
      | some data =>
          dsimp only
          cases hChange : change data with
          | error error => exact ⟨rfl, view_check⟩
          | ok changed =>
              have hUpdated :=
                @update_eq now
                  (checkExpiry now dictionary
                    (getKey config.keyPrefix sid)).2
                  μ codec config sid changed resetExpiration
                  ttl hDated
              dsimp only at hUpdated ⊢
              rw [view_check] at hUpdated
              have hFound :
                  (view now dictionary
                    (getKey config.keyPrefix
                      sid)).isSome = true := by
                cases hView : view now dictionary
                    (getKey config.keyPrefix sid) with
                | none =>
                    rw [hView] at hRead
                    cases hRead
                | some live => rfl
              rw [hUpdated.1, hFound]
              exact ⟨rfl, hUpdated.2⟩

/- A record deleted is not seen. -/
theorem delete_view (sid : Text) :
    view now (delete config dictionary sid).2 =
      (view now dictionary).drop
        (getKey config.keyPrefix sid) := by
  apply View.of_drop
  · simp [View.of, delete]
  · intro other hKey
    rw [delete, Table.lookup_erase', if_neg hKey]

/- A value's JSON shows the text of the user. -/
def Shows
    (codec : Codec μ)
    (userId : UserRef)
    (live : Live) : Prop :=
  (codec.payloadUserId live.value).map payloadStr =
    some userId.str

/- A null user shows where the user is called None. -/
def ShowsNull
    (codec : Codec μ)
    (userId : UserRef)
    (live : Live) : Prop :=
  codec.payloadUserId live.value = some none ∧
    userId.str = payloadStr none

/- A user's list has records of two kinds. -/
theorem shows_iff
    {userId : UserRef}
    {live : Live} :
    Shows codec userId live ↔
      BelongsTo codec userId live ∨
        ShowsNull codec userId live := by
  unfold Shows BelongsTo ShowsNull
  cases codec.payloadUserId live.value with
  | none => simp
  | some shown =>
      cases shown with
      | none => simp [eq_comm]
      | some owner => simp [payloadStr]

/- Nobody's value belongs to a user. -/
theorem not_belongsTo_of_showsNull
    {userId : UserRef}
    {live : Live}
    (hNull : ShowsNull codec userId live) :
    ¬ BelongsTo codec userId live := by
  unfold BelongsTo
  rw [hNull.1]
  rintro ⟨⟩

/- A checked key shows what its view does. -/
theorem belongs_check {userId : UserRef} :
    (!(checkExpiry now dictionary key).1 &&
      ((checkExpiry now dictionary key).2.lookup key).any
        (belongs codec userId.str)) = true ↔
    ∃ live ∈ view now dictionary key,
      Shows codec userId live := by
  rw [lookup_check]
  unfold checkExpiry view View.of
  cases hEntry : dictionary.lookup key with
  | none => simp
  | some entry =>
      cases hExpired : expired now entry <;>
        simp [Option.filter, readable, hExpired, belongs,
          Shows, shown]

/- The sessions of a user, among some keys. -/
theorem userSessionsAmong_expected
    (userId : UserRef)
    (keys : List Text) :
    let listed := userSessionsAmong codec config now
      userId.str keys dictionary
    view now listed.2 = view now dictionary ∧
      ∀ sid, sid ∈ listed.1 ↔
        ∃ key ∈ keys,
          sid = key.drop config.keyPrefix.length ∧
          ∃ live ∈ view now dictionary key,
            Shows codec userId live := by
  induction keys generalizing dictionary with
  | nil => simp [userSessionsAmong]
  | cons key keys ih =>
      have hRest := @ih (checkExpiry now dictionary key).2
      dsimp only at hRest ⊢
      rw [view_check] at hRest
      unfold userSessionsAmong
      dsimp only
      split
      · rename_i hBelongs
        rw [belongs_check] at hBelongs
        refine ⟨hRest.1, fun sid => ?_⟩
        rw [List.mem_cons, hRest.2, List.exists_mem_cons_iff,
          and_iff_left hBelongs]
      · rename_i hOther
        rw [belongs_check] at hOther
        refine ⟨hRest.1, fun sid => ?_⟩
        rw [hRest.2, List.exists_mem_cons_iff]
        constructor
        · exact Or.inr
        · rintro (hHead | hTail)
          · exact absurd hHead.2 hOther
          · exact hTail

/- Only values of the model are kept, under own keys. -/
def Kept
    (codec : Codec μ)
    (config : Config)
    (dictionary : Dictionary) : Prop :=
  dictionary.All fun key entry =>
    Keepable codec config.keyPrefix key entry.value

/- The list of a user is as specified. -/
theorem getUserSessions_eq
    (hKept : Kept codec config dictionary)
    (userId : UserRef) :
    let listed := getUserSessions codec config now dictionary
      userId
    view now listed.2 = view now dictionary ∧
      ∀ sid, sid ∈ listed.1 ↔
        ∃ live ∈ view now dictionary
            (getKey config.keyPrefix sid),
          Shows codec userId live := by
  have hListed :=
    @userSessionsAmong_expected now dictionary μ codec config
      userId dictionary.keys
  dsimp only at hListed ⊢
  refine ⟨hListed.1, fun sid => ?_⟩
  unfold getUserSessions
  rw [hListed.2]
  constructor
  · rintro ⟨key, hKey, rfl, live, hLive, hBelongs⟩
    rcases Option.isSome_iff_exists.mp
      (mem_keys_iff.mp hKey) with ⟨entry, hEntry⟩
    rcases (hKept key entry hEntry).1 with ⟨sid, rfl⟩
    rw [List.drop_left]
    exact ⟨live, hLive, hBelongs⟩
  · rintro ⟨live, hLive, hBelongs⟩
    refine ⟨getKey config.keyPrefix sid, ?_, ?_, live, hLive,
      hBelongs⟩
    · rcases View.of_eq_some.mp hLive with
        ⟨entry, hEntry, -, -⟩
      rw [mem_keys_iff, hEntry]
      rfl
    · exact List.drop_left.symm

------------------------------------------------------------
-- What Is Expected
------------------------------------------------------------

/-
  No expired entry is left where the method looks, and it
  does not ask for nobody's values by the name of None.
-/
def Sparing
    (codec : Codec μ)
    (config : Config)
    (now : Nat)
    (dictionary : Dictionary) : Method μ → Prop
  | .delete sid _ =>
      ∀ entry,
        dictionary.lookup (getKey config.keyPrefix sid) =
          some entry → expired now entry = false
  | .scanKeys pattern =>
      ∀ key entry,
        dictionary.lookup key = some entry →
        Scanned key pattern → expired now entry = false
  | .getUserSessions userId =>
      ∀ key live, view now dictionary key = some live →
        ¬ ShowsNull codec userId live
  | _ => True

/- A method whose TTL, if it has one, can be added to now. -/
def DatedMethod
    (config : Config)
    (now : Nat)
    (method : Method μ) : Prop :=
  ∀ seconds ∈ method.seconds config.expiration,
    now + seconds * 1000 ≤ datetimeMax

/- Without expired entries all are seen. -/
theorem isSome_lookup
    (hSparing : ∀ entry,
      dictionary.lookup key = some entry →
        expired now entry = false) :
    (dictionary.lookup key).isSome =
      (view now dictionary key).isSome := by
  unfold view View.of
  cases hEntry : dictionary.lookup key with
  | none => rfl
  | some entry =>
      simp [Option.filter, readable, hSparing entry hEntry]

/- A scan lists what the pattern matches. -/
theorem mem_scanKeys
    {pattern : Option Text} :
    key ∈ (scanKeys dictionary pattern).1 ↔
      (dictionary.lookup key).isSome ∧
        Scanned key pattern := by
  rw [← mem_keys_iff]
  cases pattern with
  | none => simp [scanKeys, Scanned]
  | some pattern => simp [scanKeys, Scanned]

/- An entry is set where none can be read. -/
theorem setIfAbsent_expected
    (sid : Text)
    (data : μ)
    {ttl : Option Nat}
    (hDated : Dated config now ttl) :
    Expected codec config.keyPrefix config.expiration now
      (view now dictionary) (.setIfAbsent sid data ttl)
      (setIfAbsent codec config now dictionary sid data
        ttl).1
      (view now
        (setIfAbsent codec config now dictionary sid data
          ttl).2) := by
  unfold setIfAbsent Expected
  rw [exists_eq]
  dsimp only
  cases hView : view now dictionary
      (getKey config.keyPrefix sid) with
  | none =>
      simp only [Option.isSome_none, Option.isNone_none,
        Bool.false_eq_true, if_false, if_true]
      rw [view_create hDated, view_check,
        create_of_dated hDated]
      exact ⟨rfl, rfl⟩
  | some live =>
      simp only [Option.isSome_some, Option.isNone_some,
        Bool.false_eq_true, if_false, if_true]
      exact ⟨trivial, view_check⟩

/- What is read is deleted, and can be loaded. -/
theorem getAndDelete_eq
    (hKept : Kept codec config dictionary)
    (sid : Text) :
    let taken := getAndDelete codec config now dictionary sid
    taken.1 =
        readModel codec
          (view now dictionary
            (getKey config.keyPrefix sid)) ∧
      view now taken.2 =
        (view now dictionary).drop
          (getKey config.keyPrefix sid) := by
  unfold getAndDelete
  rw [get_eq]
  cases hView : view now dictionary
      (getKey config.keyPrefix sid) with
  | none =>
      rw [View.drop_of_none hView]
      exact ⟨rfl, view_check⟩
  | some live =>
      rcases View.of_eq_some.mp hView with
        ⟨entry, hEntry, -, rfl⟩
      rcases (hKept _ entry hEntry).2 with ⟨data, hData⟩
      have hRead :
          readModel codec (some (shown entry)) =
            .ok (some data) := by
        simp [readModel, shown, hData, Except.map]
      rw [hRead]
      refine ⟨rfl, ?_⟩
      dsimp only
      rw [delete_view, view_check]

/- The memory storage answers and does what is expected. -/
theorem expected
    (hKept : Kept codec config dictionary)
    {method : Method μ}
    (hDated : DatedMethod config now method)
    (hSparing :
      Sparing codec config now dictionary method) :
    Expected codec config.keyPrefix config.expiration now
      (view now dictionary) method
      (perform codec config now dictionary method).1
      (view now
        (perform codec config now dictionary method).2) := by
  cases method with
  | create sid data ttl =>
      have hTtl : Dated config now ttl := hDated _ rfl
      have hCreated :=
        @create_of_dated now dictionary μ codec config ttl
          hTtl sid data
      exact ⟨congrArg Prod.fst hCreated, view_create hTtl⟩
  | get sid =>
      have hGet := @get_eq now dictionary μ codec config sid
      exact ⟨congrArg (fun ret => ret.1) hGet,
        (congrArg (fun ret => view now ret.2) hGet).trans
          view_check⟩
  | update sid data resetExpiration ttl =>
      exact update_eq (hDated _ rfl)
  | modify sid change resetExpiration ttl =>
      exact modify_expected sid change resetExpiration
        (hDated _ rfl)
  | delete sid userId =>
      exact ⟨congrArg Except.ok (isSome_lookup hSparing),
        delete_view sid⟩
  | extend sid ttl => exact extend_eq (hDated _ rfl)
  | exists? sid =>
      have hExists := @exists_eq now dictionary config sid
      have hFound := congrArg (fun ret => ret.1) hExists
      exact ⟨congrArg Except.ok hFound,
        (congrArg (fun ret => view now ret.2) hExists).trans
          view_check⟩
  | setIfAbsent sid data ttl =>
      exact setIfAbsent_expected sid data (hDated _ rfl)
  | getAndDelete sid => exact getAndDelete_eq hKept sid
  | getUserSessions userId =>
      have hListed :=
        @getUserSessions_eq now dictionary μ codec config
          hKept userId
      refine ⟨hListed.1, _, rfl, fun sid => ?_⟩
      rw [hListed.2]
      constructor
      · rintro ⟨live, hLive, hShows⟩
        exact ⟨live, hLive,
          (shows_iff.mp hShows).resolve_right
            (hSparing _ live hLive)⟩
      · rintro ⟨live, hLive, hBelongs⟩
        exact ⟨live, hLive,
          shows_iff.mpr (.inl hBelongs)⟩
  | scanKeys pattern =>
      refine ⟨?_, _, rfl, ?_⟩
      · cases pattern <;> rfl
      · intro key
        have hScanned (hScanned : Scanned key pattern) :=
          isSome_lookup (hSparing key · · hScanned)
        constructor
        · intro hKey
          rcases mem_scanKeys.mp hKey with ⟨hThere, hMatches⟩
          rw [hScanned hMatches] at hThere
          exact ⟨hThere, hMatches⟩
        · rintro ⟨hThere, hMatches⟩
          rw [← hScanned hMatches] at hThere
          exact mem_scanKeys.mpr ⟨hThere, hMatches⟩

------------------------------------------------------------
-- What Is Kept
------------------------------------------------------------

section Kept

variable (hCodec : codec.Lawful)
variable (hKept : Kept codec config dictionary)

include hKept

/- An expiry check keeps the records in order. -/
theorem kept_check :
    Kept codec config
      (checkExpiry now dictionary key).2 :=
  Table.All.eraseIf hKept

theorem kept_get (sid : Text) :
    Kept codec config
      (get codec config now dictionary sid).2 := by
  rw [get_eq]
  exact kept_check hKept

/- An entry is kept, whether or not it could be dated. -/
theorem kept_expire
    {α : Type}
    (ret : α)
    {entry : MemoryEntry}
    (hEntry :
      Keepable codec config.keyPrefix key entry.value)
    (ttl : Option Nat) :
    Kept codec config
      (expire config now dictionary ret key entry
        ttl).2 := by
  unfold expire
  split
  · exact Table.All.insert hKept hEntry
  · exact Table.All.insert hKept hEntry

theorem kept_userSessionsAmong
    (userId : Text)
    (keys : List Text) :
    Kept codec config
      (userSessionsAmong codec config now userId keys
        dictionary).2 := by
  induction keys generalizing dictionary with
  | nil => exact hKept
  | cons key keys ih =>
      unfold userSessionsAmong
      dsimp only
      split <;> exact ih (kept_check hKept)

include hCodec

theorem kept_create
    (sid : Text)
    (data : μ)
    (ttl : Option Nat) :
    Kept codec config
      (create codec config now dictionary sid data ttl).2 :=
  kept_expire hKept _
    (keepable_dump hCodec config.keyPrefix sid data) ttl

theorem kept_update
    (sid : Text)
    (data : μ)
    (resetExpiration : Bool)
    (ttl : Option Nat) :
    Kept codec config
      (update codec config now dictionary sid data
        resetExpiration ttl).2 := by
  unfold update
  dsimp only
  split
  · exact kept_check hKept
  · split
    · exact kept_check hKept
    · have hDump :=
        keepable_dump hCodec config.keyPrefix sid data
      split
      · exact kept_expire (kept_check hKept) _ hDump ttl
      · exact Table.All.insert (kept_check hKept) hDump

/- A modify keeps the records in order. -/
theorem kept_modify
    (sid : Text)
    (change : μ → Except HttpError μ)
    (resetExpiration : Bool)
    (ttl : Option Nat) :
    Kept codec config
      (modify codec config now dictionary sid change
        resetExpiration ttl).2 := by
  have hGet :=
    @kept_get now dictionary μ codec config hKept sid
  unfold modify
  split
  · rename_i hRet
    rw [hRet] at hGet
    exact hGet
  · rename_i hRet
    rw [hRet] at hGet
    exact hGet
  · rename_i hRet
    rw [hRet] at hGet
    split
    · exact hGet
    · exact kept_update hCodec hGet sid _ resetExpiration ttl

/- Every method keeps what is kept. -/
theorem kept_perform (method : Method μ) :
    Kept codec config
      (perform codec config now dictionary method).2 := by
  cases method with
  | create sid data ttl =>
      exact kept_create hCodec hKept sid data ttl
  | get sid => exact kept_get hKept sid
  | update sid data resetExpiration ttl =>
      exact kept_update hCodec hKept sid data
        resetExpiration ttl
  | modify sid change resetExpiration ttl =>
      exact kept_modify hCodec hKept sid change
        resetExpiration ttl
  | delete sid => exact Table.All.erase hKept
  | extend sid ttl =>
      simp only [perform, extend]
      split
      · exact kept_check hKept
      · split
        · exact kept_check hKept
        · rename_i entry hEntry
          exact kept_expire (kept_check hKept) _
            (kept_check hKept _ entry hEntry) ttl
  | exists? sid =>
      simp only [perform, answer, exists_eq]
      exact kept_check hKept
  | setIfAbsent sid data ttl =>
      simp only [perform, setIfAbsent, exists_eq]
      split
      · exact kept_check hKept
      · exact kept_create hCodec (kept_check hKept) sid data
          ttl
  | getAndDelete sid =>
      have hGet :=
        @kept_get now dictionary μ codec config hKept sid
      simp only [perform, getAndDelete]
      split
      · rename_i hRet
        rw [hRet] at hGet
        exact hGet
      · rename_i hRet
        rw [hRet] at hGet
        exact hGet
      · rename_i hRet
        rw [hRet] at hGet
        exact Table.All.erase hGet
  | getUserSessions userId =>
      simp only [perform, answer, getUserSessions]
      exact kept_userSessionsAmong hKept _ _
  | scanKeys pattern => cases pattern <;> exact hKept

end Kept

end MemoryStorage

end Storage

end CrudAuth
