import CrudAuth.Storage.DatabaseStorage
import CrudAuth.Storage.MemoryStorage

/-
  What a storage is for: a map of the values that can be
  read, in which an expired one does not exist, and what
  each method answers and does to it.

  Main declarations:
    * `View`
    * `Expected`
    * `SameAnswers`
    * `Expected.sameAnswers`
-/

------------------------------------------------------------
-- Views
------------------------------------------------------------

namespace CrudAuth

namespace Storage

/- A value that can be read, and until when, if ever. -/
structure Live where
  value : Text
  expiry : Option Nat
deriving DecidableEq

/- What can be read under each key. -/
abbrev View := Text → Option Live

namespace View

/- The readable part of a table. -/
def of {ρ : Type}
    (readable : ρ → Bool)
    (shown : ρ → Live)
    (table : Table Text ρ) : View :=
  fun key => ((table.lookup key).filter readable).map shown

/- A value is put under a key. -/
def put (view : View) (key : Text) (live : Live) : View :=
  Function.update view key (some live)

/- The value under a key is changed. -/
def rewrite
    (view : View)
    (key : Text)
    (change : Live → Live) : View :=
  Function.update view key ((view key).map change)

/- The value under a key goes. -/
def drop (view : View) (key : Text) : View :=
  Function.update view key none

variable {ρ : Type}
variable {readable : ρ → Bool}
variable {shown : ρ → Live}
variable {table table' : Table Text ρ}
variable {key : Text}

/- What is seen is a readable row. -/
theorem of_eq_some
    {live : Live} :
    of readable shown table key = some live ↔
      ∃ row, table.lookup key = some row ∧
        readable row = true ∧ shown row = live := by
  unfold of
  rw [Option.map_eq_some_iff]
  constructor
  · rintro ⟨row, hRow, hShown⟩
    have hFound := Option.filter_eq_some_iff.mp hRow
    exact ⟨row, hFound.1, hFound.2, hShown⟩
  · rintro ⟨row, hRow, hReadable, hShown⟩
    exact ⟨row,
      Option.filter_eq_some_iff.mpr ⟨hRow, hReadable⟩,
        hShown⟩

/- A change of one key changes the view of that key. -/
theorem of_change
    (hOther : ∀ other, key ≠ other →
      table'.lookup other = table.lookup other) :
    of readable shown table' =
      Function.update (of readable shown table) key
        (of readable shown table' key) := by
  funext other
  by_cases hKey : key = other
  · subst hKey
    rw [Function.update_self]
  · rw [Function.update_of_ne (Ne.symm hKey)]
    unfold of
    rw [hOther other hKey]

/- Nothing that cannot be read matters. -/
theorem of_congr
    (hRows : ∀ other,
      (table'.lookup other).filter readable =
        (table.lookup other).filter readable) :
    of readable shown table' = of readable shown table := by
  funext other
  unfold of
  rw [hRows other]

/- An update of what can be read rewrites the view. -/
theorem of_updateWhere
    {condition : ρ → Bool}
    {change : ρ → ρ}
    {rewritten : Live → Live}
    (hMeets : ∀ row, table.lookup key = some row →
      condition row = readable row)
    (hChange : ∀ row, readable row = true →
      readable (change row) = true ∧
        shown (change row) = rewritten (shown row)) :
    of readable shown
        (table.updateWhere key condition change).2 =
      (of readable shown table).rewrite key rewritten := by
  have hOther (other : Text) (hKey : key ≠ other) :
      (table.updateWhere key condition change).2.lookup
          other =
        table.lookup other := by
    rw [Table.lookup_updateWhere, if_neg hKey]
  rw [of_change hOther]
  unfold rewrite
  congr 1
  unfold of
  rw [Table.lookup_updateWhere, if_pos rfl]
  cases hRow : table.lookup key with
  | none => rfl
  | some row =>
      have hCondition := hMeets row hRow
      cases hReadable : readable row with
      | false =>
          simp [Option.filter, hCondition, hReadable]
      | true =>
          have hChanged := hChange row hReadable
          simp [Option.filter, hCondition, hReadable,
            hChanged.1, hChanged.2]

/- An insert of a readable row puts it in the view. -/
theorem of_insert
    {row : ρ}
    (hReadable : readable row = true) :
    of readable shown (AList.insert key row table) =
      (of readable shown table).put key (shown row) := by
  have hOther (other : Text) (hKey : key ≠ other) :
      (AList.insert key row table).lookup other =
        table.lookup other := by
    rw [Table.lookup_insert', if_neg hKey]
  rw [of_change hOther]
  unfold put
  congr 1
  unfold of
  rw [Table.lookup_insert', if_pos rfl]
  simp [Option.filter, hReadable]

/- A key that cannot be read any more. -/
theorem of_drop
    (hGone : of readable shown table' key = none)
    (hOther : ∀ other, key ≠ other →
      table'.lookup other = table.lookup other) :
    of readable shown table' =
      (of readable shown table).drop key := by
  rw [of_change hOther, hGone]
  rfl

/- What is not in the view is not rewritten. -/
theorem rewrite_of_none
    {view : View}
    (hNone : view key = none)
    (change : Live → Live) :
    view.rewrite key change = view := by
  unfold rewrite
  rw [hNone, Option.map_none, ← hNone,
    Function.update_eq_self]

/- What is in the view is put there anew. -/
theorem rewrite_of_some
    {view : View}
    {live : Live}
    (hLive : view key = some live)
    (change : Live → Live) :
    view.rewrite key change =
      view.put key (change live) := by
  unfold rewrite put
  rw [hLive]
  rfl

/- Dropping what is not seen changes nothing. -/
theorem drop_of_none
    {view : View}
    (hNone : view key = none) :
    view.drop key = view := by
  unfold drop
  rw [← hNone, Function.update_eq_self]

/- Dropping unreadable rows of a key shows nothing. -/
theorem of_eraseIf :
    of readable shown
        (table.eraseIf key fun row => !readable row) =
      of readable shown table := by
  apply of_congr
  intro other
  rw [Table.lookup_eraseIf]
  split
  · simp [Option.filter_filter]
  · rfl

/- Nor does dropping those of many keys. -/
theorem of_sweep (keys : List Text) :
    of readable shown
        (keys.foldl (fun table key =>
          table.eraseIf key fun row => !readable row)
          table) =
      of readable shown table := by
  induction keys generalizing table with
  | nil => rfl
  | cons first keys ih =>
      rw [List.foldl_cons, ih, of_eraseIf]

end View

------------------------------------------------------------
-- Expected Answers
------------------------------------------------------------

variable {μ : Type}

/- `model_validate_json` of what is found. -/
def readModel
    (codec : Codec μ) :
    Option Live → Except HttpError (Option μ)
  | none => .ok none
  | some live => (codec.load live.value).map some

/- The expiry of a write, which may keep the old one. -/
def renewedExpiry
    (expiration : Nat)
    (now : Nat)
    (resetExpiration : Bool)
    (ttl : Option Nat)
    (expiry : Option Nat) : Option Nat :=
  if resetExpiration then
    some (now + lifetime expiration ttl)
  else
    expiry

/- The stored user of a value is the one asked for. -/
def BelongsTo
    (codec : Codec μ)
    (userId : UserRef)
    (live : Live) : Prop :=
  (codec.payloadUserId live.value).join.map UserRef.str =
    some userId.str

/- A pattern of `scan_keys` matches the key. -/
def Scanned (key : Text) : Option Text → Prop
  | none => True
  | some pattern => Glob.fnmatchcase key pattern = true

/- A key of the storage, with a value of the model. -/
def Keepable
    (codec : Codec μ)
    (keyPrefix key value : Text) : Prop :=
  keyPrefix <+: key ∧ ∃ data, codec.load value = .ok data

/- What is dumped under a key of the storage. -/
theorem keepable_dump
    {codec : Codec μ}
    (hCodec : codec.Lawful)
    (keyPrefix sid : Text)
    (data : μ) :
    Keepable codec keyPrefix (getKey keyPrefix sid)
      (codec.dump data) :=
  ⟨List.prefix_append keyPrefix sid, hCodec.loads data⟩

variable (codec : Codec μ)
variable (keyPrefix : Text)
variable (expiration : Nat)
variable (now : Nat)
variable (view : View)

/- What a change of a read value answers and leaves. -/
def ExpectedModify
    (key : Text)
    (change : μ → Except HttpError μ)
    (resetExpiration : Bool)
    (ttl : Option Nat)
    (answer : Except HttpError (Option μ))
    (after : View) : Prop :=
  match readModel codec (view key) with
  | .error error => answer = .error error ∧ after = view
  | .ok none => answer = .ok none ∧ after = view
  | .ok (some data) =>
      match change data with
      | .error error => answer = .error error ∧ after = view
      | .ok changed =>
          answer = .ok (some changed) ∧
          after = view.rewrite key fun live =>
            ⟨codec.dump changed,
              renewedExpiry expiration now resetExpiration
                ttl live.expiry⟩

/- What a method answers, and the view it leaves. -/
def Expected :
    (method : Method μ) →
    Except HttpError method.Ret → View → Prop
  | .create sid data ttl, answer, after =>
      answer = .ok sid ∧
      after = view.put (getKey keyPrefix sid)
        ⟨codec.dump data,
          some (now + lifetime expiration ttl)⟩
  | .get sid, answer, after =>
      answer = readModel codec
        (view (getKey keyPrefix sid)) ∧
      after = view
  | .update sid data resetExpiration ttl, answer, after =>
      answer = .ok (view (getKey keyPrefix sid)).isSome ∧
      after = view.rewrite (getKey keyPrefix sid) fun live =>
        ⟨codec.dump data,
          renewedExpiry expiration now resetExpiration ttl
            live.expiry⟩
  | .modify sid change resetExpiration ttl, answer, after =>
      ExpectedModify codec expiration now view
        (getKey keyPrefix sid) change resetExpiration ttl
        answer after
  | .delete sid _, answer, after =>
      answer = .ok (view (getKey keyPrefix sid)).isSome ∧
      after = view.drop (getKey keyPrefix sid)
  | .extend sid ttl, answer, after =>
      answer = .ok (view (getKey keyPrefix sid)).isSome ∧
      after = view.rewrite (getKey keyPrefix sid) fun live =>
        { live with
          expiry := some (now + lifetime expiration ttl) }
  | .exists? sid, answer, after =>
      answer = .ok (view (getKey keyPrefix sid)).isSome ∧
      after = view
  | .setIfAbsent sid data ttl, answer, after =>
      answer = .ok (view (getKey keyPrefix sid)).isNone ∧
      after =
        if (view (getKey keyPrefix sid)).isNone then
          view.put (getKey keyPrefix sid)
            ⟨codec.dump data,
              some (now + lifetime expiration ttl)⟩
        else
          view
  | .getAndDelete sid, answer, after =>
      answer = readModel codec
        (view (getKey keyPrefix sid)) ∧
      after = view.drop (getKey keyPrefix sid)
  | .getUserSessions userId, answer, after =>
      after = view ∧
      ∃ sids, answer = .ok sids ∧
        ∀ sid, sid ∈ sids ↔
          ∃ live ∈ view (getKey keyPrefix sid),
            BelongsTo codec userId live
  | .scanKeys pattern, answer, after =>
      after = view ∧
      ∃ keys, answer = .ok keys ∧
        ∀ key, key ∈ keys ↔
          (view key).isSome ∧ Scanned key pattern

------------------------------------------------------------
-- The Same Answers
------------------------------------------------------------

/- Two listings of the same members. -/
def SameMembers
    (answer answer' : Except HttpError (List Text)) : Prop :=
  ∃ members members',
    answer = .ok members ∧ answer' = .ok members' ∧
      ∀ member, member ∈ members ↔ member ∈ members'

/- The same results, as sets where they are listings. -/
def SameAnswers :
    (method : Method μ) →
    Except HttpError method.Ret →
    Except HttpError method.Ret → Prop
  | .getUserSessions _, answer, answer' =>
      SameMembers answer answer'
  | .scanKeys _, answer, answer' =>
      SameMembers answer answer'
  | .create _ _ _, answer, answer' => answer = answer'
  | .get _, answer, answer' => answer = answer'
  | .update _ _ _ _, answer, answer' => answer = answer'
  | .modify _ _ _ _, answer, answer' => answer = answer'
  | .delete _ _, answer, answer' => answer = answer'
  | .extend _ _, answer, answer' => answer = answer'
  | .exists? _, answer, answer' => answer = answer'
  | .setIfAbsent _ _ _, answer, answer' => answer = answer'
  | .getAndDelete _, answer, answer' => answer = answer'

variable {codec} {keyPrefix} {expiration} {now} {view}

/- The specification of a modify is exact. -/
theorem ExpectedModify.determined
    {key : Text}
    {change : μ → Except HttpError μ}
    {resetExpiration : Bool}
    {ttl : Option Nat}
    {answer answer' : Except HttpError (Option μ)}
    {after after' : View}
    (hAnswer : ExpectedModify codec expiration now view key
      change resetExpiration ttl answer after)
    (hAnswer' : ExpectedModify codec expiration now view key
      change resetExpiration ttl answer' after') :
    answer = answer' ∧ after = after' := by
  unfold ExpectedModify at hAnswer hAnswer'
  cases hRead : readModel codec (view key) with
  | error error =>
      rw [hRead] at hAnswer hAnswer'
      exact ⟨hAnswer.1.trans hAnswer'.1.symm,
        hAnswer.2.trans hAnswer'.2.symm⟩
  | ok found =>
      rw [hRead] at hAnswer hAnswer'
      cases found with
      | none =>
          exact ⟨hAnswer.1.trans hAnswer'.1.symm,
            hAnswer.2.trans hAnswer'.2.symm⟩
      | some data =>
          dsimp only at hAnswer hAnswer'
          cases hChange : change data with
          | error error =>
              rw [hChange] at hAnswer hAnswer'
              exact ⟨hAnswer.1.trans hAnswer'.1.symm,
                hAnswer.2.trans hAnswer'.2.symm⟩
          | ok changed =>
              rw [hChange] at hAnswer hAnswer'
              exact ⟨hAnswer.1.trans hAnswer'.1.symm,
                hAnswer.2.trans hAnswer'.2.symm⟩

/- What is expected is determined. -/
theorem Expected.sameAnswers
    {method : Method μ}
    {answer answer' : Except HttpError method.Ret}
    {after after' : View}
    (hAnswer :
      Expected codec keyPrefix expiration now view method
        answer after)
    (hAnswer' :
      Expected codec keyPrefix expiration now view method
        answer' after') :
    SameAnswers method answer answer' ∧ after = after' := by
  cases method with
  | modify sid change resetExpiration ttl =>
      exact ExpectedModify.determined hAnswer hAnswer'
  | getUserSessions userId =>
      rcases hAnswer with ⟨rfl, sids, rfl, hSids⟩
      rcases hAnswer' with ⟨rfl, sids', rfl, hSids'⟩
      refine ⟨⟨sids, sids', rfl, rfl, ?_⟩, rfl⟩
      intro sid
      rw [hSids, hSids']
  | scanKeys pattern =>
      rcases hAnswer with ⟨rfl, keys, rfl, hKeys⟩
      rcases hAnswer' with ⟨rfl, keys', rfl, hKeys'⟩
      refine ⟨⟨keys, keys', rfl, rfl, ?_⟩, rfl⟩
      intro key
      rw [hKeys, hKeys']
  | _ =>
      exact ⟨hAnswer.1.trans hAnswer'.1.symm,
        hAnswer.2.trans hAnswer'.2.symm⟩

end Storage

end CrudAuth
