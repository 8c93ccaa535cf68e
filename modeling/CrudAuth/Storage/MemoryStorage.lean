import CrudAuth.Storage.Glob

/-
  `MemorySessionStorage` over serialized records: its two
  dictionaries as one, in which a value may lack an expiry.

  `_maybe_sweep` counts writes to decide when it runs; here
  a sweep can run after any call.

  Main declarations:
    * `Dictionary`
    * `MemoryStorage.expiryOf`
    * `MemoryStorage.perform`
-/

------------------------------------------------------------
-- The Dictionary
------------------------------------------------------------

namespace CrudAuth

namespace Storage

/- `data` of one key, and its `expiry` where it has one. -/
structure MemoryEntry where
  value : Text
  expiry : Option Nat
deriving DecidableEq

/- Both dictionaries, by key. -/
abbrev Dictionary := Table Text MemoryEntry

namespace MemoryStorage

/- What the storage is made with. -/
structure Config where
  keyPrefix : Text
  expiration : Nat

/- `exp is not None and exp < _utcnow()` -/
def expired (now : Nat) (entry : MemoryEntry) : Bool :=
  entry.expiry.any fun expiry => expiry < now

/- `datetime.max`, in milliseconds since the epoch. -/
def datetimeMax : Nat := 253402300799999

variable {μ : Type}
variable (codec : Codec μ)
variable (config : Config)
variable (now : Nat)
variable (dictionary : Dictionary)

/- `_check_expiry`: whether an entry was dropped. -/
def checkExpiry (key : Text) : Bool × Dictionary :=
  ((dictionary.lookup key).any (expired now),
    dictionary.eraseIf key (expired now))

/- `_maybe_sweep`, when its turn has come. -/
def sweep : Dictionary :=
  dictionary.keys.foldl (fun dictionary key =>
    dictionary.eraseIf key (expired now)) dictionary

/- A method that answers without raising. -/
def answer {α : Type}
    (ret : α × Dictionary) :
    Except HttpError α × Dictionary :=
  (.ok ret.1, ret.2)

/-
  `_utcnow() + timedelta(seconds=ttl)`, which raises past
  the last datetime there is.
-/
def expiryOf
    (expiration : Option Nat) : Except HttpError Nat :=
  if now + lifetime config.expiration expiration ≤
      datetimeMax then
    .ok (now + lifetime config.expiration expiration)
  else
    .error .unhandled

/-
  `self.expiry[key] = _utcnow() + timedelta(seconds=ttl)`,
  of an entry whose value has been written.
-/
def expire {α : Type}
    (ret : α)
    (key : Text)
    (entry : MemoryEntry)
    (expiration : Option Nat) :
    Except HttpError α × Dictionary :=
  match expiryOf config now expiration with
  | .error error =>
      (.error error, AList.insert key entry dictionary)
  | .ok expiry =>
      (.ok ret,
        AList.insert key { entry with expiry := some expiry }
          dictionary)

/- `create` -/
def create
    (sid : Text)
    (data : μ)
    (expiration : Option Nat) :
    Except HttpError Text × Dictionary :=
  let key := getKey config.keyPrefix sid
  let expiry :=
    (dictionary.lookup key).bind MemoryEntry.expiry
  expire config now dictionary sid key
    ⟨codec.dump data, expiry⟩ expiration

/- What `get` returns of an entry. -/
def loaded :
    Option MemoryEntry → Except HttpError (Option μ)
  | none => .ok none
  | some entry => (codec.load entry.value).map some

/- `get` -/
def get
    (sid : Text) :
    Except HttpError (Option μ) × Dictionary :=
  let key := getKey config.keyPrefix sid
  let checked := checkExpiry now dictionary key
  if checked.1 then
    (.ok none, checked.2)
  else
    (loaded codec (checked.2.lookup key), checked.2)

/- `update` -/
def update
    (sid : Text)
    (data : μ)
    (resetExpiration : Bool)
    (expiration : Option Nat) :
    Except HttpError Bool × Dictionary :=
  let key := getKey config.keyPrefix sid
  let checked := checkExpiry now dictionary key
  if checked.1 then
    (.ok false, checked.2)
  else
    match checked.2.lookup key with
    | none => (.ok false, checked.2)
    | some entry =>
        let written :=
          { entry with value := codec.dump data }
        if resetExpiration then
          expire config now checked.2 true key written
            expiration
        else
          (.ok true, AList.insert key written checked.2)

/- The interface's own `modify`. -/
def modify
    (sid : Text)
    (change : μ → Except HttpError μ)
    (resetExpiration : Bool)
    (expiration : Option Nat) :
    Except HttpError (Option μ) × Dictionary :=
  match get codec config now dictionary sid with
  | (.error error, dictionary) => (.error error, dictionary)
  | (.ok none, dictionary) => (.ok none, dictionary)
  | (.ok (some data), dictionary) =>
      match change data with
      | .error error => (.error error, dictionary)
      | .ok data =>
          let updated := update codec config now dictionary
            sid data resetExpiration expiration
          (updated.1.map fun updated =>
            if updated then some data else none, updated.2)

/- No expiry is checked here. -/
def delete (sid : Text) : Bool × Dictionary :=
  let key := getKey config.keyPrefix sid
  ((dictionary.lookup key).isSome, dictionary.erase key)

/- `extend` -/
def extend
    (sid : Text)
    (expiration : Option Nat) :
    Except HttpError Bool × Dictionary :=
  let key := getKey config.keyPrefix sid
  let checked := checkExpiry now dictionary key
  if checked.1 then
    (.ok false, checked.2)
  else
    match checked.2.lookup key with
    | none => (.ok false, checked.2)
    | some entry =>
        expire config now checked.2 true key entry expiration

/- `exists` -/
def exists? (sid : Text) : Bool × Dictionary :=
  let key := getKey config.keyPrefix sid
  let checked := checkExpiry now dictionary key
  if checked.1 then
    (false, checked.2)
  else
    ((checked.2.lookup key).isSome, checked.2)

/- The interface's own `set_if_absent`. -/
def setIfAbsent
    (sid : Text)
    (data : μ)
    (expiration : Option Nat) :
    Except HttpError Bool × Dictionary :=
  let found := exists? config now dictionary sid
  if found.1 then
    (.ok false, found.2)
  else
    let created :=
      create codec config now found.2 sid data expiration
    (created.1.map fun _ => true, created.2)

/- The interface's own `get_and_delete`. -/
def getAndDelete
    (sid : Text) :
    Except HttpError (Option μ) × Dictionary :=
  match get codec config now dictionary sid with
  | (.error error, dictionary) => (.error error, dictionary)
  | (.ok none, dictionary) => (.ok none, dictionary)
  | (.ok (some data), dictionary) =>
      (.ok (some data), (delete config dictionary sid).2)

/-
  The user of an entry, as its JSON has it: a null there
  reads as the text None.
-/
def belongs (userId : Text) (entry : MemoryEntry) : Bool :=
  (codec.payloadUserId entry.value).map payloadStr =
    some userId

/- The keys are visited one by one, each checked first. -/
def userSessionsAmong (userId : Text) :
    List Text → Dictionary → List Text × Dictionary
  | [], dictionary => ([], dictionary)
  | key :: keys, dictionary =>
      let checked := checkExpiry now dictionary key
      let rest := userSessionsAmong userId keys checked.2
      if !checked.1 &&
          (checked.2.lookup key).any
            (belongs codec userId) then
        (key.drop config.keyPrefix.length :: rest.1, rest.2)
      else
        rest

/- `get_user_sessions` -/
def getUserSessions
    (userId : UserRef) : List Text × Dictionary :=
  userSessionsAmong codec config now userId.str
    dictionary.keys dictionary

/- No expiry is checked here. -/
def scanKeys : Option Text → List Text × Dictionary
  | none => (dictionary.keys, dictionary)
  | some pattern =>
      (dictionary.keys.filter (Glob.fnmatchcase · pattern),
        dictionary)

/- The storage, method by method. -/
def perform :
    (method : Method μ) →
    Except HttpError method.Ret × Dictionary
  | .create sid data expiration =>
      create codec config now dictionary sid data expiration
  | .get sid => get codec config now dictionary sid
  | .update sid data resetExpiration expiration =>
      update codec config now dictionary sid data
        resetExpiration expiration
  | .modify sid change resetExpiration expiration =>
      modify codec config now dictionary sid change
        resetExpiration expiration
  | .delete sid _ => answer (delete config dictionary sid)
  | .extend sid expiration =>
      extend config now dictionary sid expiration
  | .exists? sid =>
      answer (exists? config now dictionary sid)
  | .setIfAbsent sid data expiration =>
      setIfAbsent codec config now dictionary sid data
        expiration
  | .getAndDelete sid =>
      getAndDelete codec config now dictionary sid
  | .getUserSessions userId =>
      answer (getUserSessions codec config now dictionary
        userId)
  | .scanKeys pattern => answer (scanKeys dictionary pattern)

end MemoryStorage

end Storage

end CrudAuth
