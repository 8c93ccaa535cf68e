import CrudAuth.Registration.Table

/-
  `POST /register`: the body is filtered, a taken value is
  found before the insert or by it, and both answer alike.

  Main declarations:
    * `AuthSurface`
    * `RegisterRequest`
    * `AuthSurface.onExistingAmong`
    * `AuthSurface.register`
-/

namespace CrudAuth

namespace Registration

open Concurrency

/-
  What the routes read of the facade: `emailOn` is whether a
  delivery channel is configured.
-/
structure AuthSurface where
  repo : UserRepository
  newUserDefaults : Data
  emailOn : Bool

/-
  A request: the dumped body without its password, what the
  policy and the rate limiter said, the new hash, what the
  `new_user_fields` callback gave, and the model's defaults.
  `fails` is whether the callback or the insert raised what
  is no `IntegrityError`, so that the route handles nothing.
-/
structure RegisterRequest where
  body : Data
  passwordAccepted : Bool
  withinRate : Bool
  hashedPassword : String
  provided : Data
  fill : String → Value
  fails : Bool

/- `RegisterIn` without the password. -/
def defaultBody (email username : String) : Data :=
  [("email", .text email), ("username", .text username)]

/- The uniform `202`, or the row created. -/
inductive RegisterResponse where
  | enrolled
  | created (id : Nat) (email username : Value)
deriving DecidableEq

/- `str.capitalize` of a field name. -/
def capitalize (field : String) : String :=
  match field.toList with
  | [] => ""
  | first :: rest =>
      String.ofList (first.toUpper :: rest.map Char.toLower)

/- `{f: data.pop(f) for f in fields}`, and what is left. -/
def popFields :
    List String → Data → Option (Data × Data)
  | [], data => some ([], data)
  | field :: rest, data =>
      match data.get field with
      | none => none
      | some value =>
          let left : Data :=
            data.restrict fun key => key ≠ field
          (popFields rest left).map fun popped =>
            ((field, value) :: popped.1, popped.2)

namespace AuthSurface

variable (auth : AuthSurface)

/- The fields whose collision only their owner learns of. -/
def isPrivate (field : String) : Bool :=
  field = "email" || auth.repo.recovery = some field

/- `too_long` -/
def tooLong (values : Data) : List (String × Nat) :=
  values.filterMap fun item =>
    (auth.repo.exceedsLength item.1 item.2).map fun limit =>
      (item.1, limit)

/- `unique_values` -/
def uniqueValues (values : Data) : Data :=
  values.filter fun item =>
    item.2 ≠ .null && auth.repo.isUniqueColumn item.1

/- `_on_existing`: the first value still taken decides. -/
def onExistingAmong :
    Data → TableFlow RegisterResponse
  | [] =>
      .raise (.duplicateValue "Account already exists")
  | (field, value) :: rest => do
      match ← auth.repo.getByField field value with
      | none => onExistingAmong rest
      | some _ =>
          if auth.isPrivate field then
            if auth.emailOn then
              return .enrolled
            else
              .raise (.duplicateValue
                (capitalize field ++ " already registered"))
          else if
              auth.emailOn &&
                field ∉ auth.repo.loginFields then
            return .enrolled
          else
            .raise (.duplicateValue
              (capitalize field ++ " already taken"))

/- The check before the insert. -/
def anyTaken : Data → TableFlow Bool
  | [] => return false
  | (field, value) :: rest => do
      match ← auth.repo.getByField field value with
      | some _ => return true
      | none => anyTaken rest

/- The insert and the answer to the new user. -/
def insertUser
    (request : RegisterRequest)
    (loginValues data : Data) :
    TableFlow RegisterResponse := do
  let values : Data := loginValues.update data
  let own : Data :=
    (loginValues.update
      [("hashed_password",
        .text request.hashedPassword)]).update data
  let stored ← auth.repo.create?
    (auth.repo.createData own auth.newUserDefaults
      request.provided) request.fill
  match stored with
  | none => auth.onExistingAmong (auth.uniqueValues values)
  | some row =>
      if auth.emailOn && auth.repo.recovery.isSome then
        return .enrolled
      else
        return .created row.id
          (auth.repo.get row "email")
          (auth.repo.get row "username")

/- The insert, unless something else fails before it. -/
def enroll
    (request : RegisterRequest)
    (loginValues data : Data) :
    TableFlow RegisterResponse :=
  if request.fails then
    .raise .unhandled
  else
    auth.insertUser request loginValues data

/- The request once its body is accepted. -/
def registerValues
    (request : RegisterRequest)
    (loginValues data : Data) :
    TableFlow RegisterResponse := do
  let values : Data := loginValues.update data
  if auth.tooLong values ≠ [] then
    .raise (.valueTooLong (auth.tooLong values))
  else if !request.withinRate then
    .raise .rateLimited
  else do
    let taken ← auth.anyTaken (auth.uniqueValues values)
    if taken then
      auth.onExistingAmong (auth.uniqueValues values)
    else
      auth.enroll request loginValues data

/- `register` -/
def register
    (request : RegisterRequest) :
    TableFlow RegisterResponse :=
  if !request.passwordAccepted then
    .raise .passwordRejected
  else
    match popFields auth.repo.loginFields
        (auth.repo.filterRegistrationData request.body) with
    | none => .raise .keyError
    | some (loginValues, data) =>
        auth.registerValues request loginValues data

end AuthSurface

end Registration

end CrudAuth
