import CrudAuth.Account.Router
import CrudAuth.OAuth.Service
import CrudAuth.Sudo

/-
  The handler of every request: it arrives, is served, and
  is answered.

  Main declarations:
    * `serve`
    * `handle`
-/

namespace CrudAuth

open Concurrency

namespace Runtime

variable (runtime : Runtime)

/- Routes that only exist with MFA configured. -/
def withMfa
    (serve : MfaConfig → Flow Response) : Flow Response :=
  match runtime.mfa with
  | some config => serve config
  | none => .raise { status := 404, detail := "Not Found" }

/- An application's own routes that elevate a session. -/
def withSudo
    (serve : SudoConfig → Flow Response) : Flow Response :=
  match runtime.sudoConfig with
  | some config => serve config
  | none => .raise { status := 404, detail := "Not Found" }

/- Routes that only exist with recovery configured. -/
def withEmails
    (serve : EmailFlows → Flow Response) : Flow Response :=
  match runtime.emails with
  | some flows => serve flows
  | none => .raise { status := 404, detail := "Not Found" }

/- The write of one identifying field. -/
def fieldPatch
    (field : Field)
    (value : Option String) : Patch :=
  match field with
  | .email => { email := some value }
  | .username => { username := some value }
  | .column name => { column := some (name, value) }

/- An application's own update of an account. -/
def changeField
    (id : UserId)
    (field : Field)
    (value : Option String) : Flow Response := do
  match ← getById id with
  | none => .raise { status := 404, detail := "Not Found" }
  | some user =>
      match ← runtime.update? user
          (fieldPatch field value) with
      | some _ => return .fieldChanged
      | none => .raise .unhandled

/- The body of each route. -/
def serve : Request → Flow Response
  | .login transport ip identifier password options
      presented =>
      runtime.passwordLogin transport ip identifier
        password options presented
  | .mfaVerify token code presented =>
      runtime.withMfa fun config =>
        runtime.completeChallenge config token code
          presented
  | .refresh token => do
      return .refreshed (← runtime.refreshAccess token)
  | .me credential => do
      let principal ← runtime.currentUser credential
      return .principal principal.user.id
  | .setPassword credential newPassword => do
      let principal ← runtime.currentUser credential
      runtime.setPassword principal newPassword
      return .passwordSet
  | .changePassword credential currentPassword
      newPassword => do
      let principal ← runtime.currentUser credential
      runtime.changePassword principal currentPassword
        newPassword
      return .passwordChanged
  | .totpSetup credential password =>
      runtime.withMfa fun _ => do
        let principal ← runtime.currentUser credential
        return .totpSetup
          (← runtime.totpSetup principal password)
  | .totpConfirm credential code =>
      runtime.withMfa fun config => do
        let principal ← runtime.currentUser credential
        return .recoveryCodes
          (← runtime.confirmSetup config principal.user
            code)
  | .totpDisable credential code =>
      runtime.withMfa fun config => do
        let principal ← runtime.currentUser credential
        runtime.totpDisable config principal code
        return .totpDisabled
  | .regenerate credential code =>
      runtime.withMfa fun config => do
        let principal ← runtime.currentUser credential
        return .recoveryCodes
          (← runtime.regenerate config principal code)
  | .elevate credential proof =>
      runtime.withSudo fun config => do
        let principal ← runtime.currentUser credential
        return .elevated
          (← runtime.elevate config principal proof)
  | .requestReset value =>
      runtime.withEmails fun flows => do
        runtime.requestPasswordReset flows value
        return .accepted
  | .resetPassword token newPassword =>
      runtime.withEmails fun flows => do
        runtime.resetPassword flows token newPassword
        return .passwordReset
  | .requestVerification value =>
      runtime.withEmails fun flows => do
        runtime.requestRecoveryVerification flows value
        return .accepted
  | .confirmVerification token =>
      runtime.withEmails fun flows => do
        runtime.confirmRecoveryVerification flows token
        return .verified
  | .requestEmailChange credential newEmail password =>
      runtime.withEmails fun flows => do
        let principal ← runtime.currentUser credential
        runtime.requestEmailChange flows principal.user
          newEmail password
        return .accepted
  | .confirmEmailChange token =>
      runtime.withEmails fun flows => do
        runtime.confirmEmailChange flows token
        return .emailChanged
  | .oauthCallback info presented =>
      runtime.oauthCallback info presented
  | .changeField id field value =>
      runtime.changeField id field value

/- A request from its arrival to its response. -/
def handle (request : Request) : Flow Unit := do
  call (.arrive request)
  match ← (runtime.serve request).attempt with
  | .ok response => call (.respond response)
  | .error error => call (.respond (.refused error))

/- The requests an application is handling. -/
def pool {ι : Type}
    (requests : ι → Request) :
    ι → Flow Unit :=
  fun thread => runtime.handle (requests thread)

end Runtime

end CrudAuth
