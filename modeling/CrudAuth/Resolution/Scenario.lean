import CrudAuth.Resolution.Moment
import CrudAuth.Scenario

/-
  A request of the small application with a session cookie,
  resolved by middleware and by the gate of its route.

  Main declarations:
    * `Scenario.world`
    * `Scenario.middleware`
    * `Scenario.gate`
-/

namespace CrudAuth

namespace Resolution

namespace Scenario

/- Sessions by cookie, with CSRF tokens. -/
def transport : SessionTransport where
  config := CrudAuth.Scenario.sessions
  csrfEnabled := true
  cookieName := "session_id"
  storagePrefix := "session:"
  csrfStoragePrefix := "csrf:"
  sessionKey := id
  csrfKey := id

/- A POST with a session cookie and its CSRF token. -/
def request : HttpRequest where
  method := "POST"
  cookies := fun name =>
    if name = "session_id" then some "s1" else none
  csrfHeader := some "c1"
  authorization := none

/- A member who is a superuser. -/
def account : Account :=
  { CrudAuth.Scenario.member with isSuperuser := true }

/- One account, signed in under session `s1`. -/
def world : World where
  users := [account]
  sessions := fun key =>
    if key = "session:s1" then
      some
        { CrudAuth.Scenario.session account.toUser with
          csrfTokenId := some "c1" }
    else
      none
  csrf := fun key =>
    if key = "csrf:c1" then some ⟨"c1", "s1"⟩ else none
  clock := 1000

/- Middleware resolves first, without CSRF or activity. -/
def middleware : Call :=
  .resolveOutsideDependencies 0 [.session transport] false

/- The route's own gate enforces both. -/
def gate : Call :=
  .resolve 1 [.session transport] true true

end Scenario

end Resolution

end CrudAuth
