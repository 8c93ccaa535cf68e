import CrudAuth.Routes
import CrudAuth.Storage.Backends

/-
  Redemptions of signed tokens over the store of used ones.

  The routes that redeem a token run over the accounts, as
  everywhere; `_consume` is a `set_if_absent` on the token
  store, and that is a program of the store's backend.  The
  key of a marker is the hash of the token and stands for
  the token.  What else the application does to accounts
  is the environment's.

  Main declarations:
    * `UsedToken`
    * `throughStore`
    * `accounts`
    * `Redemption`
    * `Redemption.redeem`
-/

namespace CrudAuth

namespace TokenStore

open Concurrency
open Storage

------------------------------------------------------------
-- The Token Store
------------------------------------------------------------

/- `_UsedToken`: the marker says nothing. -/
structure UsedToken where
deriving DecidableEq, Repr

instance : Owned UsedToken where
  userId := fun _ => none

/- What a redemption is written against. -/
abbrev tokenClient : Interface :=
  client (calls SignedToken UsedToken) interface

/- `_consume` goes to the store, the rest to the accounts. -/
def throughStore :
    (op : Op) → Program tokenClient HttpError op.Ret
  | .consumeToken token ttl =>
      Program.call (I := tokenClient)
        (.call (.setIfAbsent token {} (some ttl)))
  | op => Program.call (I := tokenClient) (.app op)

/-
  The accounts, on a clock of milliseconds.  A JWT counts
  whole seconds.  Other requests change the rows at will.
-/
abbrev accounts : Server interface World where
  Upkeep := List User
  exec := fun op now world =>
    World.exec op { world with clock := now / 1000 }
  upkeep := fun users _ world => { world with users }

------------------------------------------------------------
-- Redemptions
------------------------------------------------------------

/- The requests that redeem a signed token. -/
inductive Redemption where
  | verification (token : SignedToken)
  | reset (token : SignedToken) (newPassword : String)
  | emailChange (token : SignedToken)

namespace Redemption

/- The request that redeems a token. -/
def request : Redemption → Request
  | .verification token => .confirmVerification token
  | .reset token newPassword =>
      .resetPassword token newPassword
  | .emailChange token => .confirmEmailChange token

/- The token that is redeemed. -/
def token : Redemption → SignedToken
  | .verification token => token
  | .reset token _ => token
  | .emailChange token => token

/- What it was minted for. -/
def purpose : Redemption → Purpose
  | .verification _ => .verify
  | .reset _ _ => .reset
  | .emailChange _ => .change

end Redemption

end TokenStore

/- The lifetime of the tokens of a purpose, in seconds. -/
def EmailFlows.ttl
    (flows : EmailFlows) : Purpose → Nat
  | .verify => flows.verifyTtl
  | .reset => flows.resetTtl
  | .change => flows.changeTtl

namespace TokenStore

open Concurrency
open Storage

variable (choice : BackendChoice)

/- The storage of the markers. -/
abbrev storage :
    BackendChoice → Backend SignedToken UsedToken :=
  getSessionStorage

/- What a redemption performs over a backend. -/
abbrev tokenLayer : Interface :=
  layered (calls SignedToken UsedToken)
    (storage choice).commands interface

/- That storage, beside the rest of the system. -/
abbrev State : Type :=
  Layered (storage choice).State World

/- The token store and the accounts. -/
abbrev machine :
    Machine (tokenLayer choice) (State choice) :=
  Layered.machine (calls SignedToken UsedToken)
    (storage choice).server accounts

/- The handler of a redemption, over the backend. -/
def Redemption.redeem
    (runtime : Runtime)
    (redemption : Redemption) :
    Program (tokenLayer choice) HttpError Unit :=
  Layered.lower (storage choice).implement
    ((runtime.handle redemption.request).translate
      throughStore)

end TokenStore

end CrudAuth
