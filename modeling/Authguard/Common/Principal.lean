import Mathlib

/-!
Principals (`common/src/model/principal.rs`). The display name and the
authorization state are carried by the API only; no decision reads them.
-/

namespace Authguard

inductive PrincipalKind
  | user
  | workload
  | group
  deriving DecidableEq

inductive PrincipalStatus
  | active
  | disabled
  deriving DecidableEq

structure IamPrincipalInfo where
  id : String
  kind : PrincipalKind
  status : PrincipalStatus
  deriving DecidableEq

end Authguard
