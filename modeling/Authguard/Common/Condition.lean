import Mathlib
import Authguard.Library.Text
import Authguard.Library.Result
import Authguard.Library.SortedMap

/-!
Conditions of a role binding and the request facts they are evaluated against
(`common/src/utils/context.rs`, module `condition`).
-/

namespace Authguard
open Text Result

inductive IpAddr
  | v4 (address : BitVec 32)
  | v6 (address : BitVec 128)
  deriving DecidableEq

/-- The `ipnet` crate: networks, their parser with its error text, and containment. -/
class Ipnet where
  IpNet : Type
  parse : String → Except String IpNet
  contains : IpNet → IpAddr → Bool

abbrev StringMap := SortedMap String String

structure SourceIpConditionSpec where
  inCidr : List String := []
  notInCidr : List String := []
  deriving DecidableEq

structure RequestConditionSpec where
  methods : List String := []
  secureTransport : Option Bool := none
  deriving DecidableEq

structure SubjectConditionSpec where
  mfa : Option Bool := none
  claims : StringMap := SortedMap.empty
  deriving DecidableEq

structure AuthorizationConditionSpec where
  sourceIp : Option SourceIpConditionSpec := none
  request : RequestConditionSpec := {}
  subject : SubjectConditionSpec := {}
  deriving DecidableEq

structure EvaluationContext where
  sourceIp : Option IpAddr := none
  requestMethod : Option String := none
  secureTransport : Option Bool := none
  claims : StringMap := SortedMap.empty
  deriving DecidableEq

section
variable [Ipnet]

structure SourceIpConditions where
  inCidr : List Ipnet.IpNet
  notInCidr : List Ipnet.IpNet

structure AuthorizationConditions where
  sourceIp : Option SourceIpConditions
  request : RequestConditionSpec
  subject : SubjectConditionSpec

def parseCidrs (values : List String) (field : String) : Except String (List Ipnet.IpNet) :=
  collect (fun value => (Ipnet.parse value).mapError fun error =>
    field ++ " contains invalid CIDR `" ++ value ++ "`: " ++ error) values

def SourceIpConditionSpec.compile (spec : SourceIpConditionSpec) :
    Except String SourceIpConditions := do
  let inCidr ← parseCidrs spec.inCidr "sourceIp.inCidr"
  let notInCidr ← parseCidrs spec.notInCidr "sourceIp.notInCidr"
  .ok { inCidr, notInCidr }

def compileSourceIp : Option SourceIpConditionSpec →
    Except String (Option SourceIpConditions)
  | none => .ok none
  | some spec => spec.compile.map some

def AuthorizationConditionSpec.compile (spec : AuthorizationConditionSpec) :
    Except String AuthorizationConditions := do
  let sourceIp ← compileSourceIp spec.sourceIp
  .ok { sourceIp, request := spec.request, subject := spec.subject }

def SourceIpConditions.matches (conditions : SourceIpConditions) :
    Option IpAddr → Bool
  | none => false
  | some sourceIp =>
      (conditions.inCidr.isEmpty ||
        conditions.inCidr.any fun cidr => Ipnet.contains cidr sourceIp) &&
      !conditions.notInCidr.any fun cidr => Ipnet.contains cidr sourceIp

def RequestConditionSpec.matches (spec : RequestConditionSpec) (context : EvaluationContext) :
    Bool :=
  let methodMatches := spec.methods.isEmpty ||
    context.requestMethod.any fun method =>
      spec.methods.any fun allowed => eqIgnoreAsciiCase allowed method
  let transportMatches := spec.secureTransport.all fun expected =>
    context.secureTransport == some expected
  methodMatches && transportMatches

/-- `str::parse::<bool>().ok()`. -/
def parseBool : String → Option Bool
  | "true" => some true
  | "false" => some false
  | _ => none

def SubjectConditionSpec.matches (spec : SubjectConditionSpec) (context : EvaluationContext) :
    Bool :=
  let mfaMatches := spec.mfa.all fun expected =>
    (context.claims.get "mfa").bind parseBool == some expected
  mfaMatches && spec.claims.entries.all fun claim => context.claims.get claim.1 == some claim.2

def AuthorizationConditions.matches (conditions : AuthorizationConditions)
    (context : EvaluationContext) : Bool :=
  conditions.sourceIp.all (·.matches context.sourceIp) &&
    conditions.request.matches context && conditions.subject.matches context

end

end Authguard
