import Authguard.Library.SqlMeaning
import Authguard.Common.SqlScope
import Authguard.Metatheory.SqlPushdown
import Authguard.Metatheory.SqlPlaceholders
import Authguard.Metatheory.SqlExactness
import Authguard.Metatheory.SqlRemainder
import Authguard.Library.SortedMap
import Authguard.Common.Condition
import Authguard.Common.Role
import Authguard.Common.HttpMatcher
import Authguard.Authz.CompiledPolicy
import Authguard.Library.DenyOverrides
import Authguard.Metatheory.PolicyCompile
import Authguard.Metatheory.PolicyDecision
import Authguard.Metatheory.PolicyScope
import Authguard.Metatheory.MissingAttributes
import Authguard.Library.Json
import Authguard.Metatheory.RouteResolution
import Authguard.Storage.Codec
import Authguard.Storage.PolicyStore
import Authguard.Metatheory.PolicyStore
import Authguard.Authz.PolicyHandler
import Authguard.Library.Runs
import Authguard.Authz.PolicyCluster
import Authguard.Metatheory.ClusterLocks
import Authguard.Metatheory.ClusterStore
import Authguard.Metatheory.ClusterHistory
import Authguard.Metatheory.PolicyRestart
import Authguard.Common.IpAddress
import Authguard.Common.Identity
import Authguard.Authz.RequestPrincipal
import Authguard.Common.AccessContext
import Authguard.Authz.Check
import Authguard.Authz.CheckMachine
import Authguard.Metatheory.CheckSafety
import Authguard.Metatheory.CheckDelivery
import Authguard.Library.Base64Url
import Authguard.Library.HttpHeader
import Authguard.Metatheory.WireFormat
import Authguard.Metatheory.UpstreamHeaders
import Authguard.Authn.TokenIssuer
import Authguard.Metatheory.TokenReading
import Authguard.Metatheory.TokenResigning
import Authguard.Metatheory.TokenIssuing
import Authguard.Adapter.AccessFilter
import Authguard.Adapter.ScopeCompilers
import Authguard.Metatheory.AdapterAgreement
import Authguard.Metatheory.ScopeDelivery
import Authguard.Library.Program
import Authguard.Library.Table
import Authguard.Storage.PrincipalStore
import Authguard.Authz.ScimProvisioning
import Authguard.Metatheory.ScimDeletion
import Authguard.Authn.AccountLinking
import Authguard.Metatheory.IdentityBinding
import Authguard.Authn.AuthenticationPipeline
import Authguard.Authn.StandaloneLogin
import Authguard.Metatheory.TotpReplay
import Authguard.Metatheory.PolicyConstraints
import Authguard.Authz.AuthorizeRequest
import Authguard.Metatheory.AuthorizeAgreement
import Authguard.Metatheory.SecondFactor
import Authguard.Metatheory.PatternReading
import Authguard.Authn.ChallengeStore
import Authguard.Metatheory.ChallengeUse
import Authguard.Library.History
import Authguard.Metatheory.StaleAuthorization
import Authguard.Metatheory.ScimRoundTrip
import Authguard.Metatheory.ScimWrites
import Authguard.Metatheory.ScimReads
import Authguard.Common.CustomDirectory
import Authguard.Authz.LdapDirectory
import Authguard.Authz.KeycloakDirectory
import Authguard.Authz.PrincipalSearch
import Authguard.Library.Pagination
import Authguard.Metatheory.SearchCursors
import Authguard.Metatheory.RefusedLogins
import Authguard.Metatheory.RouteMatching
import Authguard.Metatheory.TemplateBoundaries
import Authguard.Metatheory.HostSpelling
import Authguard.Authn.TokenRequest
import Authguard.Metatheory.TemplateRendering
import Authguard.Common.MemoryCache
import Authguard.Library.Recency
import Authguard.Metatheory.CacheRecency
import Authguard.Metatheory.TokenRequests
import Authguard.Authn.Registration
import Authguard.Metatheory.FailedLinking
import Authguard.Library.WebUrl
import Authguard.Authn.ApplicationRoute
import Authguard.Metatheory.ReturnTargets
import Authguard.Authz.PrincipalListing
import Authguard.Library.Keyset
import Authguard.Metatheory.PrincipalPages
import Authguard.Metatheory.ScimFilters
import Authguard.Metatheory.ScimPatching
import Authguard.Metatheory.ScimPages
import Authguard.Library.LdapFilter
import Authguard.Metatheory.DirectoryEntries
import Authguard.Authz.DeliverySettings
import Authguard.Metatheory.LdapFilters
import Authguard.Metatheory.ScopeLifetimes
import Authguard.Authn.WalletAccount
import Authguard.Metatheory.WalletSubjects
import Authguard.Library.JsonText
import Authguard.Metatheory.BodyTemplates
import Authguard.Library.Simulation
import Authguard.Common.EnvironmentOverrides
import Authguard.Library.SlotTree
import Authguard.Metatheory.ForeignIdentities
import Authguard.Metatheory.OverrideOrder
import Authguard.Authn.OauthFlow
import Authguard.Metatheory.OauthBinding
import Authguard.Authz.ConfiguredProvider
import Authguard.Metatheory.GroupSubjects
import Authguard.Metatheory.KindsApart
import Authguard.Library.SingleUse
import Authguard.Authn.CeremonyStore
import Authguard.Authn.WebauthnCeremony
import Authguard.Metatheory.PipelineBinding
import Authguard.Metatheory.PasskeyStore
import Authguard.Metatheory.PasskeyCalls
import Authguard.Metatheory.PasskeyCeremonies
import Authguard.Authn.WalletFlow
import Authguard.Metatheory.WalletCeremonies
import Authguard.Authn.SessionToken
import Authguard.Metatheory.Sessions
import Authguard.Metatheory.PolicyChanges
import Authguard.Authz.PolicyReading
import Authguard.Metatheory.PolicyRegistry
import Authguard.Adapter.CurrentScope
import Authguard.Metatheory.PushdownDecisions
import Authguard.Metatheory.DeliveredRows
