import Lucent.Access.Store
import Lucent.Access.Ledger
import Lucent.Access.Accounting
import Lucent.Access.Atomicity
import Lucent.Access.Ownership
import Lucent.Access.Durability
import Lucent.Lib.TokenBucket
import Lucent.Access.Quota
import Lucent.Access.RateBound
import Lucent.Access.Eviction
import Lucent.Access.Withdrawal
import Lucent.Lib.LinearCode
import Lucent.VerifiedSource.Dispatch
import Lucent.Lib.Cbor
import Lucent.VerifiedSource.MetadataGrammar
import Lucent.Lib.Json
import Lucent.Preflight.Abi
import Lucent.Preflight.Descriptor
import Lucent.Preflight.Audit
import Lucent.Preflight.Comprehend
import Lucent.Preflight.Danger
import Lucent.Preflight.Binding
import Lucent.Preflight.Transaction
import Lucent.Preflight.Clearance
import Lucent.Preflight.Approval
import Lucent.Preflight.Sentence
import Lucent.Preflight.Recipient
import Lucent.Preflight.Fingerprint
import Lucent.Preflight.Headline
import Lucent.Preflight.ArbitraryCall
import Lucent.Preflight.CheckDescriptor
import Lucent.Preflight.Malformed
import Lucent.Preflight.LeafPaths
import Lucent.Preflight.Lossless
import Lucent.Attest.Semverify
import Lucent.Attest.Attestation
import Lucent.Attest.Faithful
import Lucent.Lib.Substitution
import Lucent.Attest.Preview
import Lucent.Attest.Review
import Lucent.VerifiedSource.Client
import Lucent.VerifiedSource.Resolve
import Lucent.VerifiedSource.Provenance
import Lucent.Lib.Budget
import Lucent.VerifiedSource.Limits
import Lucent.Payments.Gateway
import Lucent.Payments.Authorization
import Lucent.Payments.Transfer
import Lucent.Hosted.SourceCache
import Lucent.Hosted.CacheInvariant
import Lucent.Hosted.SingleFlight
import Lucent.Hosted.Response
import Lucent.Hosted.Handler
import Lucent.Hosted.StepCases
import Lucent.Hosted.Ledgers
import Lucent.Hosted.Settlement
import Lucent.Hosted.Holdings
import Lucent.Hosted.Outcome
import Lucent.Hosted.Retention
import Lucent.Hosted.Answer
import Lucent.Hosted.Charge
import Lucent.Hosted.Failure
import Lucent.Hosted.Terminal
import Lucent.Preflight.FormatKey
import Lucent.Preflight.FormatAudit
import Lucent.Lib.LineReader
import Lucent.Mcp.Redaction
import Lucent.Mcp.Dispatch
import Lucent.Mcp.Server
import Lucent.Access.Exactness
import Lucent.Hosted.Tenants
import Lucent.Hosted.Deployment
import Lucent.Hosted.BodyLimit
import Lucent.Lib.Exactly
import Lucent.VerifiedSource.World
import Lucent.VerifiedSource.Completeness
import Lucent.Lib.Walk
import Lucent.Lib.JsonTree
import Lucent.VerifiedSource.Acceptance
import Lucent.Payments.Facilitator
import Lucent.Attest.Watch
import Lucent.Attest.Surface
import Lucent.Hosted.Origin
import Lucent.Hosted.Sourced
