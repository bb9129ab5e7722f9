import MidnightReferendum.Referendum.Conservation
import MidnightReferendum.ReferendumV2.Deadline
import MidnightReferendum.ReferendumV2.Enrollment
import MidnightReferendum.ReferendumV2.OneVote
import MidnightReferendum.ReferendumV2.Reveals
import MidnightReferendum.Relayer.Jobs
import MidnightReferendum.Relayer.Methods
import MidnightReferendum.Systems.KeyedList
import MidnightReferendum.Systems.Tasks
import MidnightReferendum.Relayer.Wallet
import MidnightReferendum.Relayer.Lifecycle
import MidnightReferendum.Relayer.Bytes
import MidnightReferendum.Relayer.Submission
import MidnightReferendum.Relayer.Lease
import MidnightReferendum.Relayer.Retry
import MidnightReferendum.Relayer.Capabilities
import MidnightReferendum.Relayer.Restart
import MidnightReferendum.Relayer.Duplicates
import MidnightReferendum.Js.Library
import MidnightReferendum.Relayer.Indexer
import MidnightReferendum.Relayer.Receipts
import MidnightReferendum.Relayer.Postgres
import MidnightReferendum.Systems.Simulation
import MidnightReferendum.Relayer.Replacement
import MidnightReferendum.Js.Object
import MidnightReferendum.Relayer.FileStore
import MidnightReferendum.Relayer.Persistence
import MidnightReferendum.Systems.LockFile
import MidnightReferendum.Systems.LockSafety
import MidnightReferendum.Relayer.StoreLock
import MidnightReferendum.Systems.LockRecords
import MidnightReferendum.Cico.EvidenceClaims
import MidnightReferendum.Cico.RootAdmission
import MidnightReferendum.Cico.RootAttestation
import MidnightReferendum.Cico.RootDelivery
import MidnightReferendum.Cico.Issuance
import MidnightReferendum.Cico.PrivateStates
import MidnightReferendum.Cico.Issuer
import MidnightReferendum.Cico.IssuerInvariant
import MidnightReferendum.Cico.OneLeaf
import MidnightReferendum.Cico.Enrollment
import MidnightReferendum.Js.Dates
import MidnightReferendum.Cico.EnrollmentRetry
import MidnightReferendum.Cico.RootWait
import MidnightReferendum.Cico.RootBatches
import MidnightReferendum.Passport.MidnightV2
import MidnightReferendum.Systems.PromiseChain
import MidnightReferendum.Cico.EpochClosing
import MidnightReferendum.Passport.VotingClient
import MidnightReferendum.Passport.DeadJobs
import MidnightReferendum.Passport.WalletlessVote
import MidnightReferendum.Passport.StoredOpening
import MidnightReferendum.Passport.CivicActions
import MidnightReferendum.Passport.VoteLock
import MidnightReferendum.Js.Doubles
import MidnightReferendum.Js.Numbers
import MidnightReferendum.Js.Quotation
import MidnightReferendum.Js.JsonText
import MidnightReferendum.Js.Base64
import MidnightReferendum.Passport.StateCodec
import MidnightReferendum.Js.Utf8
import MidnightReferendum.Relayer.Tokens
import MidnightReferendum.Relayer.Spellings
import MidnightReferendum.Relayer.RequestHash
import MidnightReferendum.Cico.ActionCapabilities
import MidnightReferendum.Cico.CapabilityAgreement
import MidnightReferendum.Passport.KeptStates
import MidnightReferendum.Passport.ReceiptStore
import MidnightReferendum.Passport.SavedReceipts
import MidnightReferendum.Passport.EndedSessions
import MidnightReferendum.Passport.Approvals
import MidnightReferendum.Relayer.ForbiddenKeys
import MidnightReferendum.Documents.Mrz
import MidnightReferendum.Documents.CheckDigits
import MidnightReferendum.Documents.Recognition
import MidnightReferendum.Documents.Adulthood
import MidnightReferendum.Documents.Dni
import MidnightReferendum.Documents.Centuries
import MidnightReferendum.Passport.Catalog
import MidnightReferendum.Passport.CatalogPolicy
import MidnightReferendum.Js.PrettyText
import MidnightReferendum.Js.Values
import MidnightReferendum.Js.Readers
import MidnightReferendum.Deployment.Manifest
import MidnightReferendum.Deployment.ManifestChecks
import MidnightReferendum.Deployment.CompleteManifest
import MidnightReferendum.Deployment.RoundTrip
import MidnightReferendum.Deployment.Provenance
import MidnightReferendum.Deployment.RootRecovery
import MidnightReferendum.Deployment.Environment
import MidnightReferendum.Js.WholeNumbers
import MidnightReferendum.Deployment.Accepted
import MidnightReferendum.Js.Trimming
import MidnightReferendum.Deployment.Configuration
import MidnightReferendum.Deployment.Configured
import MidnightReferendum.ReferendumV2.RootAudit
import MidnightReferendum.Cico.ProofDecoding
import MidnightReferendum.Cico.RarimoGateway
import MidnightReferendum.Cico.GatewayBinding
