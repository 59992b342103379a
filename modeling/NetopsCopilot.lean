import NetopsCopilot.Lib.Except
import NetopsCopilot.Lib.Prog
import NetopsCopilot.Lib.ReadCommitted
import NetopsCopilot.Python.Text
import NetopsCopilot.Python.Lines
import NetopsCopilot.Python.Re
import NetopsCopilot.Python.Convert
import NetopsCopilot.Parsers.CiscoIos
import NetopsCopilot.Validators.CiscoIosIpsec
import NetopsCopilot.Validators.RedactedDerivative
import NetopsCopilot.Validators.Phase2Lifetime
import NetopsCopilot.Ingestion.Redaction
import NetopsCopilot.Ingestion.RedactionShape
import NetopsCopilot.Ingestion.RedactionLines
import NetopsCopilot.Domain.Cases
import NetopsCopilot.Python.Json
import NetopsCopilot.Postgres.Schema
import NetopsCopilot.Application.Cases
import NetopsCopilot.Lib.Attempt
import NetopsCopilot.Lib.Partial
import NetopsCopilot.Lib.Rows
import NetopsCopilot.Lib.Regex
import NetopsCopilot.Lib.Utf8
import NetopsCopilot.Lib.Solo
import NetopsCopilot.Postgres.Triggers
import NetopsCopilot.Application.CaseStore
import NetopsCopilot.Application.CaseSpine
import NetopsCopilot.Application.CaseRepository
import NetopsCopilot.Application.CaseCommands
import NetopsCopilot.Application.CaseSystem
import NetopsCopilot.Postgres.CaseWriters
import NetopsCopilot.Application.CaseAgreement
import NetopsCopilot.Domain.CaseHistory
import NetopsCopilot.Api.ArtifactUploads
import NetopsCopilot.Api.Cases
import NetopsCopilot.Api.CaseSystem
import NetopsCopilot.Lib.PrefixCode
import NetopsCopilot.Python.JsonText
import NetopsCopilot.Python.Codecs
import NetopsCopilot.JavaScript.Text
import NetopsCopilot.Python.Hashlib
import NetopsCopilot.Application.CaseFingerprint
import NetopsCopilot.Application.CaseIdempotency
import NetopsCopilot.Postgres.ProcessingLedger
import NetopsCopilot.Application.ArtifactProcessing
import NetopsCopilot.Application.ArtifactStore
import NetopsCopilot.Application.ArtifactIntents
import NetopsCopilot.Application.ArtifactCompletion
import NetopsCopilot.Application.ArtifactEvidence
import NetopsCopilot.Application.ArtifactEvidenceRuns
import NetopsCopilot.Application.ArtifactReplay
import NetopsCopilot.Worker.ArtifactProcessing
import NetopsCopilot.Application.Outbox
import NetopsCopilot.Application.OutboxRuns
import NetopsCopilot.Application.ConsumerInbox
import NetopsCopilot.Worker.OutboxPublisher
import NetopsCopilot.Application.EventFeed
import NetopsCopilot.Web.CaseEventStream
import NetopsCopilot.Lib.Base64
import NetopsCopilot.Python.JsonLoads
import NetopsCopilot.JavaScript.Url
import NetopsCopilot.Api.CaseListCursor
import NetopsCopilot.Web.CaseQueue
import NetopsCopilot.Worker.PublishCycle
import NetopsCopilot.Application.OutboxLeases
import NetopsCopilot.Application.ArtifactStatus
import NetopsCopilot.Parsers.BlockSemantics
import NetopsCopilot.Parsers.BlockInsertion
import NetopsCopilot.Validators.Associations
import NetopsCopilot.Parsers.LifetimeTokens
import NetopsCopilot.Ingestion.PrivateKeyBlocks
import NetopsCopilot.Ingestion.RedactionReport
import NetopsCopilot.Lib.RegexRun
import NetopsCopilot.Ingestion.TokenRewriting
import NetopsCopilot.Ingestion.PatternRuns
import NetopsCopilot.Ingestion.DirectiveForms
import NetopsCopilot.Ingestion.SecretMasking
import NetopsCopilot.Ingestion.SecretLeaks
import NetopsCopilot.Worker.ClamAv
import NetopsCopilot.Worker.CompletionEvents
import NetopsCopilot.Worker.ConfigRedaction
import NetopsCopilot.Lib.Confined
import NetopsCopilot.Postgres.Scopes
import NetopsCopilot.Application.ScopedStatements
import NetopsCopilot.Application.ScopedPrograms
import NetopsCopilot.Postgres.Like
import NetopsCopilot.Application.CaseList
import NetopsCopilot.Application.CaseSearch
import NetopsCopilot.Application.ScopedCalls
import NetopsCopilot.Application.Tenancy
import NetopsCopilot.Api.Errors
import NetopsCopilot.Api.Events
import NetopsCopilot.Application.ConfigPreview
import NetopsCopilot.Api.ConfigPreview
import NetopsCopilot.Api.CaseReads
import NetopsCopilot.Api.CaseRequests
import NetopsCopilot.Api.AssetScope
import NetopsCopilot.Api.HiddenCases
import NetopsCopilot.Core.SigningKeys
import NetopsCopilot.Lib.Keyset
import NetopsCopilot.Application.EventDelivery
import NetopsCopilot.Api.CasePages
import NetopsCopilot.Application.CaseDetail
import NetopsCopilot.Api.CaseCreation
import NetopsCopilot.Api.UploadCompletion
import NetopsCopilot.Core.RateLimit
import NetopsCopilot.Core.Sentry
import NetopsCopilot.Web.CaseActions
import NetopsCopilot.Api.CursorRoundTrip
import NetopsCopilot.JavaScript.Json
import NetopsCopilot.Web.Session
import NetopsCopilot.JavaScript.TypeScript
import NetopsCopilot.Scripts.ApiClient
import NetopsCopilot.Lib.RowSecurity
import NetopsCopilot.Postgres.RowSecurity
import NetopsCopilot.Core.Database
import NetopsCopilot.Application.RowSecurity
import NetopsCopilot.Core.Auth
import NetopsCopilot.Web.Login
import NetopsCopilot.JavaScript.EventSource
import NetopsCopilot.Web.QueueEvents
import NetopsCopilot.Worker.PublisherProgress
import NetopsCopilot.Worker.Main
import NetopsCopilot.Worker.ArtifactPipeline
import NetopsCopilot.JavaScript.JsonReaders
import NetopsCopilot.Web.NewCase
import NetopsCopilot.Web.NewCaseRetries
import NetopsCopilot.Api.MoveAnswers
import NetopsCopilot.Web.Workbench
