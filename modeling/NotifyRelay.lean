import NotifyRelay.Refinement
import NotifyRelay.History
import NotifyRelay.NoLoss
import NotifyRelay.Timing
import NotifyRelay.Ownership
import NotifyRelay.Finality
import NotifyRelay.RecordedSuccess
import NotifyRelay.Idempotency
import NotifyRelay.TokenBucket
import NotifyRelay.WebhookTarget
import NotifyRelay.Replay
import NotifyRelay.Publishing
import NotifyRelay.AttemptNumbers
import NotifyRelay.Authentication
import NotifyRelay.Acceptance
import NotifyRelay.TemplateHistory
import NotifyRelay.Isolation
import NotifyRelay.JsonValue
import NotifyRelay.PayloadMatch
import NotifyRelay.EmbeddedAddresses
import NotifyRelay.SmtpRefusal
import NotifyRelay.Library.JsonText
import NotifyRelay.WebhookBody
import NotifyRelay.BucketExpiry
import NotifyRelay.RenderOutcomes
import NotifyRelay.AttemptRecords
import NotifyRelay.RetryChain
import NotifyRelay.Signature
import NotifyRelay.RateLimitIdentity
import NotifyRelay.WebhookVerdict
import NotifyRelay.Retention
import NotifyRelay.DispatchFairness
import NotifyRelay.TemplateLinearization
import NotifyRelay.TemplateAddress
import NotifyRelay.AuditTrail
import NotifyRelay.LastAttempt
import NotifyRelay.ApiAccess
import NotifyRelay.Broker
import NotifyRelay.BrokerSteps
import NotifyRelay.Redelivery
import NotifyRelay.Reruns
import NotifyRelay.StaleSending
import NotifyRelay.ResolverSlots
