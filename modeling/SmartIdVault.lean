import SmartIdVault.Lib.Machine
import SmartIdVault.Lib.Tasks
import SmartIdVault.Lib.Handles
import SmartIdVault.Lib.LinkedMap
import SmartIdVault.Lib.JsMap
import SmartIdVault.Lib.Streak
import SmartIdVault.Lib.Faults
import SmartIdVault.Lib.KeyedList
import SmartIdVault.Lib.Bytes
import SmartIdVault.Lib.Base64
import SmartIdVault.Lib.Utf
import SmartIdVault.Lib.Sha256
import SmartIdVault.Lib.NonceLedger
import SmartIdVault.Lib.Json
import SmartIdVault.Lib.JsonNumber
import SmartIdVault.Lib.Properties
import SmartIdVault.Lib.JsonRoundTrip
import SmartIdVault.Lib.JsonUtf8
import SmartIdVault.Lib.Framing
import SmartIdVault.Lib.ImplicitNonce
import SmartIdVault.Lib.InSequence
import SmartIdVault.Lib.FixedWindow
import SmartIdVault.Lib.SlidingWindow
import SmartIdVault.Lib.Cooldown
import SmartIdVault.Lib.Numbering
import SmartIdVault.Lib.Regex
import SmartIdVault.Lib.Redaction
import SmartIdVault.Lib.WriteBehind
import SmartIdVault.NativeHost.Crypto
import SmartIdVault.NativeHost.Aoa
import SmartIdVault.NativeHost.Session
import SmartIdVault.NativeHost.Steps
import SmartIdVault.NativeHost.Packets
import SmartIdVault.NativeHost.Nonce
import SmartIdVault.NativeHost.Outbound
import SmartIdVault.NativeHost.Delivery
import SmartIdVault.NativeHost.Inbound
import SmartIdVault.NativeHost.Loops
import SmartIdVault.NativeHost.Wire
import SmartIdVault.NativeHost.Hygiene
import SmartIdVault.NativeHost.Discovery
import SmartIdVault.NativeHost.Process
import SmartIdVault.NativeMessaging.Message
import SmartIdVault.NativeMessaging.Reader
import SmartIdVault.NativeMessaging.Writer
import SmartIdVault.NativeHost.KeyExchange
import SmartIdVault.NativeHost.Negotiation
import SmartIdVault.Challenge.Serialize
import SmartIdVault.Challenge.Verifier
import SmartIdVault.Challenge.Agreement
import SmartIdVault.Challenge.Contexts
import SmartIdVault.Challenge.Parse
import SmartIdVault.Challenge.Canonical
import SmartIdVault.Challenge.Replay
import SmartIdVault.WebAuthn.Lockout
import SmartIdVault.Attestation.Header
import SmartIdVault.Attestation.KeyStore
import SmartIdVault.Attestation.Manifest
import SmartIdVault.Attestation.Verifier
import SmartIdVault.Attestation.Lock
import SmartIdVault.Attestation.Audit
import SmartIdVault.Attestation.AuditOrder
import SmartIdVault.Attestation.Canonical
import SmartIdVault.Attestation.Demo
import SmartIdVault.Attestation.RoundTrip
import SmartIdVault.Attestation.Status
import SmartIdVault.Signaling.Values
import SmartIdVault.Signaling.Commitment
import SmartIdVault.Signaling.Server
import SmartIdVault.Signaling.Steps
import SmartIdVault.Signaling.Revocation
import SmartIdVault.Signaling.Rooms
import SmartIdVault.Signaling.Lifecycle
import SmartIdVault.Signaling.Refinement
import SmartIdVault.Signaling.Client
import SmartIdVault.Signaling.Access
import SmartIdVault.Signaling.Relay
import SmartIdVault.Signaling.Credentials
import SmartIdVault.Pairing.Channel
import SmartIdVault.Pairing.Background
import SmartIdVault.Pairing.Gate
import SmartIdVault.Pairing.Keys
import SmartIdVault.Pairing.Frames
import SmartIdVault.Pairing.Confirmation
import SmartIdVault.Pairing.Primary
import SmartIdVault.Pairing.Handshake
import SmartIdVault.Backpressure.Queue
import SmartIdVault.Backpressure.Channels
import SmartIdVault.Command.Client
import SmartIdVault.Command.Sending
import SmartIdVault.Command.Sequence
import SmartIdVault.Command.Counting
import SmartIdVault.Command.Rotation
import SmartIdVault.Command.Heartbeat
import SmartIdVault.Command.Coordinator
import SmartIdVault.Command.RttEstimator
import SmartIdVault.Command.Timers
import SmartIdVault.Command.Retry
import SmartIdVault.Command.Detection
import SmartIdVault.ContentScripts.Manager
import SmartIdVault.ContentScripts.Agreement
import SmartIdVault.ContentScripts.SameDomain
import SmartIdVault.ContentScripts.Pending
import SmartIdVault.Domain.Parser
import SmartIdVault.Domain.Registrable
import SmartIdVault.Tabs.State
import SmartIdVault.Tabs.Navigations
import SmartIdVault.DeviceRegistry.Storage
import SmartIdVault.DeviceRegistry.Restarts
import SmartIdVault.DeviceRegistry.Failures
import SmartIdVault.DeviceRegistry.Revocations
import SmartIdVault.DeviceRegistry.Interleaving
import SmartIdVault.DeviceRegistry.Calls
import SmartIdVault.DeviceRegistry.Steps
import SmartIdVault.DeviceRegistry.Consistency
import SmartIdVault.DeviceRegistry.Names
import SmartIdVault.Session.Manager
import SmartIdVault.Session.Cleared
import SmartIdVault.Session.Alarms
import SmartIdVault.Auth.Assertion
import SmartIdVault.Auth.Release
import SmartIdVault.Auth.Isolation
import SmartIdVault.Auth.ReplayCache
import SmartIdVault.Transport.WebRtc
import SmartIdVault.Transport.Inbound
import SmartIdVault.Transport.Outbound
import SmartIdVault.Transport.Manager
import SmartIdVault.Transport.Turns
import SmartIdVault.Transport.Calls
import SmartIdVault.Transport.Availability
import SmartIdVault.Transport.Switching
import SmartIdVault.Transport.Delivery
import SmartIdVault.Transport.Failover
import SmartIdVault.Transport.Timers
import SmartIdVault.Transport.Lifecycle
import SmartIdVault.Transport.Retry
import SmartIdVault.Usb.Transport
import SmartIdVault.Usb.ReadLoops
import SmartIdVault.Offscreen.Document
import SmartIdVault.Offscreen.Frames
import SmartIdVault.Offscreen.Sockets
import SmartIdVault.Offscreen.Offers
import SmartIdVault.Offscreen.Disconnect
import SmartIdVault.RateLimit.SlidingWindow
import SmartIdVault.RateLimit.ContentScript
import SmartIdVault.RateLimit.DomainLimiter
import SmartIdVault.Challenge.TlsBinding
import SmartIdVault.Auth.MfaGate
import SmartIdVault.Auth.FallbackKey
import SmartIdVault.Auth.Ceremony
import SmartIdVault.Session.Carried
import SmartIdVault.Session.Reauth
import SmartIdVault.Pairing.QrCode
import SmartIdVault.Transaction.UrlPattern
import SmartIdVault.Transaction.Registry
import SmartIdVault.Pii.Validators
import SmartIdVault.Pii.Filter
import SmartIdVault.Pii.Recall
import SmartIdVault.Transaction.Detection
import SmartIdVault.ContentScripts.Page
import SmartIdVault.ContentScripts.Reports
import SmartIdVault.ContentScripts.Approval
import SmartIdVault.ContentScripts.Startup
import SmartIdVault.ContentScripts.Restored
import SmartIdVault.TrustStore.CredentialTrustStore
