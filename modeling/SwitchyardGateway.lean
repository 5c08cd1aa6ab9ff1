import SwitchyardGateway.Application.Failover
import SwitchyardGateway.Application.Cooldown
import SwitchyardGateway.Application.Retention
import SwitchyardGateway.Ingress.Sse
import SwitchyardGateway.Ingress.Relay
import SwitchyardGateway.Ingress.Chunking
import SwitchyardGateway.Ingress.JsonModule
import SwitchyardGateway.Ingress.Conformance
import SwitchyardGateway.Ingress.EventStream
import SwitchyardGateway.Ingress.Transparency
import SwitchyardGateway.Ingress.Chat
import SwitchyardGateway.Ingress.ChatRules
import SwitchyardGateway.Ingress.Answers
import SwitchyardGateway.Adapters.Switchyard
import SwitchyardGateway.Application.Protection
import SwitchyardGateway.Ingress.Admission
import SwitchyardGateway.Matching.Greedy
import SwitchyardGateway.Python.Equality
import SwitchyardGateway.Adapters.Restoration
import SwitchyardGateway.Adapters.Notes
import SwitchyardGateway.Ingress.Limits
import SwitchyardGateway.Ingress.Outcomes
import SwitchyardGateway.Adapters.Config
import SwitchyardGateway.Adapters.Document
import SwitchyardGateway.Adapters.Configurable
import SwitchyardGateway.Bootstrap
import SwitchyardGateway.Application.Rotation
import SwitchyardGateway.Coop.Relation
import SwitchyardGateway.Adapters.Credentials
import SwitchyardGateway.Adapters.Headroom
import SwitchyardGateway.Ingress.Serving
import SwitchyardGateway.Ingress.Records
import SwitchyardGateway.Application.Responses
import SwitchyardGateway.Ingress.Leaks
import SwitchyardGateway.Ingress.Connections
import SwitchyardGateway.Ingress.Mediation
import SwitchyardGateway.Application.Attribution
import SwitchyardGateway.Ingress.Provenance
import SwitchyardGateway.Ingress.Secrets
import SwitchyardGateway.Ingress.Isolation
import SwitchyardGateway.Adapters.Delivery
import SwitchyardGateway.Application.Failures
import SwitchyardGateway.Ingress.Explained
import SwitchyardGateway.Ingress.Sanitized
import SwitchyardGateway.Ingress.Discovery
import SwitchyardGateway.Ingress.Service
import SwitchyardGateway.Matching.Interspersed
import SwitchyardGateway.Adapters.Conversation
import SwitchyardGateway.Ingress.Forwarding
import SwitchyardGateway.Application.Integrity
import SwitchyardGateway.Adapters.Logging
import SwitchyardGateway.Application.Readiness
