import LogForwarding.Api.Patch
import LogForwarding.Api.Request
import LogForwarding.Api.Resource
import LogForwarding.Api.StatusText
import LogForwarding.Artifact.Digest
import LogForwarding.Artifact.Error
import LogForwarding.Artifact.Set
import LogForwarding.Artifact.Source
import LogForwarding.Artifact.Synthesis
import LogForwarding.Audit.Baseline
import LogForwarding.Bundle.Basic
import LogForwarding.Bundle.Codec
import LogForwarding.Bytes.Base64
import LogForwarding.Bytes.Basic
import LogForwarding.Bytes.Sha256
import LogForwarding.Cleanup.Manifest
import LogForwarding.Cleanup.Script
import LogForwarding.Cluster.Context
import LogForwarding.Cluster.Metadata
import LogForwarding.Cluster.Object
import LogForwarding.Cluster.Snapshot
import LogForwarding.Dictionary
import LogForwarding.Forwarder.Configuration
import LogForwarding.Forwarder.Filter
import LogForwarding.Forwarder.Literal
import LogForwarding.Json.Basic
import LogForwarding.Json.Printer
import LogForwarding.Json.Reader
import LogForwarding.Monitoring.AlertRule
import LogForwarding.Monitoring.DashboardText
import LogForwarding.Monitoring.Object
import LogForwarding.Monitoring.Scrape
import LogForwarding.Node.ApplyProgram
import LogForwarding.Node.Paths
import LogForwarding.Node.Programs
import LogForwarding.Number.Binary64
import LogForwarding.Pattern.Bracket
import LogForwarding.Pattern.Cost
import LogForwarding.Pattern.Ere
import LogForwarding.Pattern.Grammar
import LogForwarding.Pattern.Piece
import LogForwarding.Pattern.Syntax
import LogForwarding.Proofs.Act
import LogForwarding.Proofs.Exchanges
import LogForwarding.Reconcile.Actuator
import LogForwarding.Reconcile.ApiCalls
import LogForwarding.Reconcile.Capability
import LogForwarding.Reconcile.Care
import LogForwarding.Reconcile.Controller
import LogForwarding.Reconcile.Dialogue
import LogForwarding.Reconcile.Error
import LogForwarding.Reconcile.Session
import LogForwarding.Record.Basic
import LogForwarding.Record.Status
import LogForwarding.Record.Transition
import LogForwarding.Schema.Decoder
import LogForwarding.Schema.Mismatch
import LogForwarding.Settings.Basic
import LogForwarding.Settings.Codec
import LogForwarding.Settings.Document
import LogForwarding.Settings.Validation
import LogForwarding.Simulation.Server
import LogForwarding.Simulation.World
import LogForwarding.Template.Basic
import LogForwarding.Template.Error
import LogForwarding.Tenant.Codec
import LogForwarding.Tenant.Config
import LogForwarding.Tenant.Document
import LogForwarding.Tenant.FieldError
import LogForwarding.Tenant.Validation
import LogForwarding.Text.Blank
import LogForwarding.Text.Printable
import LogForwarding.Text.Quoted
import LogForwarding.Time.Timestamp
import LogForwarding.Yaml.Node
import LogForwarding.Yaml.Scalar
import LogForwarding.Yaml.Source
import LogForwarding.Yaml.Token.Basic
import LogForwarding.Yaml.Token.Block
import LogForwarding.Yaml.Token.Lexer
import LogForwarding.Yaml.Token.Plain
import LogForwarding.Yaml.Token.Quoted
import LogForwarding.Yaml.Token.Tag
import LogForwarding.Yaml.Value
import LogForwarding.Proofs.Schema
import LogForwarding.Proofs.Merge
import LogForwarding.Proofs.Patch
import LogForwarding.Proofs.Record.Status
import LogForwarding.Proofs.Record.Stored
import LogForwarding.Proofs.Course
import LogForwarding.Proofs.Conduct
import LogForwarding.Proofs.Run
import LogForwarding.Proofs.Delivery
import LogForwarding.Proofs.Fulfilment
import LogForwarding.Proofs.Removal
import LogForwarding.Proofs.OptOut
import LogForwarding.Proofs.Objects
import LogForwarding.Proofs.Template
import LogForwarding.Proofs.Resolution
import LogForwarding.Proofs.Synthesis
import LogForwarding.Proofs.Persistence
import LogForwarding.Proofs.Pattern.Bracket
import LogForwarding.Proofs.Pattern.Gate
import LogForwarding.Proofs.Validation
import LogForwarding.Proofs.Forwarder.Lexer
import LogForwarding.Proofs.Forwarder.Confinement
import LogForwarding.Proofs.Forwarder.Condition
import LogForwarding.Proofs.Bytes
import LogForwarding.Proofs.Digest
import LogForwarding.Proofs.Bookkeeping
import LogForwarding.Proofs.Interleaving
import LogForwarding.Proofs.Forwarder.Script
import LogForwarding.Proofs.Handover
import LogForwarding.Proofs.Secrecy
import LogForwarding.Proofs.Separation
import LogForwarding.Proofs.Number.Digits
import LogForwarding.Proofs.Number.Rounding
import LogForwarding.Proofs.Number.Shortest
import LogForwarding.Proofs.Yaml.Folding
import LogForwarding.Proofs.Yaml.Legible
import LogForwarding.Proofs.Yaml.Number
import LogForwarding.Proofs.Yaml.Reading
import LogForwarding.Proofs.Convergence
import LogForwarding.Proofs.Document
import LogForwarding.Proofs.Obstacle
import LogForwarding.Proofs.Pattern.Classes
import LogForwarding.Proofs.Teardown
import LogForwarding.Proofs.Collection
import LogForwarding.Proofs.Pattern.Search
import LogForwarding.Proofs.Pattern.Cuts
import LogForwarding.Proofs.Json
import LogForwarding.Proofs.Bundle
import LogForwarding.Proofs.Waiting
import LogForwarding.Proofs.Forwarder.Literal
import LogForwarding.Proofs.AuditRules
import LogForwarding.Proofs.TenantDocument
import LogForwarding.Proofs.Observation
