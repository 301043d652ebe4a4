import ZoneKeeper.Address
import ZoneKeeper.Apply
import ZoneKeeper.Batch
import ZoneKeeper.Change
import ZoneKeeper.Changelog
import ZoneKeeper.CommandLine
import ZoneKeeper.CommandLine.Arguments
import ZoneKeeper.CommandLine.Help
import ZoneKeeper.CommandLine.Run
import ZoneKeeper.Config
import ZoneKeeper.ControlClient
import ZoneKeeper.DomainName
import ZoneKeeper.Error
import ZoneKeeper.History
import ZoneKeeper.HostName
import ZoneKeeper.HostName.Punycode
import ZoneKeeper.HostName.Table
import ZoneKeeper.HostName.Traits
import ZoneKeeper.HttpMessage
import ZoneKeeper.Journal
import ZoneKeeper.Json
import ZoneKeeper.Json.Fields
import ZoneKeeper.Json.Parser
import ZoneKeeper.Json.Printer
import ZoneKeeper.Main
import ZoneKeeper.Metrics
import ZoneKeeper.Nameserver
import ZoneKeeper.Numeral
import ZoneKeeper.Policy
import ZoneKeeper.RRType
import ZoneKeeper.RRset
import ZoneKeeper.Reconciliation
import ZoneKeeper.ReverseName
import ZoneKeeper.ReverseSync
import ZoneKeeper.Row
import ZoneKeeper.RowFile
import ZoneKeeper.Sandbox
import ZoneKeeper.Services
import ZoneKeeper.Table
import ZoneKeeper.Text
import ZoneKeeper.Timestamp
import ZoneKeeper.Url
import ZoneKeeper.Yaml
import ZoneKeeper.Yaml.Block
import ZoneKeeper.Yaml.Parser
import ZoneKeeper.Yaml.Position
import ZoneKeeper.Yaml.Property
import ZoneKeeper.Yaml.Scalar
import ZoneKeeper.Yaml.State
import ZoneKeeper.Yaml.Token
import ZoneKeeper.Proofs.SameContent
import ZoneKeeper.Proofs.Grouping
import ZoneKeeper.Proofs.Reconciliation
import ZoneKeeper.Proofs.Nameserver
import ZoneKeeper.Proofs.Requests
import ZoneKeeper.Proofs.Apply
import ZoneKeeper.Proofs.DomainName
import ZoneKeeper.Proofs.ReverseName
import ZoneKeeper.Proofs.ReverseLabels
import ZoneKeeper.Proofs.CandidateZones
import ZoneKeeper.Proofs.Sandbox
import ZoneKeeper.Proofs.Steps
import ZoneKeeper.Proofs.ReverseProgress
import ZoneKeeper.Proofs.ReversePass
import ZoneKeeper.Proofs.Outcome
import ZoneKeeper.Proofs.Convergence
import ZoneKeeper.Proofs.Replay
import ZoneKeeper.Proofs.EditPolicy
import ZoneKeeper.Proofs.DesiredRows
import ZoneKeeper.Proofs.ReverseRemoval
import ZoneKeeper.Proofs.Lockstep
import ZoneKeeper.Proofs.Strict
import ZoneKeeper.Proofs.Refusal
import ZoneKeeper.Proofs.Verdict
import ZoneKeeper.Proofs.ValueChanges
import ZoneKeeper.Proofs.Changelog
import ZoneKeeper.Proofs.ReverseLocation
import ZoneKeeper.Proofs.ReverseDecision
import ZoneKeeper.Proofs.ReverseEffect
import ZoneKeeper.Proofs.Plan
import ZoneKeeper.Proofs.Serials
import ZoneKeeper.Proofs.Watched
import ZoneKeeper.Proofs.SerialGuard
import ZoneKeeper.Proofs.Frame
import ZoneKeeper.Proofs.Preservation
import ZoneKeeper.Proofs.ReverseFailure
import ZoneKeeper.Proofs.Retry
import ZoneKeeper.Proofs.Numeral
import ZoneKeeper.Proofs.Timestamp
import ZoneKeeper.Proofs.JsonText
import ZoneKeeper.Proofs.Stored
import ZoneKeeper.Proofs.Journal
import ZoneKeeper.Proofs.JoinedJson
import ZoneKeeper.Proofs.DamagedJournal
import ZoneKeeper.Proofs.SnapshotOrder
import ZoneKeeper.Proofs.Gathering
import ZoneKeeper.Proofs.RowOrder
import ZoneKeeper.Proofs.Regrouping
import ZoneKeeper.Proofs.Address
import ZoneKeeper.Proofs.ValidReplacements
import ZoneKeeper.Proofs.ValuePartition
import ZoneKeeper.Proofs.ChangelogEntries
import ZoneKeeper.Proofs.PatchEffect
import ZoneKeeper.Proofs.ControlClient
import ZoneKeeper.Proofs.ReverseBatches
import ZoneKeeper.Proofs.ReverseCache
import ZoneKeeper.Proofs.RequestOrder
import ZoneKeeper.Proofs.EmbeddedError
import ZoneKeeper.Proofs.PatchBody
import ZoneKeeper.Proofs.TypeNames
import ZoneKeeper.Proofs.TypeGrammar
import ZoneKeeper.Proofs.AddressPrefix
import ZoneKeeper.Proofs.AbsoluteName
import ZoneKeeper.Proofs.PolicyLayers
import ZoneKeeper.Proofs.Metrics
import ZoneKeeper.Proofs.Bookings
import ZoneKeeper.Proofs.Accounting
