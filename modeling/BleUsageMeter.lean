import BleUsageMeter.Kit.Dict
import BleUsageMeter.Kit.Run
import BleUsageMeter.Kit.TwoPhase
import BleUsageMeter.Kit.Base64
import BleUsageMeter.Kit.BigEndian
import BleUsageMeter.Kit.Calendar
import BleUsageMeter.Kit.Python
import BleUsageMeter.Kit.Datetime
import BleUsageMeter.Kit.Signature
import BleUsageMeter.Kit.Span
import BleUsageMeter.Backend.Models
import BleUsageMeter.Backend.Db
import BleUsageMeter.Backend.Verify
import BleUsageMeter.Backend.Policy
import BleUsageMeter.Backend.App
import BleUsageMeter.Backend.Ledger
import BleUsageMeter.Backend.Race
import BleUsageMeter.Backend.Encoding
import BleUsageMeter.Backend.Faults
import BleUsageMeter.Backend.Licence
import BleUsageMeter.Backend.Unsigned
import BleUsageMeter.Gateway.Matcher
import BleUsageMeter.Gateway.Store
import BleUsageMeter.Gateway.Pipeline
import BleUsageMeter.Gateway.Signer
import BleUsageMeter.Gateway.Reporter
import BleUsageMeter.Gateway.Reports
import BleUsageMeter.Gateway.Delivery
import BleUsageMeter.Firmware.Counter
import BleUsageMeter.Firmware.Matcher
import BleUsageMeter.Firmware.Storage
import BleUsageMeter.Firmware.Main
import BleUsageMeter.Firmware.Observer
import BleUsageMeter.Firmware.Reassembly
import BleUsageMeter.Gateway.Config
import BleUsageMeter.Gateway.Handle
import BleUsageMeter.Gateway.Billing
import BleUsageMeter.Gateway.Identity
import BleUsageMeter.Gateway.Audit
import BleUsageMeter.Kit.Parties
import BleUsageMeter.Gateway.Sharing
import BleUsageMeter.Gateway.Numbering
import BleUsageMeter.Gateway.Posting
import BleUsageMeter.Backend.FailClosed
import BleUsageMeter.Backend.Selection
import BleUsageMeter.Firmware.Values
import BleUsageMeter.Gateway.Agreement
import BleUsageMeter.Firmware.Signer
import BleUsageMeter.Gateway.Canonical
import BleUsageMeter.Backend.Registration
import BleUsageMeter.Gateway.Proxy
import BleUsageMeter.Backend.UsageReports
import BleUsageMeter.Gateway.Tables
import BleUsageMeter.Firmware.CounterKeys
import BleUsageMeter.Backend.WallClock
import BleUsageMeter.Backend.Period
import BleUsageMeter.Firmware.Pace
import BleUsageMeter.Firmware.Complete
import BleUsageMeter.Backend.Denial
import BleUsageMeter.Backend.Rolling
import BleUsageMeter.Gateway.Observer
import BleUsageMeter.Kit.FirstMatch
import BleUsageMeter.Kit.Uuid
import BleUsageMeter.Kit.Ring
import BleUsageMeter.Kit.Slice
import BleUsageMeter.Tools.ParseSnoop
import BleUsageMeter.Firmware.Persistence
import BleUsageMeter.Firmware.EventLog
import BleUsageMeter.Firmware.AppendFaults
import BleUsageMeter.Gateway.RuleOrder
import BleUsageMeter.Gateway.LinearScan
import BleUsageMeter.Gateway.Uuids
import BleUsageMeter.Tools.Capture
import BleUsageMeter.Tools.Fragments
import BleUsageMeter.Tools.HostWrites
import BleUsageMeter.Gateway.UuidForms
import BleUsageMeter.Firmware.CounterVector
import BleUsageMeter.Gateway.Counters
import BleUsageMeter.Kit.Nibbles
import BleUsageMeter.Gateway.UuidParsers
import BleUsageMeter.Gateway.Prefixes
import BleUsageMeter.Kit.Json
import BleUsageMeter.Firmware.Reporter
import BleUsageMeter.Backend.Migrate
import BleUsageMeter.Kit.Retry
import BleUsageMeter.Gateway.Backoff
import BleUsageMeter.Firmware.Posting
import BleUsageMeter.Gateway.ReportCommand
import BleUsageMeter.Firmware.Life
import BleUsageMeter.Kit.Noninterference
import BleUsageMeter.Firmware.Measurement
import BleUsageMeter.Kit.Tasks
import BleUsageMeter.Backend.Calls
import BleUsageMeter.Backend.Isolation
import BleUsageMeter.Backend.Readers
import BleUsageMeter.Kit.Channels
import BleUsageMeter.Gateway.Observe
import BleUsageMeter.Tools.Keygen
import BleUsageMeter.Firmware.Ingest
import BleUsageMeter.Kit.Gather
import BleUsageMeter.Gateway.Loading
import BleUsageMeter.Kit.Occurrences
import BleUsageMeter.Tools.SnoopTable
import BleUsageMeter.Gateway.Status
import BleUsageMeter.Gateway.Metering
import BleUsageMeter.Firmware.Totals
import BleUsageMeter.Firmware.Capture
import BleUsageMeter.Gateway.Invoice
