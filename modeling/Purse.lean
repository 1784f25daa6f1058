import Purse.CommandLine.Arguments
import Purse.CommandLine.Config
import Purse.CommandLine.Help
import Purse.CommandLine.Run
import Purse.Csv.Reader
import Purse.Csv.Writer
import Purse.Decimal.Basic
import Purse.Decimal.Sum
import Purse.Decimal.Text
import Purse.Error
import Purse.Id.Mint
import Purse.Id.User
import Purse.Id.Wallet
import Purse.Json.Form
import Purse.Json.Forms
import Purse.Json.Range
import Purse.Json.Text
import Purse.Json.Value
import Purse.Keys
import Purse.Ledger
import Purse.Remote.Branch
import Purse.Remote.Database
import Purse.Remote.DatabaseUrl
import Purse.Remote.Endpoint
import Purse.Remote.Host
import Purse.Remote.KeyServer
import Purse.Remote.KeyServerUrl
import Purse.Remote.KeyTable
import Purse.Remote.Network
import Purse.Remote.Numeric
import Purse.Remote.Statement
import Purse.Remote.Url
import Purse.Remote.WalletTable
import Purse.Replay.Report
import Purse.Replay.Row
import Purse.Replay.Run
import Purse.Request
import Purse.Rounding
import Purse.Schedule
import Purse.Service.Command
import Purse.Service.Creation
import Purse.Service.Program
import Purse.Service.Topup
import Purse.Service.Transfer
import Purse.Session
import Purse.Store
import Purse.Table
import Purse.Text.Blank
import Purse.Text.Percent
import Purse.Text.Plain
import Purse.Text.Positional
import Purse.Text.Quoted
import Purse.Text.Unsigned
import Purse.Text.Utf8
import Purse.Time.Calendar
import Purse.Time.Rfc3339
import Purse.Time.Timestamp
import Purse.Wallet
import Purse.Main
import Purse.Proofs.Store.Lines
import Purse.Proofs.Store.Lookup
import Purse.Proofs.Store.Coherence
import Purse.Proofs.Store.Moves
import Purse.Proofs.Crowd.Basic
import Purse.Proofs.Crowd.Calls
import Purse.Proofs.Crowd.Answers
import Purse.Proofs.Crowd.Solo
import Purse.Proofs.Crowd.Programs
import Purse.Proofs.Crowd.Sound
import Purse.Proofs.Crowd.Stages
import Purse.Proofs.Crowd.Jobs
import Purse.Proofs.Crowd.Deadlock
import Purse.Proofs.Crowd.Effects
import Purse.Proofs.Crowd.Atomicity
import Purse.Proofs.Decimal.Sum
import Purse.Proofs.Crowd.Play
import Purse.Proofs.Wallet.Adjust
import Purse.Proofs.Crowd.Conservation
import Purse.Proofs.Crowd.Alone
import Purse.Proofs.Crowd.Refusals
import Purse.Proofs.Crowd.Serial
import Purse.Proofs.Service.Transcript
import Purse.Proofs.Service.TransferCalls
import Purse.Proofs.Service.TopupCalls
import Purse.Proofs.Store.Readers
import Purse.Proofs.Crowd.Course
import Purse.Proofs.Crowd.Copies
import Purse.Proofs.Crowd.Isolation
import Purse.Proofs.Crowd.Solvency
import Purse.Proofs.Keys.Claims
import Purse.Proofs.Keys.Answers
import Purse.Proofs.Crowd.Watch
import Purse.Proofs.Crowd.Once
import Purse.Proofs.Remote.SharedKeys
import Purse.Proofs.Result
import Purse.Proofs.Remote.RoundTrips
import Purse.Proofs.Service.Alike
import Purse.Proofs.Id.Wallet
import Purse.Proofs.Remote.Numeric
import Purse.Proofs.Remote.Rows
import Purse.Proofs.Remote.Mirror
import Purse.Proofs.Remote.Backends
import Purse.Proofs.Remote.KeyStores
import Purse.Proofs.Decimal.Monotone
import Purse.Proofs.Crowd.Owners
import Purse.Proofs.Session.Turns
import Purse.Proofs.Session.Faults
import Purse.Proofs.Decimal.Text
import Purse.Proofs.Crowd.Lone
import Purse.Proofs.Replay.Rows
import Purse.Proofs.Replay.Books
import Purse.Proofs.Decimal.Reach
import Purse.Proofs.Wallet.Decision
import Purse.Proofs.Crowd.Decisions
import Purse.Proofs.Crowd.Records
import Purse.Proofs.Crowd.TransferVerdict
import Purse.Proofs.Crowd.TopupVerdict
import Purse.Proofs.Crowd.Deferral
import Purse.Proofs.Crowd.Sights
import Purse.Proofs.Crowd.Locality
import Purse.Proofs.Crowd.CreationVerdict
import Purse.Proofs.Crowd.Twins
import Purse.Proofs.Replay.Traces
import Purse.Proofs.Crowd.Wakes
import Purse.Proofs.Crowd.Bouts
import Purse.Proofs.Session.Order
import Purse.Proofs.Session.Rounds
import Purse.Proofs.Session.Waits
import Purse.Proofs.Session.Cuts
import Purse.Proofs.Session.Clock
import Purse.Proofs.Session.Hands
import Purse.Proofs.Session.Moments
import Purse.Proofs.Session.Spared
import Purse.Proofs.Session.Deadlines
import Purse.Proofs.Text.ByteOrder
import Purse.Proofs.Id.Canonical
import Purse.Proofs.Keys.Purges
import Purse.Proofs.Session.Kept
import Purse.Proofs.Session.Lineage
import Purse.Proofs.Session.Creations
import Purse.Proofs.Session.Numbering
import Purse.Proofs.Replay.Bindings
import Purse.Proofs.Text.Blank
import Purse.Proofs.Id.User
import Purse.Proofs.Decimal.Accuracy
import Purse.Proofs.Decimal.Scientific
import Purse.Proofs.Store.Audit
import Purse.Proofs.Csv.ReadBack
import Purse.Proofs.Replay.ReadBack
import Purse.Proofs.Time.Calendar
import Purse.Proofs.Time.Rfc3339
import Purse.Proofs.Json.Text
import Purse.Proofs.Json.Suffix
import Purse.Proofs.Json.Documents
import Purse.Proofs.Json.Origins
import Purse.Proofs.Json.RoundTrip
