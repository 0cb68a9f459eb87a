import Drip.Stream.Storage
import Drip.Common.Pause
import Drip.Stream.Math
import Drip.Stream.Control
import Drip.Stream.Keeper
import Drip.Stream.Schedule
import Drip.Stream.Value
import Drip.Stream.Escrow
import Drip.Stream.Inversion
import Drip.Stream.Payouts
import Drip.Stream.Moves
import Drip.Stream.Effects
import Drip.Stream.Runs
import Drip.Stream.History
import Drip.Stream.Accrual
import Drip.Stream.Repricing
import Drip.Stream.Earned
import Drip.Stream.Overflow
import Drip.Stream.Books
import Drip.Stream.Settlement
import Drip.Stream.Independence
import Drip.Factory.Index
import Drip.Support.Paged
import Drip.Factory.Creation
import Drip.Factory.Paging
import Drip.Stream.Solvency
import Drip.Factory.Funding
import Drip.Stream.Footprint
import Drip.Stream.Numbering
import Drip.Stream.Parties
import Drip.Stream.Issued
import Drip.Stream.Pool
import Drip.Stream.Authority
import Drip.Stream.Freeze
import Drip.Stream.Exits
import Drip.Factory.Deposits
import Drip.Factory.Calls
import Drip.Factory.Records
import Drip.Factory.Effects
import Drip.Factory.Walker
import Drip.Factory.Migration
import Drip.Factory.Refresh
import Drip.Factory.Registry
import Drip.Factory.Accounting
import Drip.Common.Membership
import Drip.Governor.Storage
import Drip.Governor.Roles
import Drip.Governor.Params
import Drip.Governor.Proposals
import Drip.Governor.Calls
import Drip.Governor.Effects
import Drip.Oracle.Roles
import Drip.Protocol.Administration
import Drip.Protocol.Handoff
import Drip.Governor.StatusIndex
import Drip.Governor.Listings
import Drip.Governor.Execution
import Drip.Governor.Authority
import Drip.Support.Cover
import Drip.Governor.Stakes
import Drip.Factory.Batches
import Drip.Factory.Flows
import Drip.Factory.TokenCounts
import Drip.Protocol.Validation
import Drip.Governor.Archive
import Drip.Governor.Checkpoints
import Drip.Governor.Bounds
import Drip.Oracle.Median
import Drip.Oracle.Pairs
import Drip.Oracle.Calls
import Drip.Oracle.Book
import Drip.Oracle.Effects
import Drip.Oracle.Consistency
import Drip.Oracle.Status
import Drip.Support.Weighted
import Drip.Oracle.Average
import Drip.Oracle.Quorum
import Drip.Oracle.Availability
import Drip.Oracle.Reads
import Drip.Oracle.Peers
import Drip.Oracle.Influence
import Drip.Oracle.Mirrors
import Drip.Oracle.Reporters
import Drip.Oracle.Breaker
import Drip.Oracle.Inverted
import Drip.Vault.Storage
import Drip.Vault.Transfers
import Drip.Vault.Calls
import Drip.Vault.Effects
import Drip.Vault.Delegation
import Drip.Vault.Accounts
import Drip.Vault.Snapshots
import Drip.Vault.Timelocks
import Drip.Vault.Preview
import Drip.Stream.Announced
import Drip.Stream.Completion
import Drip.Indexer.Database
import Drip.Indexer.Handlers
import Drip.Indexer.Poller
import Drip.Indexer.Coverage
import Drip.Indexer.Totals
import Drip.Support.LastWrite
import Drip.Support.Keyed
import Drip.Batch.Processor
import Drip.Batch.Payments
import Drip.Batch.Chunks
import Drip.Batch.Order
import Drip.Stream.Views
import Drip.Stream.DryRun
import Drip.Support.Clamped
import Drip.Protocol.Withdrawals
import Drip.Stream.Summary
import Drip.Indexer.Marks
import Drip.Indexer.Redelivery
import Drip.Indexer.Numbers
import Drip.Indexer.Scaffold.Handlers
import Drip.Indexer.Replay
import Drip.Indexer.Decoding
import Drip.Stream.Lifecycle
import Drip.Indexer.Projection
import Drip.Indexer.Paid
import Drip.Indexer.Scaffold.Poller
import Drip.Indexer.Scaffold.Paging
import Drip.Indexer.Decimals
import Drip.Indexer.Columns
import Drip.Indexer.Poison
import Drip.Indexer.Scaffold.Columns
import Drip.Indexer.Distinct
import Drip.Support.Ranks
import Drip.Support.Observed
import Drip.Common.Legacy
import Drip.Common.Reading
import Drip.Oracle.Medians
import Drip.Stream.Shares
import Drip.Support.Custody
import Drip.Host.Custody
import Drip.Stream.Custody
import Drip.Vault.Custody
import Drip.Support.Indexed
import Drip.Vault.Tracking
import Drip.Vault.Lifetime
import Drip.Factory.Pausing
import Drip.Protocol.Interior
import Drip.Protocol.Invocations
import Drip.Protocol.Network
import Drip.Protocol.Consent
import Drip.Protocol.Composition
import Drip.Protocol.EmergencyStop
import Drip.Stream.Silence
import Drip.Protocol.Silence
import Drip.Support.Leases
import Drip.Stream.Lifetime
import Drip.Support.Paced
import Drip.Stream.Pacing
import Drip.Common.Upheld
import Drip.Oracle.Majority
import Drip.Oracle.Pacing
import Drip.Support.Fleets
import Drip.Indexer.Workers
import Drip.Factory.Directory
import Drip.Oracle.Fiat
import Drip.Indexer.Migrations
import Drip.Frontend.Payload
