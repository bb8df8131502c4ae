import FriendLedger.Main
import FriendLedger.Store.Listing
import FriendLedger.Proofs.Friends.Relationships
import FriendLedger.Proofs.Ledger.Readable
import FriendLedger.Proofs.Session.Compensation
import FriendLedger.Proofs.Session.Rollbacks
import FriendLedger.Proofs.Session.SchemaKeys
import FriendLedger.Proofs.Clients.Authorization
import FriendLedger.Proofs.Friends.Consent
import FriendLedger.Proofs.Clients.Races
import FriendLedger.Proofs.Ledger.Accord
import FriendLedger.Proofs.Ledger.Strangers
import FriendLedger.Proofs.Operation.Alternation
import FriendLedger.Proofs.Ledger.BalanceCheck
import FriendLedger.Proofs.Session.Unreadable
import FriendLedger.Proofs.Ledger.Transfers
import FriendLedger.Proofs.Ledger.ShareOrder
import FriendLedger.Proofs.Json.RoundTrip
import FriendLedger.Proofs.CommandLine.ShareText
import FriendLedger.Proofs.CommandLine.NewExpense
import FriendLedger.Proofs.CommandLine.Refinement
import FriendLedger.Proofs.Session.SchemaCycle
import FriendLedger.Proofs.Session.FailedMigration
import FriendLedger.Proofs.Agreement
import FriendLedger.Proofs.Program.ErrorLine
