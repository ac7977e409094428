import Mergepay.Anchors.Channels
import Mergepay.Expense.Conversion
import Mergepay.History.Pagination
import Mergepay.History.Status
import Mergepay.Idempotency.Fingerprint
import Mergepay.Settlement.Memos
import Mergepay.Stellar.Failover
import Mergepay.Theorems.Acceptance
import Mergepay.Theorems.AcceptedPayments
import Mergepay.Theorems.Administrators
import Mergepay.Theorems.AmountCodec
import Mergepay.Theorems.Announcements
import Mergepay.Theorems.Approvals
import Mergepay.Theorems.AssetLimit
import Mergepay.Theorems.BalanceLaw
import Mergepay.Theorems.Buckets
import Mergepay.Theorems.CachedBalances
import Mergepay.Theorems.CallbackReplay
import Mergepay.Theorems.Challenges
import Mergepay.Theorems.Circuits
import Mergepay.Theorems.Commits
import Mergepay.Theorems.Conformance
import Mergepay.Theorems.Currency
import Mergepay.Theorems.CursorScans
import Mergepay.Theorems.Deletions
import Mergepay.Theorems.DeliveryOutcomes
import Mergepay.Theorems.DoublePayment
import Mergepay.Theorems.Engines
import Mergepay.Theorems.Expenses
import Mergepay.Theorems.FailureDetails
import Mergepay.Theorems.GroupBreakdowns
import Mergepay.Theorems.HashBinding
import Mergepay.Theorems.HistoryPages
import Mergepay.Theorems.HistoryPrivacy
import Mergepay.Theorems.HttpIdempotency
import Mergepay.Theorems.Inspections
import Mergepay.Theorems.Invites
import Mergepay.Theorems.LargestRemainder
import Mergepay.Theorems.LeaseExclusivity
import Mergepay.Theorems.LedgerChecks
import Mergepay.Theorems.LedgerScan
import Mergepay.Theorems.Multisig
import Mergepay.Theorems.OverSettlement
import Mergepay.Theorems.Payment
import Mergepay.Theorems.PaymentBuilders
import Mergepay.Theorems.PollBudget
import Mergepay.Theorems.Preflights
import Mergepay.Theorems.ProposalLifecycle
import Mergepay.Theorems.RateLimits
import Mergepay.Theorems.Redactions
import Mergepay.Theorems.Rejections
import Mergepay.Theorems.Retries
import Mergepay.Theorems.RetryBudget
import Mergepay.Theorems.RoundTrip
import Mergepay.Theorems.SessionAudits
import Mergepay.Theorems.SettleUp
import Mergepay.Theorems.SettlementChain
import Mergepay.Theorems.ShareSplits
import Mergepay.Theorems.SignatureHints
import Mergepay.Theorems.SignedAmounts
import Mergepay.Theorems.StampedMemos
import Mergepay.Theorems.StatusReads
import Mergepay.Theorems.StellarAmounts
import Mergepay.Theorems.TerminalReports
import Mergepay.Theorems.Threshold
import Mergepay.Theorems.TokenChains
import Mergepay.Theorems.TokenReuse
import Mergepay.Theorems.TrackedTransfers
import Mergepay.Theorems.TreasuryEnvelopes
import Mergepay.Theorems.Weight
import Mergepay.Theorems.WithdrawalFailures
import Mergepay.Theorems.Withdrawals
import Mergepay.Theorems.WorkerCycles
import Mergepay.Treasury.Policy
import Mergepay.Treasury.Requests
import Mergepay.Upstream.FeeStatistics
import Mergepay.Withdrawals.Funding
