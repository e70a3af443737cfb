import MidnightIndexer.Guarantees.ActiveSessions
import MidnightIndexer.Guarantees.Addresses
import MidnightIndexer.Guarantees.Authors
import MidnightIndexer.Guarantees.BridgeClaims
import MidnightIndexer.Guarantees.BridgeDelivery
import MidnightIndexer.Guarantees.BridgePools
import MidnightIndexer.Guarantees.CatchUp
import MidnightIndexer.Guarantees.ContractActionDelivery
import MidnightIndexer.Guarantees.ContractEventCodec
import MidnightIndexer.Guarantees.ContractEventDelivery
import MidnightIndexer.Guarantees.ContractStates
import MidnightIndexer.Guarantees.CurrentEpoch
import MidnightIndexer.Guarantees.DigestAuthor
import MidnightIndexer.Guarantees.DustCapacity
import MidnightIndexer.Guarantees.DustDtime
import MidnightIndexer.Guarantees.DustRegistrations
import MidnightIndexer.Guarantees.DustStatus
import MidnightIndexer.Guarantees.EventCorrelation
import MidnightIndexer.Guarantees.ExpectedBlocks
import MidnightIndexer.Guarantees.HexLookups
import MidnightIndexer.Guarantees.InMemLag
import MidnightIndexer.Guarantees.LedgerNodes
import MidnightIndexer.Guarantees.NatsDelivery
import MidnightIndexer.Guarantees.NullifierDelivery
import MidnightIndexer.Guarantees.NullifierStream
import MidnightIndexer.Guarantees.ParentChain
import MidnightIndexer.Guarantees.RegisteredTotals
import MidnightIndexer.Guarantees.RegistrationOrder
import MidnightIndexer.Guarantees.Resume
import MidnightIndexer.Guarantees.RootLeaks
import MidnightIndexer.Guarantees.RootRepair
import MidnightIndexer.Guarantees.SessionRevocation
import MidnightIndexer.Guarantees.ShieldedAttempts
import MidnightIndexer.Guarantees.ShieldedProgress
import MidnightIndexer.Guarantees.ShieldedTiling
import MidnightIndexer.Guarantees.SpoList
import MidnightIndexer.Guarantees.StateTranslation
import MidnightIndexer.Guarantees.SubscriptionQuotas
import MidnightIndexer.Guarantees.SystemParameters
import MidnightIndexer.Guarantees.TokenBucket
import MidnightIndexer.Guarantees.TransactionRanges
import MidnightIndexer.Guarantees.TransactionsByHash
import MidnightIndexer.Guarantees.UtxoExtraction
import MidnightIndexer.Guarantees.WalletRanges
import MidnightIndexer.Guarantees.WalletScan
