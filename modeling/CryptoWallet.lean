import CryptoWallet.KeyedTable
import CryptoWallet.Transaction
import CryptoWallet.PythonValue
import CryptoWallet.Money
import CryptoWallet.Failures
import CryptoWallet.Events
import CryptoWallet.WalletSchema
import CryptoWallet.WalletLedger
import CryptoWallet.WalletTransfers
import CryptoWallet.WalletDispatch
import CryptoWallet.WalletInvariant
import CryptoWallet.CanonicalJson
import CryptoWallet.WalletApi
import CryptoWallet.WalletSystem
import CryptoWallet.WalletIdempotency
import CryptoWallet.LockOrder
import CryptoWallet.WalletLocks
import CryptoWallet.Redelivery
import CryptoWallet.WalletRedelivery
import CryptoWallet.BlockchainSchema
import CryptoWallet.Deposits
import CryptoWallet.OutgoingTransactions
import CryptoWallet.MockChain
import CryptoWallet.MockChainReplay
import CryptoWallet.DepositCases
import CryptoWallet.MockChainHistory
import CryptoWallet.ChainView
import CryptoWallet.DepositConfirmation
import CryptoWallet.OutgoingCases
import CryptoWallet.EarlyConfirmation
import CryptoWallet.ScanCoverage
import CryptoWallet.ScannerCompleteness
import CryptoWallet.ScanInterleaving
import CryptoWallet.LoopInterleaving
import CryptoWallet.TransferRuns
import CryptoWallet.NonceAllocation
import CryptoWallet.SettledTransfers
import CryptoWallet.RecordedChain
import CryptoWallet.PromotedDeposits
import CryptoWallet.DepositEvents
import CryptoWallet.DepositSpelling
import CryptoWallet.DepositNews
import CryptoWallet.DepositSettlement
import CryptoWallet.CanonicalChain
import CryptoWallet.ServiceTransactions
import CryptoWallet.WatcherRuns
import CryptoWallet.FinalityWindow
import CryptoWallet.Programs
import CryptoWallet.StreamGroup
import CryptoWallet.MessageBus
import CryptoWallet.Pipeline
import CryptoWallet.EventDelivery
import CryptoWallet.DeliveryRuns
import CryptoWallet.TransferOutcome
import CryptoWallet.CustodyTransfers
import CryptoWallet.MovedDeposits
import CryptoWallet.DeadLetters
import CryptoWallet.KeysetPages
import CryptoWallet.LedgerHistory
import CryptoWallet.Reconciliation
import CryptoWallet.WorkerPair
import CryptoWallet.RetryBudget
import CryptoWallet.FailureReports
import CryptoWallet.RelayReplicas
import CryptoWallet.AmountParsing
import CryptoWallet.AmountCodec
import CryptoWallet.LogRedaction
import CryptoWallet.RedactedKeys
import CryptoWallet.WalletCreation
import CryptoWallet.WalletRequests
import CryptoWallet.Web3Adapter
import CryptoWallet.AttemptBudget
import CryptoWallet.StreamStages
import CryptoWallet.ConsumerBudget
import CryptoWallet.BusBudgets
import CryptoWallet.BusEquivalence
import CryptoWallet.PoisonMessages
import CryptoWallet.HandledEvents
import CryptoWallet.ReversedDeposits
import CryptoWallet.TransferReports
import CryptoWallet.WalletReports
import CryptoWallet.Platform
import CryptoWallet.TransferAgreement
import CryptoWallet.TransferRequests
import CryptoWallet.TableSums
import CryptoWallet.Solvency
import CryptoWallet.BalanceAgreement
import CryptoWallet.RelayFairness
import CryptoWallet.CatchUp
import CryptoWallet.Reserves
import CryptoWallet.Mempool
import CryptoWallet.BroadcastQueue
import CryptoWallet.TransferSettling
import CryptoWallet.TransferSettling
