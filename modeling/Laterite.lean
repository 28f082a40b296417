import Laterite.CheckedComputation
import Laterite.MachineIntegers
import Laterite.ProgramConstants
import Laterite.ProgramErrors
import Laterite.TimedRuns
import Laterite.MarketSession
import Laterite.AmountEngine
import Laterite.ChainAccounts
import Laterite.PythPrices
import Laterite.UserSubscriptions
import Laterite.AdminInstructions
import Laterite.AttestationInstructions
import Laterite.SweepInstruction
import Laterite.UserInstructions
import Laterite.ProgramExecution
import Laterite.InstructionEffects
import Laterite.SweepOutcome
import Laterite.UserLifecycle
import Laterite.SweepBookkeeping
import Laterite.ConfigLifecycle
import Laterite.WeeklyAllowance
import Laterite.SweepFrequency
import Laterite.PendingLedger
import Laterite.AttestationWindow
import Laterite.AttestationRecords
import Laterite.CountedKeys
import Laterite.SeatCount
import Laterite.ConfigGovernance
import Laterite.AbortFreedom
import Laterite.SubscriptionDemands
import Laterite.PlanChanges
import Laterite.ReplayedRuns
import Laterite.SweepSafety
import Laterite.NewYorkTime
import Laterite.MinimumOutput
import Laterite.ExactReading
import Laterite.PriceUpdateEncoding
import Laterite.ComputationAgreement
import Laterite.ClientConstants
import Laterite.ClientPrices
import Laterite.ClientMarket
import Laterite.ClientAmounts
import Laterite.ClientSweep
import Laterite.SweepForetelling
import Laterite.KeyedTables
import Laterite.PagedListings
import Laterite.IndexedHistory
import Laterite.FinalizedTransactions
import Laterite.IndexerRuns
import Laterite.AdmissionWindows
import Laterite.Sponsorships
import Laterite.SponsoredSends
import Laterite.SponsoredLimits
import Laterite.TransferRefusals
import Laterite.WatcherScan
import Laterite.WatcherRuns
import Laterite.SteadyReadings
import Laterite.SweepBoundaries
import Laterite.SweepCandidates
import Laterite.Bitmaps
import Laterite.CalendarLoading
import Laterite.CalendarDeployment
import Laterite.SignatureChecks
import Laterite.ClientAttestations
import Laterite.TextEncodings
import Laterite.CallTraces
import Laterite.ProgramLogs
import Laterite.ByteCodecs
import Laterite.EventEncodings
import Laterite.FetchedTransactions
import Laterite.DecodedTransactions
import Laterite.PaymentTransfers
import Laterite.SponsoredShape
import Laterite.SponsoredGate
import Laterite.UserStates
import Laterite.SubscriptionEffects
import Laterite.RestoredTokens
import Laterite.UserControls
import Laterite.ControlRefusals
import Laterite.ControlAgreement
import Laterite.BuiltControls
import Laterite.AcceptedControls
import Laterite.AgreedControls
import Laterite.AlarmNotices
import Laterite.RouteQueries
import Laterite.RecordedMultipliers
import Laterite.WatcherRefreshes
import Laterite.GoalMilestones
import Laterite.AttestJudgements
import Laterite.NextPurchases
import Laterite.ClientSweepInstructions
import Laterite.RelayedUpdates
import Laterite.EndedDelegations
import Laterite.LeavingControls
import Laterite.FinalWords
import Laterite.SweepFailures
import Laterite.CrankSweeps
import Laterite.CrankPlans
import Laterite.CrankRuns
import Laterite.CrankFinalWords
import Laterite.SignedTexts
import Laterite.TelegramLinks
import Laterite.AuthorisedLinks
import Laterite.SponsoredMessages
import Laterite.SponsoredBuilds
