import CallManagerMini.CallIds
import CallManagerMini.CallManagerProxy
import CallManagerMini.CallManagerService
import CallManagerMini.CallTablePlaces
import CallManagerMini.CallbackAgreement
import CallManagerMini.CallbackDelivery
import CallManagerMini.CallbackLifetime
import CallManagerMini.CellularCallConnection
import CallManagerMini.Classifications
import CallManagerMini.EmergencyDials
import CallManagerMini.ConferenceOperations
import CallManagerMini.ControlEffects
import CallManagerMini.DialEffects
import CallManagerMini.EmergencyFlags
import CallManagerMini.HandlerInvariant
import CallManagerMini.HandlerMoves
import CallManagerMini.HandlerReachable
import CallManagerMini.HandlerRuns
import CallManagerMini.ReleasedObjects
import CallManagerMini.MessageRing
import CallManagerMini.ServiceRefinement
import CallManagerMini.SingletonRuns
import CallManagerMini.DelayedTimes
import CallManagerMini.DelayedTableRuns
import CallManagerMini.CmsisTimers
import CallManagerMini.RefBase
import CallManagerMini.RefCounts
import CallManagerMini.ReadyListeners
import CallManagerMini.HangUpTypes
import CallManagerMini.HangUpHistories
import CallManagerMini.Lib.RingBuffer
import CallManagerMini.Lib.SlotPool
import CallManagerMini.LosEventHandler
import CallManagerMini.MainLoopRefinement
import CallManagerMini.OwnSlot
import CallManagerMini.PendingHangUps
import CallManagerMini.PhantomCalls
import CallManagerMini.PosixSemaphores
import CallManagerMini.PosixTimerRuns
import CallManagerMini.RecordedCalls
import CallManagerMini.RefreshedCalls
import CallManagerMini.RefusedDials
import CallManagerMini.RefusedIncoming
import CallManagerMini.TurnedAway
import CallManagerMini.RepeatedReports
import CallManagerMini.DialedNumbers
import CallManagerMini.ReportEffects
import CallManagerMini.ReportedConferences
import CallManagerMini.SparedCalls
import CallManagerMini.StateChain
import CallManagerMini.TaskCustody
import CallManagerMini.WaiterSlots
import CallManagerMini.StopAccounts
import CallManagerMini.WakeUps
import CallManagerMini.TelOsAdapter
import CallManagerMini.TelephonyLog
import CallManagerMini.StringEx
import CallManagerMini.TimerArithmetic
import CallManagerMini.Tones
import CallManagerMini.ZeroState
import CallManagerMini.CallPermissionAdapter
import CallManagerMini.TaskOutcomes
import CallManagerMini.Lib.Line
import CallManagerMini.MessageOrder
import CallManagerMini.MainLoopSystem
import CallManagerMini.PostedRequests
import CallManagerMini.ServiceEntries
import CallManagerMini.ServiceLives
import CallManagerMini.RequestDelivery
import CallManagerMini.MeantCalls
import CallManagerMini.AudioSession
import CallManagerMini.PacMaps
import CallManagerMini.ClientView
import CallManagerMini.ClientFeed
