import RayzTarget.CheckedBuffer
import RayzTarget.RingBuffer
import RayzTarget.SampleBlocks
import RayzTarget.BitWord
import RayzTarget.BoundedQueue
import RayzTarget.EventRuns
import RayzTarget.TwoStageFilter
import RayzTarget.WrappedClock
import RayzTarget.TargetConfig
import RayzTarget.PhotodiodeModel
import RayzTarget.PhotodiodeHistory
import RayzTarget.PhotodiodeDecoding
import RayzTarget.PhotodiodeTask
import RayzTarget.SampleTiming
import RayzTarget.ProcessingTask
import RayzTarget.ProcessingTally
import RayzTarget.AnnouncementCredit
import RayzTarget.ExpectationExpiry
import RayzTarget.StatisticsLog
import RayzTarget.RespawnTasks
import RayzTarget.RespawnAnnouncement
import RayzTarget.LossyBroadcast
import RayzTarget.EspnowTask
import RayzTarget.TargetNetwork
import RayzTarget.KillCredit
import RayzTarget.TargetDevice
import RayzTarget.MessageQueue
import RayzTarget.AppMain
import RayzTarget.Firmware
import RayzTarget.HitMetrics
import RayzTarget.PhotodiodeBounds
import RayzTarget.TransmittedWords
import RayzTarget.RespawnCycle
import RayzTarget.StatisticsPeriod
import RayzTarget.WebsocketTimers
import RayzTarget.WebsocketWire
import RayzTarget.WebsocketReceive
import RayzTarget.WebsocketStop
import RayzTarget.WebsocketRestart
import RayzTarget.WebsocketSettings
