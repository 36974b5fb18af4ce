import Dingdong.TextLines
import Dingdong.Runs
import Dingdong.Substrings
import Dingdong.Decimal
import Dingdong.CivilCalendar
import Dingdong.RingCells
import Dingdong.DnsMessage
import Dingdong.CsvRecords
import Dingdong.Utf8
import Dingdong.JsonText
import Dingdong.Util
import Dingdong.LogBuffer
import Dingdong.CaptiveDns
import Dingdong.CJson
import Dingdong.CJsonParse
import Dingdong.StorageCore
import Dingdong.StorageLog
import Dingdong.StorageTorn
import Dingdong.EventCore
import Dingdong.StorageDelete
import Dingdong.StorageByTime
import Dingdong.StorageOutcome
import Dingdong.StorageRotation
import Dingdong.StorageRewrites
import Dingdong.StorageRetention
import Dingdong.StoreHistory
import Dingdong.EventSearches
import Dingdong.DateText
import Dingdong.SlotTable
import Dingdong.ListTable
import Dingdong.AttendanceCore
import Dingdong.AttendancePaired
import Dingdong.AttendanceToday
import Dingdong.WorkerCore
import Dingdong.WorkerRegistry
import Dingdong.WorkerCounter
import Dingdong.JsonTree
import Dingdong.JsonPrinted
import Dingdong.WorkerNames
import Dingdong.EventDebounce
import Dingdong.DebounceFilter
import Dingdong.BleCore
import Dingdong.BleSlots
import Dingdong.BleLinks
import Dingdong.BleLedger
import Dingdong.BleLog
import Dingdong.WifiGiveup
import Dingdong.StatusLed
import Dingdong.WorkerRaces
import Dingdong.WorkerHardDelete
import Dingdong.BlePairing
import Dingdong.BlePairingWindow
import Dingdong.BlePairingNumcmp
import Dingdong.BleAdvertising
import Dingdong.BleProbes
import Dingdong.BleRequests
import Dingdong.BleScanner
import Dingdong.BleEvidence
import Dingdong.BleProbeSpacing
import Dingdong.EventLatest
import Dingdong.AttendanceEvents
import Dingdong.AttendanceCalendar
import Dingdong.AttendanceWorkers
import Dingdong.AttendanceCsv
import Dingdong.AttendanceExport
import Dingdong.AttendanceReplies
import Dingdong.SessionCore
import Dingdong.SessionSet
import Dingdong.SessionCookies
import Dingdong.ConfigCore
import Dingdong.ConfigPassword
import Dingdong.DeviceCore
import Dingdong.ConfigUptime
import Dingdong.TimeSync
import Dingdong.HttpCore
import Dingdong.OtaUpdate
import Dingdong.HttpBackup
import Dingdong.HttpRoutes
import Dingdong.HttpBody
import Dingdong.HttpGuards
import Dingdong.HttpWrites
import Dingdong.HttpFootprint
import Dingdong.HttpLogins
import Dingdong.PairingRequests
import Dingdong.BootRecovery
import Dingdong.BootHistory
import Dingdong.FactoryReset
import Dingdong.BootButton
import Dingdong.WorkerNumbers
import Dingdong.BackupRestore
import Dingdong.BackupSize
import Dingdong.WorkerFaults
import Dingdong.DeviceRestarts
import Dingdong.PresenceAttendance
import Dingdong.PresenceLookup
import Dingdong.PresenceRestarts
import Dingdong.PresenceSilence
