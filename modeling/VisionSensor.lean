import VisionSensor.Core.Decimal
import VisionSensor.Core.Types
import VisionSensor.Detect.FilterBBox
import VisionSensor.Detect.Geometry
import VisionSensor.Detect.Inference
import VisionSensor.Detect.Localizer
import VisionSensor.Detect.MotionDetection
import VisionSensor.Detect.OccupancyTest
import VisionSensor.Detect.OneSpotEach
import VisionSensor.Detect.PointSets
import VisionSensor.Detect.Suppression
import VisionSensor.Lib.BitString
import VisionSensor.Lib.Calendar
import VisionSensor.Lib.ChunkedStream
import VisionSensor.Lib.Debouncer
import VisionSensor.Lib.FairTurns
import VisionSensor.Lib.FirstMax
import VisionSensor.Lib.FuelLoop
import VisionSensor.Lib.GuardedRun
import VisionSensor.Lib.HalfEven
import VisionSensor.Lib.KeyedTable
import VisionSensor.Lib.MarkedText
import VisionSensor.Lib.PairSweep
import VisionSensor.Lib.Reporter
import VisionSensor.Lib.SetOverlap
import VisionSensor.Lib.SpillQueue
import VisionSensor.Lib.SqlLiteral
import VisionSensor.Lib.SqlQuoting
import VisionSensor.Lib.SqlSelect
import VisionSensor.Lib.SqlStatement
import VisionSensor.Lib.SqlTokens
import VisionSensor.Lib.StableSort
import VisionSensor.Lib.Unwind
import VisionSensor.Main.Arrival
import VisionSensor.Main.Console
import VisionSensor.Main.ConsoleSafety
import VisionSensor.Main.FrameLoop
import VisionSensor.Main.Light
import VisionSensor.Main.Pictures
import VisionSensor.Main.Reporting
import VisionSensor.Main.Sensor
import VisionSensor.Main.SensorThreads
import VisionSensor.Main.ServerView
import VisionSensor.Main.System
import VisionSensor.Main.Uplink
import VisionSensor.Management.FairHandshake
import VisionSensor.Management.Handshake
import VisionSensor.Management.Listener
import VisionSensor.Management.LoadSettings
import VisionSensor.Management.MalformedEntries
import VisionSensor.Management.Parameters
import VisionSensor.Management.PolicyBounds
import VisionSensor.Management.PropertyTree
import VisionSensor.Management.ReceiveBuffer
import VisionSensor.Management.Restart
import VisionSensor.Management.Segmentation
import VisionSensor.Management.Session
import VisionSensor.Management.Settings
import VisionSensor.Management.SpotDatabase
import VisionSensor.Management.SpotFile
import VisionSensor.Management.SpotList
import VisionSensor.Management.SpotLoader
import VisionSensor.Management.SpotManager
import VisionSensor.Management.SpotOperations
import VisionSensor.Management.SpotRows
import VisionSensor.Management.SpotStatements
import VisionSensor.Management.SpotTable
import VisionSensor.Management.TimeLimit
import VisionSensor.Management.Welcome
import VisionSensor.Plate.DigitRows
import VisionSensor.Plate.ParseDigits
import VisionSensor.Plate.PlateErrors
import VisionSensor.Plate.PlateString
import VisionSensor.Plate.Recognition
import VisionSensor.Plate.ReportedBoxes
import VisionSensor.Plate.Validator
import VisionSensor.Queue.Conservation
import VisionSensor.Queue.FileName
import VisionSensor.Queue.ForeignFiles
import VisionSensor.Queue.Message
import VisionSensor.Queue.MessageQueue
import VisionSensor.Queue.SpotOrder
import VisionSensor.Reservation.EntVehicle
import VisionSensor.Reservation.Interleaving
import VisionSensor.Reservation.Minutes
import VisionSensor.Reservation.Queries
import VisionSensor.Reservation.Usable
import VisionSensor.Spot.Alternation
import VisionSensor.Spot.EntryCrop
import VisionSensor.Spot.Hysteresis
import VisionSensor.Spot.Observation
import VisionSensor.Spot.Overstay
import VisionSensor.Spot.OverstayTime
import VisionSensor.Spot.ParkingSpot
import VisionSensor.Spot.Responsiveness
import VisionSensor.Spot.TimerThread
import VisionSensor.Upload.Base64
import VisionSensor.Upload.Delivery
import VisionSensor.Upload.HttpRequest
import VisionSensor.Upload.HttpResponse
import VisionSensor.Upload.MessageTree
import VisionSensor.Upload.ServerNetworkHandler
import VisionSensor.Upload.ServerSettings
import VisionSensor.Video.ClockSetBack
import VisionSensor.Video.FrameIndexer
import VisionSensor.Video.FrameKeys
import VisionSensor.Video.MonotoneClock
import VisionSensor.Video.SerialVideoReader
