import RtpMux.Basic
import RtpMux.HashMap
import RtpMux.Machine
import RtpMux.Admission
import RtpMux.LaneAccept
import RtpMux.LaneStep
import RtpMux.Accounting
import RtpMux.Pairing
import RtpMux.Parking
import RtpMux.WriteHalf
import RtpMux.WriteStream
import RtpMux.CleanEnd
import RtpMux.Group
import RtpMux.GroupSafety
import RtpMux.Connector
import RtpMux.ConnectorQuiet
import RtpMux.ConnectorStep
import RtpMux.Dials
import RtpMux.Requests
import RtpMux.TwoGenerations
import RtpMux.Generations
import RtpMux.Migration
import RtpMux.Stranding
import RtpMux.AddressGroups
import RtpMux.Margin
import RtpMux.PathExplorer
import RtpMux.ExpiryWorker
import RtpMux.GroupRebind
import RtpMux.RebindMailbox
import RtpMux.FlushBarrier
import RtpMux.RedialKey
import RtpMux.ShutdownProtocol
import RtpMux.Reservations
import RtpMux.LaneOutcome
import RtpMux.ServeLoop
import RtpMux.Tools.Pyre
import RtpMux.Tools.PyreResults
import RtpMux.Iteration
import RtpMux.Tools.PyreDenotation
import RtpMux.Tools.PyreWords
import RtpMux.Tools.Text
import RtpMux.Tools.CellGrammar
import RtpMux.Tools.PyreCaptures
import RtpMux.Tools.MandateLines
import RtpMux.Tools.MandateGrammar
import RtpMux.Tools.MandateWalk
import RtpMux.Tools.PerfHistory
import RtpMux.Splits
import RtpMux.Tools.Json
import RtpMux.Tools.MustRun
import RtpMux.Sorted
import RtpMux.Tools.PerfRows
import RtpMux.Tools.PerfRelations
import RtpMux.Tools.PerfMembership
import RtpMux.Tools.MandateReport
import RtpMux.Tools.MandateArm
import RtpMux.Tools.MandateCompare
import RtpMux.Tools.RustStrip
import RtpMux.Tools.RustLexing
import RtpMux.ProbeAccounting
import RtpMux.Numerals
import RtpMux.Tools.HtmlEntities
import RtpMux.Tools.PyFormat
import RtpMux.Tools.PyFormatStr
import RtpMux.Tools.PyFormatWidth
import RtpMux.Tools.PyFormatSpec
import RtpMux.Tools.PyreIter
import RtpMux.Tools.PyreDot
import RtpMux.Tools.PyreParser
import RtpMux.Tools.PyreDotText
import RtpMux.JsonTree
import RtpMux.Tools.JsonReader
import RtpMux.Tools.JsonEval
import RtpMux.Tools.JsonWriter
import RtpMux.Tools.JsonNumbers
import RtpMux.Tools.JsonCodec
import RtpMux.Tools.PyJsonFloats
import RtpMux.Tools.PyJson
import RtpMux.Tools.PyJsonGrammar
import RtpMux.CandidatePool
import RtpMux.StreamGauge
import RtpMux.WriterPurge
import RtpMux.VectoredWrite
import RtpMux.FixedWidth
import RtpMux.Tools.MandateCells
import RtpMux.Tools.PerfArchive
import RtpMux.Tools.ArmLines
import RtpMux.Tools.ArmWalk
import RtpMux.Search
import RtpMux.Tools.Imports
import RtpMux.Tools.CallGraph
import RtpMux.Tools.ImportBraces
import RtpMux.Passes
import RtpMux.Tools.Forwarders
import RtpMux.Tools.KeyPositions
import RtpMux.Tools.CsvLine
import RtpMux.Tools.PyFormatInt
import RtpMux.Tools.PyreFrame
import RtpMux.Tools.LoadExpression
import RtpMux.Tools.PyNumbers
import RtpMux.Tools.PyFormatBody
import RtpMux.Calendar
import RtpMux.PayloadPattern
import RtpMux.Tools.CivilDates
import RtpMux.PrefixCode
import RtpMux.Tools.PyJsonCanonical
import RtpMux.Tools.JsonAgreement
import RtpMux.Tools.EnvReads
import RtpMux.Tools.EnvReadBodies
import RtpMux.DriverScope
import RtpMux.DriverShutdown
import RtpMux.RejectionWindows
import RtpMux.AcceptStreaks
import RtpMux.BindPair
import RtpMux.ByteCount
import RtpMux.ReadSide
import RtpMux.Tools.PanelReceipts
