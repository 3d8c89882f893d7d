import Sntp.ToMathlib.FixedPoint
import Sntp.ToMathlib.ListHistory
import Sntp.ToMathlib.Decimal
import Sntp.Math.Gregorian
import Sntp.Machine.ByteOrder
import Sntp.Machine.Memory
import Sntp.Machine.Program
import Sntp.Machine.Lockstep
import Sntp.Machine.Resources
import Sntp.Machine.Fuel
import Sntp.Machine.Budget
import Sntp.Machine.Getopt
import Sntp.Machine.OptionWords
import Sntp.Model.Time
import Sntp.Model.HumanReadable
import Sntp.Model.NetworkOrder
import Sntp.Model.Packet
import Sntp.Model.Address
import Sntp.Model.Receive
import Sntp.Model.Server
import Sntp.Model.ClientPacket
import Sntp.Model.Environment
import Sntp.Model.ClientNetwork
import Sntp.Model.UnicastMode
import Sntp.Model.Manycast
import Sntp.Model.ClientMain
import Sntp.Model.ConfigFile
import Sntp.Model.ClientSettings
import Sntp.Model.ServerNetwork
import Sntp.Model.Deployment
import Sntp.Model.InetAddr
import Sntp.Model.ServerMain
import Sntp.Proofs.TimeCodec
import Sntp.Proofs.PacketChecks
import Sntp.Proofs.ClientNetwork
import Sntp.Proofs.UnicastSteps
import Sntp.Proofs.UnicastLockstep
import Sntp.Proofs.Observations
import Sntp.Proofs.ManycastSteps
import Sntp.Proofs.MainSteps
import Sntp.Proofs.RetryTurns
import Sntp.Proofs.CommandLine
import Sntp.Proofs.InetAddr
import Sntp.Soundness.QueriedServer
import Sntp.Soundness.Discovery
import Sntp.Soundness.ClientMachine
import Sntp.Soundness.PollTimer
import Sntp.Soundness.PollInterval
import Sntp.Soundness.FreshReply
import Sntp.Soundness.QueriedAddress
import Sntp.Math.OffsetEstimate
import Sntp.Soundness.Responder
import Sntp.Soundness.Exchange
import Sntp.Soundness.ReceiveFrame
import Sntp.Soundness.TimestampCodec
import Sntp.Soundness.Truncated
import Sntp.Soundness.TableRoom
import Sntp.Soundness.Averages
import Sntp.Soundness.ReplyStorm
import Sntp.Soundness.RetryLoop
import Sntp.Soundness.Precedence
import Sntp.Soundness.Uninitialised
import Sntp.Soundness.OpenSockets
import Sntp.Soundness.ParseLoop
import Sntp.Soundness.CommandLine
import Sntp.Soundness.UnsetTimer
import Sntp.Soundness.PrintedTime
import Sntp.Soundness.SampleOrigin
import Sntp.Soundness.Provenance
import Sntp.Soundness.GenuineSample
import Sntp.Soundness.ClientEnds
import Sntp.Soundness.RequestBudget
import Sntp.Soundness.ServerProgram
import Sntp.Soundness.ManycastGroup
import Sntp.Soundness.ErrorMessages
import Sntp.Soundness.Statistics
import Sntp.Machine.Munch
import Sntp.Soundness.ConfigReading
import Sntp.Machine.Coroutine
import Sntp.ToMathlib.ListLex
import Sntp.Soundness.ConfigRoundTrip
import Sntp.Soundness.ConfigLookup
import Sntp.Soundness.SettingsFile
import Sntp.Soundness.ConfigFixedPoint
