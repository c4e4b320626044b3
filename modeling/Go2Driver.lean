import Go2Driver.Lib.Runs
import Go2Driver.Lib.Tables
import Go2Driver.Lib.Networks
import Go2Driver.Lib.Timing
import Go2Driver.Lib.Matching
import Go2Driver.Lib.Rotations
import Go2Driver.Json
import Go2Driver.ApiClient
import Go2Driver.ApiClientLaws
import Go2Driver.Correlation
import Go2Driver.CallFate
import Go2Driver.Isolation
import Go2Driver.Deferred
import Go2Driver.SportBridge
import Go2Driver.SportHandlers
import Go2Driver.SportSteps
import Go2Driver.Sequencer
import Go2Driver.Transitions
import Go2Driver.ModeSequence
import Go2Driver.Answers
import Go2Driver.RobotStateBridge
import Go2Driver.Truthful
import Go2Driver.Descriptions
import Go2Driver.Renaming
import Go2Driver.Refusals
import Go2Driver.NonInterference
import Go2Driver.Agreement
import Go2Driver.Driver
import Go2Driver.DriverLaws
import Go2Driver.OdomAtomic
import Go2Driver.CloudStamps
import Go2Driver.MotionCommands
import Go2Driver.ReplyReaders
import Go2Driver.AnyExit
import Go2Driver.CallAtomic
import Go2Driver.Sweeps
import Go2Driver.TfChain
import Go2Driver.Wire
import Go2Driver.Executed
import Go2Driver.Deadlines
import Go2Driver.InTime
import Go2Driver.Progress
import Go2Driver.Traffic
import Go2Driver.RobotAnswers
import Go2Driver.AtOnce
import Go2Driver.Streams
import Go2Driver.NodeClock
