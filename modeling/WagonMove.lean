import WagonMove.Prog
import WagonMove.Trace
import WagonMove.EaseOut
import WagonMove.Finds
import WagonMove.Strides
import WagonMove.Ini
import WagonMove.Spaced
import WagonMove.MarkerMachine
import WagonMove.ColorText
import WagonMove.CachedSearch
import WagonMove.SlowScan
import WagonMove.ScreenReads
import WagonMove.KeyDiscipline
import WagonMove.Endings
import WagonMove.Rotation
import WagonMove.CenterTaps
import WagonMove.Startup
import WagonMove.StopVerdict
import WagonMove.SignalFile
import WagonMove.SignalText
import WagonMove.SignalRuns
import WagonMove.Alike
import WagonMove.RunCourse
import WagonMove.Sessions
import WagonMove.Steering
import WagonMove.CenterSteering
import WagonMove.CycleCenter
import WagonMove.Budget
import WagonMove.Deadline
import WagonMove.Emits
import WagonMove.FlowWords
import WagonMove.FlowLanguage
import WagonMove.RunLanguage
import WagonMove.FlowCounts
import WagonMove.Quoting
import WagonMove.Updater
import WagonMove.UpdaterPaths
import WagonMove.UpdaterStages
import WagonMove.UpdaterSteps
import WagonMove.UpdaterSafety
import WagonMove.UpdaterPauses
import WagonMove.RamTrim
import WagonMove.RamTrimCycle
import WagonMove.RamTrimLife
