import WriteWise.Library.Runs
import WriteWise.SerialStream
import WriteWise.TypingSession
import WriteWise.Program
import WriteWise.Steps
import WriteWise.RunInvariant
import WriteWise.TestEnd
import WriteWise.EditHistory
import WriteWise.RaceRelation
import WriteWise.RaceIsolation
import WriteWise.TextAgreement
import WriteWise.ReadyFlags
import WriteWise.RaceStart
import WriteWise.SinglePress
import WriteWise.RaceWinner
import WriteWise.Fifo
import WriteWise.RaceSteps
import WriteWise.RunningRace
import WriteWise.Countdown
import WriteWise.LeaveRace
import WriteWise.Sending
import WriteWise.AckWait
import WriteWise.FailedRead
import WriteWise.AbortedSend
import WriteWise.Data
import WriteWise.TextGeneration
import WriteWise.ExtendedKeys
import WriteWise.ModifierKeys
import WriteWise.WayOut
import WriteWise.Video
import WriteWise.VisibleMistakes
import WriteWise.WordLines
import WriteWise.ScreenFit
import WriteWise.FrameCursor
import WriteWise.Mouse
import WriteWise.SpriteMotion
import WriteWise.Pattern
import WriteWise.Policies
import WriteWise.Gesture
import WriteWise.Pointer
import WriteWise.Clicks
import WriteWise.ApplicationRun
import WriteWise.Ending
import WriteWise.ClickEffect
import WriteWise.RaceVictory
import WriteWise.Picture
import WriteWise.ShownTime
import WriteWise.Notification
import WriteWise.Rematch
import WriteWise.MemoryUse
