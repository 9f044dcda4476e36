import ShareFrame.Lib.Machine
import ShareFrame.Lib.Urn
import ShareFrame.Settings.RuntimeSettings
import ShareFrame.Settings.PlaybackOrder
import ShareFrame.Settings.ShuffleBag
import ShareFrame.Display.RegistrationWindow
import ShareFrame.Util.Clock
import ShareFrame.Net.Download
import ShareFrame.Update.Safety
import ShareFrame.Update.Ending
import ShareFrame.Task.Loop.Signals
import ShareFrame.Task.Loop.MissingFiles
import ShareFrame.Task.Loop.Cancelled
import ShareFrame.Task.Manager.Restart
import ShareFrame.Lib.Interaction
import ShareFrame.Util.Json
import ShareFrame.Net.WebsocketClient
import ShareFrame.Net.SendQueue
import ShareFrame.Task.Remote.Answers
import ShareFrame.Task.Remote.Reboot
import ShareFrame.Task.Remote.Install
import ShareFrame.Lib.Discipline
import ShareFrame.Dashboard.Bodies
import ShareFrame.Dashboard.Access
import ShareFrame.Dashboard.Guesses
import ShareFrame.Display.Spacing
import ShareFrame.Display.Shutdown.Picture
import ShareFrame.Display.Commands
import ShareFrame.Dashboard.SettingsUpdates
import ShareFrame.Display.StoredSettings
import ShareFrame.Image.Crash
import ShareFrame.Image.Expiry
import ShareFrame.Auth.AuthTokenManager
import ShareFrame.Ipc.NngRepServer
import ShareFrame.Events.EventBus
import ShareFrame.Task.Stop
import ShareFrame.Net.Registration
import ShareFrame.Net.PendingPackage
import ShareFrame.Task.Heartbeat
import ShareFrame.Task.Remote.Expiry
import ShareFrame.Task.Loop.DailyClear
import ShareFrame.Net.Requests
import ShareFrame.Settings.Arranged
import ShareFrame.Task.Loop.Rounds
import ShareFrame.Task.Loop.Repeats
import ShareFrame.Update.VersionOrder
import ShareFrame.Settings.NightTiming
import ShareFrame.Task.WifiModeWatcher
import ShareFrame.Task.Setup.Retry
import ShareFrame.Dashboard.Numbers
import ShareFrame.Dashboard.Cookies
import ShareFrame.Task.CursorFile
import ShareFrame.Image.Complete
import ShareFrame.Net.ServerContact
import ShareFrame.Db.MigrationRunner
import ShareFrame.Lib.Words
import ShareFrame.Display.PanelText
import ShareFrame.Display.DecodeUtf8
import ShareFrame.Lib.Diffusion
import ShareFrame.Display.PhotoRenderer
import ShareFrame.Lib.Escape
import ShareFrame.Display.WifiQr
import ShareFrame.Image.FileName
import ShareFrame.Lib.Bits
import ShareFrame.Auth.FrameIdentity
import ShareFrame.Display.Canvas
import ShareFrame.Lib.Delimited
import ShareFrame.Util.Stringify
import ShareFrame.Frontend.FrameLogs
import ShareFrame.Lib.Places
import ShareFrame.Lib.Turns
import ShareFrame.Frontend.SlideshowOperation
import ShareFrame.Frontend.OneOperation
import ShareFrame.Frontend.OperationRuns
import ShareFrame.Frontend.Timers
import ShareFrame.Frontend.TimerActions
import ShareFrame.Frontend.TimersAgree
import ShareFrame.Task.ImageUpdate
import ShareFrame.Task.Requests
import ShareFrame.Ipc.EventBridge
import ShareFrame.Util.Subprocess
import ShareFrame.Dashboard.Commands
import ShareFrame.Task.Remote.Queue
import ShareFrame.Dashboard.StoredPassword
import ShareFrame.Dashboard.Outputs
import ShareFrame.Dashboard.Replies
import ShareFrame.Display.QrLayout
import ShareFrame.Config.ConfigLoader
