import PzServer.Updater.Progress
import PzServer.Updater.Sessions
import PzServer.Updater.Prepared
import PzServer.Updater.Rejected
import PzServer.Updater.Readers
import PzServer.Updater.Tidy
import PzServer.Updater.Atomicity
import PzServer.Updater.PlayerCount
import PzServer.Updater.Contention
import PzServer.WorldBackup.Kept
import PzServer.Updater.VdfRendering
import PzServer.Watchdog.Idle
import PzServer.Watchdog.Restart
import PzServer.Watchdog.Poweroff
import PzServer.Deploy.Coverage
import PzServer.Deploy.Resume
import PzServer.Backup.Retention
import PzServer.Backup.Recovery
import PzServer.Config.Render
import PzServer.Lifecycle.Authorized
import PzServer.Entrypoint.Status
import PzServer.Entrypoint.Stop
import PzServer.Launcher.Effective
import PzServer.Launcher.Extra
import PzServer.Launcher.Preserved
import PzServer.Launcher.Classified
import PzServer.Deploy.UnitGuard
import PzServer.Persistent.Status
import PzServer.Persistent.Written
import PzServer.Files.Scripts
import PzServer.Persistent.Refinement
import PzServer.Restore.Stages
