import ZondDaemon.Scans.Recorded
import ZondDaemon.Scans.Reconnect
import ZondDaemon.Scans.Cause
import ZondDaemon.Scans.Tail
import ZondDaemon.Scans.Wake
import ZondDaemon.Scans.Gaps
import ZondDaemon.Start.AuditFile
import ZondDaemon.Daemon.Held
import ZondDaemon.Daemon.Room
import ZondDaemon.Daemon.Residue
import ZondDaemon.Start.Resume
import ZondDaemon.Start.Allowed
import ZondDaemon.Start.Full
import ZondDaemon.Start.Carried
import ZondDaemon.Daemon.Masking
import ZondDaemon.Daemon.Masked
import ZondDaemon.Stdio.Speak
import ZondDaemon.Stdio.Absent
import ZondDaemon.Stdio.Written
import ZondDaemon.Id
import ZondDaemon.Listen
import ZondDaemon.Server.Watched
import ZondDaemon.Server.Started
import ZondDaemon.Server.Spoken
import ZondDaemon.Server.Unread
import ZondDaemon.Server.Listed
import ZondDaemon.Server.Contained
import ZondDaemon.Server.Unrecorded
import ZondDaemon.Client.Zond
import ZondDaemon.Client.Followed
