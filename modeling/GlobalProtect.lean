import GlobalProtect.Service.Lifecycle.Ownership
import GlobalProtect.Service.Lifecycle.Published
import GlobalProtect.Service.Lifecycle.Restart
import GlobalProtect.Service.Attachment
import GlobalProtect.Service.Runtime
import GlobalProtect.Client.Sessions
import GlobalProtect.Native.CommandPipe
import GlobalProtect.Native.Observation
import GlobalProtect.Native.Script
import GlobalProtect.Auth.WaitForAuth
import GlobalProtect.Hip.Approval.Safety
import GlobalProtect.Process.Trusted
import GlobalProtect.Service.Requests
import GlobalProtect.Widget.Reattach
import GlobalProtect.Widget.StatusLines
import GlobalProtect.Desktop.Preference
import GlobalProtect.Service.Registry.Preview
import GlobalProtect.Service.Fitting
import GlobalProtect.Tunnel.Completeness
import GlobalProtect.Utils.Redact
import GlobalProtect.Portal.Ordering
import GlobalProtect.Client.Extension
import GlobalProtect.Utils.LockFile
import GlobalProtect.Utils.RedactUri
import GlobalProtect.Auth.Callback
import GlobalProtect.Auth.MimeDefaults
import GlobalProtect.Session.Transport
import GlobalProtect.Client.CookieOnly
import GlobalProtect.Client.Diagnostics
import GlobalProtect.Client.LogCapture
import GlobalProtect.Desktop.Network
import GlobalProtect.Service.VpncScript
import GlobalProtect.Service.Anchor.Convergence
import GlobalProtect.Service.GuiUpdate
import GlobalProtect.Service.Previews
import GlobalProtect.Service.Transport
import GlobalProtect.Client.Background
import GlobalProtect.Process.Supervision
import GlobalProtect.Process.RenderingRecovery
