import SyslogDtlsAgent.Library.Machine
import SyslogDtlsAgent.Core.Config
import SyslogDtlsAgent.Core.Framing
import SyslogDtlsAgent.Core.Relay
import SyslogDtlsAgent.Proof.Relay.Fifo
import SyslogDtlsAgent.Proof.Sources.Books
import SyslogDtlsAgent.Proof.Relay.SourceLedger
import SyslogDtlsAgent.Proof.Sources.Windows
import SyslogDtlsAgent.Proof.Relay.Access
import SyslogDtlsAgent.Proof.Relay.Transport
import SyslogDtlsAgent.Proof.Framing.Message
import SyslogDtlsAgent.Proof.Login.Flows
import SyslogDtlsAgent.Proof.Web.Guards
import SyslogDtlsAgent.Proof.Login.Bounds
import SyslogDtlsAgent.Proof.Login.Handoff
import SyslogDtlsAgent.Proof.Config.Validate
import SyslogDtlsAgent.Proof.Relay.Backoff
import SyslogDtlsAgent.Proof.Config.Paths
import SyslogDtlsAgent.Proof.Login.Groups
import SyslogDtlsAgent.Proof.Relay.Pacing
import SyslogDtlsAgent.Proof.Config.Save
import SyslogDtlsAgent.Proof.Web.Host
import SyslogDtlsAgent.Proof.Config.Serde
import SyslogDtlsAgent.Proof.Web.Whole
import SyslogDtlsAgent.Proof.Login.Redaction
import SyslogDtlsAgent.Proof.Framing.Total
import SyslogDtlsAgent.Proof.Framing.Octets
import SyslogDtlsAgent.Proof.Login.Cookies
import SyslogDtlsAgent.Proof.Login.Expiry
import SyslogDtlsAgent.Proof.Relay.Lookup
import SyslogDtlsAgent.Proof.Web.Attribute
import SyslogDtlsAgent.Proof.Ui.Form
import SyslogDtlsAgent.Proof.Relay.Shutdown
import SyslogDtlsAgent.Proof.Dtls.Delivery
import SyslogDtlsAgent.Proof.Process.Logins
import SyslogDtlsAgent.Proof.Process.Signals
import SyslogDtlsAgent.Proof.Desktop.Relays
import SyslogDtlsAgent.Proof.Relay.Recovery
import SyslogDtlsAgent.Proof.Relay.Columns
import SyslogDtlsAgent.Proof.Relay.Report
import SyslogDtlsAgent.Proof.Login.Honest
