import TrojanRs.Wire
import TrojanRs.Wintun.Connection
import TrojanRs.Wintun.Outbound
import TrojanRs.Wintun.Inbound
import TrojanRs.Wintun.Lifecycle
import TrojanRs.Wintun.Token
import TrojanRs.Wintun.Server
import TrojanRs.Wintun.Index
import TrojanRs.Wintun.TokenReuse
import TrojanRs.Wintun.Timeout
import TrojanRs.Wintun.Served
import TrojanRs.Wintun.Replies
import TrojanRs.Wintun.Forwarding
import TrojanRs.Proxy.NetProfiler
import TrojanRs.Proxy.Decode
import TrojanRs.Proxy.Rows
import TrojanRs.Proxy.Timing
import TrojanRs.Proxy.Update
import TrojanRs.Proxy.Probe
import TrojanRs.Proxy.Decision
import TrojanRs.Proxy.Condition
import TrojanRs.Mobile.Android
import TrojanRs.Proxy.Routine
import TrojanRs.Proxy.Verdict
import TrojanRs.Client.Supervisor
import TrojanRs.Client.Shutdown
