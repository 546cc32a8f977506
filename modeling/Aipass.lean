import Aipass.Vault.Recovery
import Aipass.Vault.Defaults
import Aipass.Sync.MergeBase
import Aipass.Sync.Offline
import Aipass.Conversion.ResponsesStream
import Aipass.Proxy.Transparency
import Aipass.Conversion.ToolAdjacency
import Aipass.Conversion.UsageKept
import Aipass.Pricing.Repricing
import Aipass.Proxy.StaleSuccess
import Aipass.Proxy.Cuts
import Aipass.Proxy.Fairness
import Aipass.ConfigWriters.Atomicity
import Aipass.ConfigWriters.Reactivation
import Aipass.ConfigWriters.Interruption
import Aipass.Websocket.SwitchedOff
import Aipass.Accounting.Exact
import Aipass.ControlPanel.Safety
import Aipass.Search.Loop
import Aipass.Bridge.ProviderState
import Aipass.Claude.Sessions
import Aipass.Replay.Lost
import Aipass.ConfigWriters.ShellPreviews
import Aipass.Updates.AllOrNothing
import Aipass.Claude.SearchRounds
import Aipass.Providers.Fragments
import Aipass.Images.Accounted
import Aipass.ControlPanel.Redacted
import Aipass.Records.Reached
