import Ctrlproxy.Lib.Outcome
import Ctrlproxy.Lib.Heap
import Ctrlproxy.Lib.Lists
import Ctrlproxy.Lib.Assoc
import Ctrlproxy.Lib.Cells
import Ctrlproxy.Lib.Search
import Ctrlproxy.Lib.Place
import Ctrlproxy.Lib.Columns
import Ctrlproxy.Lib.Stream
import Ctrlproxy.Base.Casemap
import Ctrlproxy.Base.Announce
import Ctrlproxy.Base.Parse
import Ctrlproxy.State.Membership
import Ctrlproxy.State.Hostmask
import Ctrlproxy.State.ModeBounds
import Ctrlproxy.State.ModeString
import Ctrlproxy.State.Nicks
import Ctrlproxy.State.Totality
import Ctrlproxy.State.Rename
import Ctrlproxy.State.Alignment
import Ctrlproxy.State.Refresh
import Ctrlproxy.State.Numerics
import Ctrlproxy.State.Masks
import Ctrlproxy.Redirect.Discipline
import Ctrlproxy.Redirect.Ctcp
import Ctrlproxy.Redirect.Answer
import Ctrlproxy.Transport.Fifo
import Ctrlproxy.Transport.Watches
import Ctrlproxy.Transport.Receive
import Ctrlproxy.Client.Netsplit
import Ctrlproxy.Client.Transfer
import Ctrlproxy.Client.Patched
import Ctrlproxy.Client.Wire
import Ctrlproxy.Client.Lookups
import Ctrlproxy.Client.Replace
import Ctrlproxy.Client.Rows
import Ctrlproxy.Client.Prefixes
import Ctrlproxy.Connection.Lifecycle
import Ctrlproxy.Connection.Rotation
import Ctrlproxy.Listener.Fields
import Ctrlproxy.Linestack.RoundTrip
import Ctrlproxy.Linestack.Failures
import Ctrlproxy.Linestack.Reopen
import Ctrlproxy.Linestack.Replay
import Ctrlproxy.Listener.Password
import Ctrlproxy.Listener.Receive
import Ctrlproxy.Listener.Login
import Ctrlproxy.Client.CachedModes
import Ctrlproxy.Client.CachedWho
import Ctrlproxy.Proxy.Isolation
import Ctrlproxy.Proxy.Learning
import Ctrlproxy.Proxy.Pipeline
import Ctrlproxy.Proxy.AutoAway
import Ctrlproxy.Proxy.Replication
import Ctrlproxy.Proxy.Hub
import Ctrlproxy.Config.Networks
import Ctrlproxy.Config.Servers
import Ctrlproxy.Config.Joined
import Ctrlproxy.Log.Mapping
import Ctrlproxy.Log.Subst
import Ctrlproxy.Log.Support
import Ctrlproxy.Admin.Help
import Ctrlproxy.Admin.Agreement
