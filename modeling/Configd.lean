import Configd.Cache.ConfigCache
import Configd.ConfigMgr.Isolation
import Configd.ConfigMgr.LdapValues
import Configd.ConfigMgr.LoadMisc
import Configd.ConfigMgr.PlanHostSpec
import Configd.ConfigMgr.Restriction
import Configd.Daemon.Changes
import Configd.Daemon.Directives
import Configd.Daemon.Disabled
import Configd.Daemon.Hooked
import Configd.Daemon.Listener
import Configd.Daemon.Secrets
import Configd.Daemon.Tracking
import Configd.Fileutil.Replace
import Configd.Ldap.Modify
import Configd.Ldap.Pool
import Configd.LdapWatch.Notifications
import Configd.LocalConfig.Format
import Configd.LocalConfig.Print
import Configd.LocalConfig.Writer
import Configd.Parser.Observed
import Configd.Plan.Merge
import Configd.Proxy.Explode
import Configd.Proxy.Format
import Configd.Restart.PolicyRuns
import Configd.Services.Reach
import Configd.Services.Rounds
import Configd.Transformer.OneLine
import Configd.Watchdog.Loops
