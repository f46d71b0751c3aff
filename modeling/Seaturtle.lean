import Seaturtle.Block.Soundness
import Seaturtle.Block.Storage
import Seaturtle.Cookies.OneStore
import Seaturtle.Cookies.Persistence
import Seaturtle.Dialog.Answers
import Seaturtle.Dialog.Crossing
import Seaturtle.Https.Completeness
import Seaturtle.Https.Redirects
import Seaturtle.Https.Repeats
import Seaturtle.Https.Storage
import Seaturtle.Net.Delegate
import Seaturtle.Proxy.Convergence
import Seaturtle.Proxy.Observers
import Seaturtle.Shell.Isolation
import Seaturtle.Shell.StickyPreferences
import Seaturtle.Cookies.Deletion
import Seaturtle.Shell.BrowserProcess
import Seaturtle.Shell.Favorites
import Seaturtle.Shell.Clearing
import Seaturtle.Dialog.Callbacks
import Seaturtle.Net.Fetcher
import Seaturtle.Net.RequestLog
import Seaturtle.Shell.Attribution
import Seaturtle.Shell.Certificates
import Seaturtle.Block.Selectors
import Seaturtle.Net.KryptonJob
import Seaturtle.Https.Precedence
import Seaturtle.Https.Hosts
import Seaturtle.Shell.Favicon
import Seaturtle.RuleFiles
import Seaturtle.Block.Injection
import Seaturtle.Shell.Journal
import Seaturtle.Shell.Survival
import Seaturtle.Shell.Privacy
import Seaturtle.Net.Policy
import Seaturtle.Block.Children
import Seaturtle.Cookies.Restarts
import Seaturtle.Shell.Services
import Seaturtle.Dialog.Tabs
import Seaturtle.Shell.Pictures
import Seaturtle.Dialog.Lifetimes
