import Seaturtle.Shell.Registry

/-! The web preferences of the shells, and how `UpdateGlobalSettings` reaches them. -/
namespace Seaturtle

/-- The fields of `content::WebPreferences` that `UpdateWebPreferences` writes; it
leaves the others alone and reads none of them. -/
structure WebPreferences where
  javascriptEnabled : Bool
  webSecurityEnabled : Bool
  javascriptCanOpenWindowsAutomatically : Bool
  loadsImagesAutomatically : Bool
  imagesEnabled : Bool
  pluginsEnabled : Bool
  domPasteEnabled : Bool
  javaEnabled : Bool
  allowScriptsToCloseWindows : Bool
  remoteFontsEnabled : Bool
  xssAuditorEnabled : Bool
  dnsPrefetchingEnabled : Bool
  localStorageEnabled : Bool
  databasesEnabled : Bool
  applicationCacheEnabled : Bool
  hyperlinkAuditingEnabled : Bool
  allowUniversalAccessFromFileUrls : Bool
  allowFileAccessFromFileUrls : Bool
  webaudioEnabled : Bool
  experimentalWebglEnabled : Bool
  pepper3dEnabled : Bool
  flash3dEnabled : Bool
  flashStage3dEnabled : Bool
  flashStage3dBaselineEnabled : Bool
  privilegedWebglExtensionsEnabled : Bool
  accelerated2dCanvasEnabled : Bool
  acceleratedFiltersEnabled : Bool
  allowDisplayingInsecureContent : Bool
  allowRunningInsecureContent : Bool
  passwordEchoEnabled : Bool
  cookieEnabled : Bool
  pepperAcceleratedVideoDecodeEnabled : Bool
  userGestureRequiredForMediaPlayback : Bool
  deriving DecidableEq

def updateWebPreferences (as : AllSettings) (p : WebPreferences) : WebPreferences :=
  let swp := as.webPreferences
  { javascriptEnabled := swp.javascriptEnabled
    webSecurityEnabled := true
    javascriptCanOpenWindowsAutomatically := swp.javascriptCanOpenWindowsAutomatically
    loadsImagesAutomatically := swp.loadsImagesAutomatically
    imagesEnabled := swp.imagesEnabled
    pluginsEnabled := false
    domPasteEnabled := false
    javaEnabled := false
    allowScriptsToCloseWindows := false
    remoteFontsEnabled := swp.remoteFontsEnabled
    xssAuditorEnabled := true
    dnsPrefetchingEnabled := swp.dnsPrefetchingEnabled
    localStorageEnabled := swp.localStorageEnabled
    databasesEnabled := swp.databasesEnabled
    applicationCacheEnabled := swp.applicationCacheEnabled
    hyperlinkAuditingEnabled := true
    allowUniversalAccessFromFileUrls := false
    allowFileAccessFromFileUrls := false
    -- AND_SETTING: what the record had stays off
    webaudioEnabled := p.webaudioEnabled && swp.webaudioEnabled
    experimentalWebglEnabled := p.experimentalWebglEnabled && swp.experimentalWebglEnabled
    pepper3dEnabled := false
    flash3dEnabled := false
    flashStage3dEnabled := false
    flashStage3dBaselineEnabled := false
    privilegedWebglExtensionsEnabled := false
    accelerated2dCanvasEnabled := p.accelerated2dCanvasEnabled && swp.accelerated2dCanvasEnabled
    acceleratedFiltersEnabled := p.acceleratedFiltersEnabled && swp.acceleratedFiltersEnabled
    allowDisplayingInsecureContent := swp.allowDisplayingInsecureContent
    allowRunningInsecureContent := swp.allowRunningInsecureContent
    passwordEchoEnabled := false
    cookieEnabled := swp.cookieEnabled
    pepperAcceleratedVideoDecodeEnabled := false
    userGestureRequiredForMediaPlayback := swp.userGestureRequiredForMediaPlayback }

/-- `OverrideWebkitPrefs` of the content browser client. -/
def overrideWebkitPrefs (as : AllSettings) (p : WebPreferences) : WebPreferences :=
  updateWebPreferences as p

/-- The registry, and the preferences in force in the `RenderViewHost` of each
`WebContents`, which are the last it was given. -/
structure Tabs where
  browser : Browser
  webkitPreferences : HashMap Nat WebPreferences := .empty

namespace Tabs

/-- `Shell::UpdateWebPreferences`; `STNOTREACHED` where the contents have no host. -/
def updateShell (settings : AllSettings) (prefs : HashMap Nat WebPreferences) (shell : Shell) :
    Option (HashMap Nat WebPreferences) :=
  match prefs shell.wc.ptr with
  | none => none
  | some wp => some (prefs.set shell.wc.ptr (updateWebPreferences settings wp))

def updateAllWebPreferences (t : Tabs) : Option Tabs :=
  (t.browser.allShells.foldlM (updateShell t.browser.settings) t.webkitPreferences).map
    fun webkitPreferences => { t with webkitPreferences }

def updateGlobalSettings (t : Tabs) (settings : AllSettings) : Option Tabs :=
  { t with browser := t.browser.updateGlobalSettings settings }.updateAllWebPreferences

end Tabs

namespace TabPreferences

/-- New contents get the platform's record, passed once through `OverrideWebkitPrefs`. -/
def createRenderViewHost (base : WebPreferences) (t : Tabs) (browser : Browser) : Tabs :=
  { browser
    webkitPreferences :=
      t.webkitPreferences.set t.browser.nextPtr (overrideWebkitPrefs t.browser.settings base) }

def step (base : WebPreferences) (t : Tabs) : ShellRuns.Event → Option Tabs
  | .updateGlobalSettings settings => t.updateGlobalSettings settings
  | .launchShell parent =>
    (ShellRuns.step t.browser (.launchShell parent)).map (createRenderViewHost base t)
  | .addNewContents opener =>
    (ShellRuns.step t.browser (.addNewContents opener)).map (createRenderViewHost base t)
  | .close shell =>
    (ShellRuns.step t.browser (.close shell)).map fun browser => { t with browser }

def initial (settings : AllSettings) : Tabs := { browser := ShellRuns.initial settings }

end TabPreferences

end Seaturtle
