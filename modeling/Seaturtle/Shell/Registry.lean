import Seaturtle.Url
import Seaturtle.Settings

/-! The shells of the browser process, the contexts they run in and who owns them. An address
stands for the object that was made there, and no other object gets its number: nobody is taken
to ask for an object by its address after its memory was given out again. (`ReentryRuns` has the
shells at addresses that are given out again.) -/
namespace Seaturtle

/-- A `ShellBrowserContext`: the singleton, or one made by `new`. -/
inductive BrowserContext where
  | global
  | isolated (n : Nat)
  deriving DecidableEq

structure WebContents where
  ptr : Nat
  browserContext : BrowserContext
  deriving DecidableEq

inductive LogEventType where
  | request
  | cookie
  | file
  | location
  | subResourceSslError
  deriving DecidableEq

structure LogEvent where
  type : LogEventType
  isBlocked : Bool
  description : Str
  deriving DecidableEq

structure Shell where
  ptr : Nat
  wc : WebContents
  /-- `sbc_`: null, or the context this shell is an owner of. -/
  sbc : Option BrowserContext
  parentShell : Nat
  log : List LogEvent := []
  deriving DecidableEq

inductive ShellCommand where
  | hide
  | cleanup
  | notifyLogEvent
  | notifyPopupOpened
  deriving DecidableEq

inductive ToJava where
  | shellCommand (nativeShell : Nat) (command : ShellCommand)
  | launchShellResponse (nativeShell nativeContents : Nat)
  deriving DecidableEq

structure Browser where
  settings : AllSettings
  allShells : List Shell := []
  /-- Contexts whose last owner is gone. -/
  destroyed : List BrowserContext := []
  nextContext : Nat := 0
  nextPtr : Nat := 0
  toJava : List ToJava := []
  deriving DecidableEq

namespace Browser

def forPtr (b : Browser) (ptr : Nat) : Option Shell := b.allShells.find? (·.ptr == ptr)

def forWebContents (b : Browser) (wc : Nat) : Option Shell :=
  b.allShells.find? (·.wc.ptr == wc)

def sendCommand (b : Browser) (shell : Nat) (command : ShellCommand) : Browser :=
  { b with toJava := b.toJava ++ [.shellCommand shell command] }

/-- `new Shell(web_contents)` and what `CreateShell` sets in it. -/
def createShell (b : Browser) (wc : WebContents) (parent : Nat) (sbc : Option BrowserContext) :
    Browser :=
  { b with
    allShells := b.allShells ++ [{ ptr := b.nextPtr, wc, sbc, parentShell := parent }]
    nextPtr := b.nextPtr + 1
    toJava := b.toJava ++ [.launchShellResponse b.nextPtr wc.ptr] }

def createWebContents (b : Browser) (context : BrowserContext) : WebContents × Browser :=
  (⟨b.nextPtr, context⟩, { b with nextPtr := b.nextPtr + 1 })

def launchShell (b : Browser) (parent : Nat) : Browser :=
  if b.settings.state.singleContext then
    let (wc, b) := b.createWebContents .global
    b.createShell wc parent none
  else
    let context := .isolated b.nextContext
    let (wc, b) := { b with nextContext := b.nextContext + 1 }.createWebContents context
    b.createShell wc parent (some context)

/-- `AddNewContents` up to the call of Java. The popup's owner is decided by the settings of this
moment. -/
def openPopup (b : Browser) (shell : Shell) (newContents : WebContents) : Browser :=
  let ownedSbc := if b.settings.state.singleContext then none else shell.sbc
  b.createShell newContents shell.ptr ownedSbc

def addNewContents (b : Browser) (shell : Shell) (newContents : WebContents) : Browser :=
  (b.openPopup shell newContents).sendCommand shell.ptr .notifyPopupOpened

/-- `linked_ptr`: the context goes with its last owner. -/
def releaseContext (b : Browser) : Option BrowserContext → Browser
  | none => b
  | some context =>
    if b.allShells.any (·.sbc == some context) then b
    else { b with destroyed := context :: b.destroyed }

def unregister (b : Browser) (shell : Shell) : Browser :=
  { b with allShells := b.allShells.eraseP (·.ptr == shell.ptr) }

/-- `~Shell` after its call of Java; `sbc_` is the last of the members to go. -/
def removeShell (b : Browser) (shell : Shell) : Browser :=
  (b.unregister shell).releaseContext shell.sbc

def destroyShell (b : Browser) (shell : Shell) : Browser :=
  (b.sendCommand shell.ptr .cleanup).removeShell shell

/-- With Java leaving the shells alone while it hides and cleans up this one. -/
def close (b : Browser) (shell : Shell) : Browser :=
  (b.sendCommand shell.ptr .hide).destroyShell shell

def updateGlobalSettings (b : Browser) (settings : AllSettings) : Browser :=
  { b with settings }

def logEvent (b : Browser) (shell : Shell) (type : LogEventType) (isBlocked : Bool)
    (description : Str) : Browser :=
  let logged (s : Shell) : Shell :=
    if s.ptr = shell.ptr then { s with log := s.log ++ [⟨type, isBlocked, description⟩] } else s
  { b with allShells := b.allShells.map logged }.sendCommand shell.ptr .notifyLogEvent

end Browser

namespace ShellRuns

/-- What the UI thread does to the registry. A popup's contents run in the context
of its opener, as content provides. -/
inductive Event where
  | launchShell (parent : Nat)
  | addNewContents (opener : Nat)
  | close (shell : Nat)
  | updateGlobalSettings (settings : AllSettings)
  deriving DecidableEq

def step (b : Browser) : Event → Option Browser
  | .launchShell parent => some (b.launchShell parent)
  | .addNewContents opener =>
    (b.forPtr opener).map fun shell =>
      let (newContents, b) := b.createWebContents shell.wc.browserContext
      b.addNewContents shell newContents
  | .close ptr => (b.forPtr ptr).map b.close
  | .updateGlobalSettings settings => some (b.updateGlobalSettings settings)

def initial (settings : AllSettings) : Browser := { settings }

end ShellRuns

end Seaturtle
