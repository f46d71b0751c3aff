import Seaturtle.Shell.Registry

/-! The JavaScript dialogs of a shell. A callback is known by the number of the
dialog it was given for. Texts are UTF-8 on both sides of the bridge. -/
namespace Seaturtle

inductive JsMessageType where
  | alert
  | confirm
  | prompt
  | beforeUnload
  deriving DecidableEq

/-- `content::JavaScriptMessageType`; it has no other values. -/
inductive JavaScriptMessageType where
  | alert
  | confirm
  | prompt
  deriving DecidableEq

structure JavascriptDialog where
  nativeWebContents : Nat
  url : Str := []
  acceptLang : Str := []
  messageType : JsMessageType
  text : Str := []
  prompt : Str := []
  isReload : Bool := false
  deriving DecidableEq

structure JavascriptDialogClosed where
  nativeWebContents : Nat
  success : Bool
  text : Str
  deriving DecidableEq

abbrev DialogClosedCallback := Nat

structure ShellJavaScriptDialogManager where
  lastCallback : Option DialogClosedCallback := none
  deriving DecidableEq

/-- `jdm_` of the shells, by their address; it is made at its first use. -/
abbrev DialogManagers := HashMap Nat ShellJavaScriptDialogManager

theorem manager_set (jdm : DialogManagers) (shell : Nat) (dm : ShellJavaScriptDialogManager) :
    ((jdm.set shell dm) shell).getD {} = dm := by simp [HashMap.set_apply]

inductive DialogFatal where
  | noShell
  | nullCallback
  deriving DecidableEq

structure CallbackRun where
  callback : DialogClosedCallback
  success : Bool
  text : Str
  deriving DecidableEq

namespace ShellJavaScriptDialogManager

def messageType : JavaScriptMessageType → JsMessageType
  | .alert => .alert
  | .confirm => .confirm
  | .prompt => .prompt

/-- `*did_suppress_message`, the message to Java, and the manager afterwards. -/
def runJavaScriptDialog (dm : ShellJavaScriptDialogManager) (webContents : Nat) (originUrl : Gurl)
    (acceptLang : Str) (type : JavaScriptMessageType) (messageText defaultPromptText : Str)
    (callback : DialogClosedCallback) : Bool × JavascriptDialog × ShellJavaScriptDialogManager :=
  (false,
    { nativeWebContents := webContents, url := originUrl.spec, acceptLang
      messageType := messageType type, text := messageText, prompt := defaultPromptText },
    { dm with lastCallback := some callback })

def runBeforeUnloadDialog (dm : ShellJavaScriptDialogManager) (webContents : Nat)
    (messageText : Str) (isReload : Bool) (callback : DialogClosedCallback) :
    JavascriptDialog × ShellJavaScriptDialogManager :=
  ({ nativeWebContents := webContents, messageType := .beforeUnload, text := messageText
     isReload },
    { dm with lastCallback := some callback })

def cancelActiveAndPendingDialogs (dm : ShellJavaScriptDialogManager) :
    ShellJavaScriptDialogManager := { dm with lastCallback := none }

def webContentsDestroyed (dm : ShellJavaScriptDialogManager) : ShellJavaScriptDialogManager :=
  { dm with lastCallback := none }

/-- `DialogClosed` up to the call of the callback. -/
def callbackToRun (b : Browser) (jdm : DialogManagers) (p : JavascriptDialogClosed) :
    Except DialogFatal (Shell × DialogClosedCallback) :=
  match b.forWebContents p.nativeWebContents with
  | none => .error .noShell
  | some shell =>
    match ((jdm shell.ptr).getD {}).lastCallback with
    | none => .error .nullCallback
    | some callback => .ok (shell, callback)

def resetLastCallback (jdm : DialogManagers) (shell : Shell) : DialogManagers :=
  jdm.set shell.ptr { (jdm shell.ptr).getD {} with lastCallback := none }

/-- `DialogClosed` with a callback that leaves the dialogs alone. -/
def dialogClosed (b : Browser) (jdm : DialogManagers) (p : JavascriptDialogClosed) :
    Except DialogFatal (CallbackRun × DialogManagers) := do
  let (shell, callback) ← callbackToRun b jdm p
  return (⟨callback, p.success, p.text⟩, resetLastCallback jdm shell)

end ShellJavaScriptDialogManager

end Seaturtle
