import Seaturtle.Url

/-! The login dialogs between the UI and the IO thread. A dialog and a request are
known by their addresses; the objects stay in place. -/
namespace Seaturtle

/-- `net::AuthChallengeInfo`: `challenger.ToString()` and the realm. -/
structure AuthChallengeInfo where
  challenger : Str
  realm : Str
  deriving DecidableEq

structure ShellLoginDialog where
  ptr : Nat
  authInfo : AuthChallengeInfo
  request : Nat
  deriving DecidableEq

structure HttpAuth where
  nativeObject : Nat
  isCancel : Bool
  host : Str := []
  realm : Str := []
  deriving DecidableEq

structure HttpAuthResponse where
  nativeObject : Nat
  isUserCancelled : Bool := false
  username : Str := []
  password : Str := []
  deriving DecidableEq

inductive UiTask where
  | prepDialog (dialog : ShellLoginDialog) (host realm : Str)
  | platformRequestCancelled (dialog : ShellLoginDialog)
  deriving DecidableEq

/-- `SendAuthToRequester` with what is bound to it. -/
structure IoTask where
  dialog : ShellLoginDialog
  success : Bool
  username : Str := []
  password : Str := []
  deriving DecidableEq

inductive AuthCall where
  | setAuth (username password : Str)
  | cancelAuth
  | clearLoginDelegateForRequest
  deriving DecidableEq

/-- A call, and whether the request was destroyed before it. -/
structure RequestCall where
  request : Nat
  call : AuthCall
  dead : Bool
  deriving DecidableEq

/-- The queues of the two threads, what went to Java and to the requests, and the
requests that the loader has destroyed. -/
structure LoginThreads where
  ui : List UiTask := []
  io : List IoTask := []
  toJava : List HttpAuth := []
  calls : List RequestCall := []
  destroyed : List Nat := []
  deriving DecidableEq

namespace ShellLoginDialog

def construct (s : LoginThreads) (d : ShellLoginDialog) : LoginThreads :=
  { s with ui := s.ui ++ [.prepDialog d d.authInfo.challenger d.authInfo.realm] }

def onRequestCancelled (s : LoginThreads) (d : ShellLoginDialog) : LoginThreads :=
  { s with ui := s.ui ++ [.platformRequestCancelled d] }

def userAcceptedAuth (s : LoginThreads) (d : ShellLoginDialog) (username password : Str) :
    LoginThreads :=
  { s with io := s.io ++ [{ dialog := d, success := true, username, password }] }

def userCancelledAuth (s : LoginThreads) (d : ShellLoginDialog) : LoginThreads :=
  { s with io := s.io ++ [{ dialog := d, success := false }] }

def prepDialog (s : LoginThreads) (d : ShellLoginDialog) (host realm : Str) : LoginThreads :=
  { s with toJava := s.toJava ++ [⟨d.ptr, false, host, realm⟩] }

def platformRequestCancelled (s : LoginThreads) (d : ShellLoginDialog) : LoginThreads :=
  { s with toJava := s.toJava ++ [{ nativeObject := d.ptr, isCancel := true }] }

def callRequest (s : LoginThreads) (d : ShellLoginDialog) (call : AuthCall) : LoginThreads :=
  { s with calls := s.calls ++ [⟨d.request, call, decide (d.request ∈ s.destroyed)⟩] }

def sendAuthToRequester (s : LoginThreads) (d : ShellLoginDialog) (success : Bool)
    (username password : Str) : LoginThreads :=
  let s := if success then callRequest s d (.setAuth username password)
    else callRequest s d .cancelAuth
  callRequest s d .clearLoginDelegateForRequest

/-- `ProcessResponse`, with the dialog that `native_object` points at. -/
def processResponse (s : LoginThreads) (d : ShellLoginDialog) (response : HttpAuthResponse) :
    LoginThreads :=
  if response.isUserCancelled then userCancelledAuth s d
  else userAcceptedAuth s d response.username response.password

end ShellLoginDialog

end Seaturtle
