import Seaturtle.Shell.ContentClient
import Seaturtle.Shell.Ownership

/-! The events that requests, frames and pages leave in the logs of the shells they
belong to, while shells are closed and hosts disappear. -/
namespace Seaturtle.AttributionRuns

structure State where
  process : Process
  renderFrames : RenderFrames
  /-- The addresses that `new AceCb` has given out. -/
  nextCallback : Nat := 0
  fatal : Option HandlerFatal := none

namespace State

def browser (s : State) : Browser := s.process.browser

def withBrowser (s : State) (browser : Browser) : State :=
  { s with process := { s.process with browser } }

@[simp] theorem withBrowser_browser (s : State) (b : Browser) : (s.withBrowser b).browser = b :=
  rfl

@[simp] theorem withBrowser_fatal (s : State) (b : Browser) :
    (s.withBrowser b).fatal = s.fatal := rfl

end State

inductive Event where
  | shells (e : ShellRuns.Event)
  /-- A render view host appears, with its contents, or disappears. -/
  | renderViewHost (processId viewId : Int) (webContents : Option Nat)
  | renderFrameHost (processId frameId : Int) (webContents : Option Nat)
  | reload (blocker : Blocker) (httpsRewriter : Https.HttpsRewriter)
  | onBeforeURLRequest (request : URLRequest)
  | onCanAccessFile (request : URLRequest) (path : Str)
  | onCanSetCookie (request : URLRequest)
  | requestGeolocationPermission (webContents : Nat) (requestingFrame : Gurl)
  | allowCertificateError (failure : CertificateFailure)

/-- What `FromID` finds after a change. -/
def host (hosts : Int → Int → Option Nat) (processId id : Int) (webContents : Option Nat) :
    Int → Int → Option Nat :=
  fun p i => if p = processId ∧ i = id then webContents else hosts p i

variable (env : Https.Externals) (policy : Gurl → Gurl → Bool)

def step (s : State) (e : Event) : Option State :=
  if s.fatal.isSome then none
  else match e with
    | .shells e => (ShellRuns.step s.browser e).map s.withBrowser
    | .renderViewHost processId viewId webContents =>
      let renderViews := host s.process.renderViews processId viewId webContents
      some { s with process := { s.process with renderViews } }
    | .renderFrameHost processId frameId webContents =>
      some { s with renderFrames := host s.renderFrames processId frameId webContents }
    | .reload blocker httpsRewriter =>
      some { s with process := { s.process with blocker, httpsRewriter } }
    | .onBeforeURLRequest request =>
      match ShellNetworkDelegate.onBeforeURLRequest env s.process request with
      | .ok out => some { s with process := out.process }
      -- the rewriter ends the process, after the request was let through and logged
      | .error e => some { s with
          process := ShellNetworkDelegate.logRequest s.process request .ok
          fatal := some (.rewriter e) }
    | .onCanAccessFile request path =>
      some { s with process := (ShellNetworkDelegate.onCanAccessFile s.process request path).2 }
    | .onCanSetCookie request =>
      some { s with process := (CookieAccessPolicy.onCanSetCookie policy s.process request).2 }
    | .requestGeolocationPermission webContents requestingFrame =>
      some (s.withBrowser (ShellContentBrowserClient.requestGeolocationPermission s.browser
        webContents requestingFrame).2)
    | .allowCertificateError failure =>
      let d := ShellContentBrowserClient.allowCertificateError s.browser s.renderFrames
        s.nextCallback failure
      some { s.withBrowser d.browser with nextCallback := s.nextCallback + 1, fatal := d.fatal }

/-- The shell that a handler finds for its event; none at all where it looks for none. -/
def lookup (s : State) : Event → Option (Option Shell)
  | .onBeforeURLRequest request => some (s.process.forURLRequest request)
  | .onCanAccessFile request _ => some (s.process.forURLRequest request)
  | .onCanSetCookie request => some (s.process.forURLRequest request)
  | .requestGeolocationPermission webContents _ => some (s.browser.forWebContents webContents)
  | .allowCertificateError failure =>
    if failure.resourceType ≠ .mainFrame then
      some (s.browser.forRenderProcessAndFrame s.renderFrames failure.renderProcessId
        failure.renderFrameId)
    else none
  | _ => none

/-- The shells that `LogEvent` was called on in the messages. -/
def loggedOn (messages : List ToJava) : List Nat :=
  messages.filterMap fun
    | .shellCommand ptr .notifyLogEvent => some ptr
    | _ => none

/-- A handler calls `LogEvent` on registered shells alone, not on null, and does nothing
to the shells where it finds none. -/
def LogsOnLive (s : State) (e : Event) (s' : State) : Prop :=
  ∀ found, lookup s e = some found →
    s'.fatal ≠ some .nullShell ∧
    (∀ ptr ∈ loggedOn (s'.browser.toJava.drop s.browser.toJava.length),
      ptr ∈ s.browser.allShells.map (·.ptr)) ∧
    (found = none → s'.browser = s.browser)

/-- `new Shell` was answered to Java, and `~Shell` has not run. -/
def Live (toJava : List ToJava) (ptr : Nat) : Prop :=
  (∃ wc, .launchShellResponse ptr wc ∈ toJava) ∧ .shellCommand ptr .cleanup ∉ toJava

/-- `all_shells_` has each live shell once. -/
def RegistryExact (b : Browser) : Prop :=
  (b.allShells.map (·.ptr)).Nodup ∧ ∀ ptr, ptr ∈ b.allShells.map (·.ptr) ↔ Live b.toJava ptr

/-- A sub-resource with a certificate error is of a frame whose host is there, in a
registered shell. -/
def FrameFound (s : State) : Event → Prop
  | .allowCertificateError failure => failure.resourceType ≠ .mainFrame →
      (s.browser.forRenderProcessAndFrame s.renderFrames failure.renderProcessId
        failure.renderFrameId).isSome
  | _ => True

instance (s : State) (e : Event) : Decidable (FrameFound s e) := by
  cases e <;> unfold FrameFound <;> infer_instance

/-! The registry. -/

structure Registered (b : Browser) : Prop where
  exact : RegistryExact b
  below : ∀ sh ∈ b.allShells, sh.ptr < b.nextPtr
  cleaned : ∀ ptr, .shellCommand ptr .cleanup ∈ b.toJava → ptr < b.nextPtr

theorem live_append_command {toJava : List ToJava} {shell ptr : Nat} {command : ShellCommand}
    (other : command ≠ .cleanup) :
    Live (toJava ++ [.shellCommand shell command]) ptr ↔ Live toJava ptr := by
  simp [Live, Ne.symm other]

theorem live_append_commands {toJava : List ToJava} {ptr : Nat}
    {commands : List (Nat × ShellCommand)} (others : ∀ c ∈ commands, c.2 = .notifyPopupOpened) :
    Live (toJava ++ commands.map fun c => .shellCommand c.1 c.2) ptr ↔ Live toJava ptr := by
  have none : .shellCommand ptr .cleanup ∉
      commands.map fun c => ToJava.shellCommand c.1 c.2 := by
    intro member
    obtain ⟨c, here, same⟩ := List.mem_map.mp member
    cases ToJava.shellCommand.inj same |>.2 ▸ others c here
  simp [Live, none]

theorem live_append_cleanup {toJava : List ToJava} {shell ptr : Nat} :
    Live (toJava ++ [.shellCommand shell .cleanup]) ptr ↔ Live toJava ptr ∧ ptr ≠ shell := by
  simp [Live, and_assoc]

theorem live_append_launch {toJava : List ToJava} {shell wc ptr : Nat}
    (fresh : .shellCommand shell .cleanup ∉ toJava) :
    Live (toJava ++ [.launchShellResponse shell wc]) ptr ↔ Live toJava ptr ∨ ptr = shell := by
  by_cases here : ptr = shell
  · subst here
    simp [Live, fresh]
  · simp [Live, here]

theorem opens_registered {b b' : Browser} {new : Shell} (h : Registered b)
    (opens : ShellRuns.Opens b b' new) : Registered b' := by
  obtain ⟨commands, popups, toJava⟩ := opens.toJava
  have address := opens.ptr
  have fresh : .shellCommand new.ptr .cleanup ∉ b.toJava := fun member => by
    have := h.cleaned new.ptr member
    omega
  have unlisted : new.ptr ∉ b.allShells.map (·.ptr) := fun member => by
    obtain ⟨sh, here, same⟩ := List.mem_map.mp member
    have := h.below sh here
    omega
  constructor
  · constructor
    · have once := h.exact.1.concat unlisted
      rw [List.concat_eq_append] at once
      rw [opens.shells, List.map_append]
      exact once
    · intro ptr
      rw [toJava, live_append_commands popups, live_append_launch fresh, opens.shells,
        List.map_append, List.mem_append, h.exact.2]
      simp
  · intro sh member
    rw [opens.next]
    rw [opens.shells] at member
    rcases List.mem_append.mp member with old | here
    · exact Nat.lt_of_lt_of_le (h.below sh old) (by omega)
    · cases List.mem_singleton.mp here
      omega
  · intro ptr member
    rw [opens.next]
    rw [toJava, List.mem_append, List.mem_append] at member
    rcases member with (old | impossible) | command
    · have := h.cleaned ptr old
      omega
    · cases List.mem_singleton.mp impossible
    · obtain ⟨c, here, same⟩ := List.mem_map.mp command
      cases ToJava.shellCommand.inj same |>.2 ▸ popups c here

theorem close_registered {b : Browser} {sh : Shell} (h : Registered b)
    (member : sh ∈ b.allShells) : Registered (b.close sh) := by
  obtain ⟨destroyed, toJava, closed⟩ := ShellRuns.close_eq b sh
  have sent := ShellRuns.close_toJava b sh
  have shells : (b.close sh).allShells.map (·.ptr) = (b.allShells.map (·.ptr)).erase sh.ptr := by
    rw [closed, List.erase_eq_eraseP', List.eraseP_map]
    rfl
  have hidden (ptr : Nat) :
      Live (b.toJava ++ [.shellCommand sh.ptr .hide]) ptr ↔ Live b.toJava ptr :=
    live_append_command (by decide)
  constructor
  · constructor
    · rw [shells]
      exact h.exact.1.erase _
    · intro ptr
      rw [shells, sent, live_append_cleanup, hidden, ← h.exact.2, h.exact.1.mem_erase_iff]
      exact And.comm
  · intro s here
    rw [closed]
    exact h.below s (ShellRuns.close_shells here)
  · intro ptr here
    rw [sent, List.mem_append, List.mem_append] at here
    have below := h.below sh member
    rw [closed]
    rcases here with (old | impossible) | last
    · exact h.cleaned ptr old
    · cases List.mem_singleton.mp impossible
    · cases List.mem_singleton.mp last
      exact below

theorem logEvent_ptrs (b : Browser) (sh : Shell) (type : LogEventType) (blocked : Bool)
    (description : Str) :
    (b.logEvent sh type blocked description).allShells.map (·.ptr) = b.allShells.map (·.ptr) := by
  simp only [Browser.logEvent, Browser.sendCommand, List.map_map]
  apply List.map_congr_left
  intro s _
  simp only [Function.comp_apply]
  split <;> rfl

theorem Registered.frame {b b' : Browser} (h : Registered b)
    (shells : b'.allShells.map (·.ptr) = b.allShells.map (·.ptr)) (next : b'.nextPtr = b.nextPtr)
    (live : ∀ ptr, Live b'.toJava ptr ↔ Live b.toJava ptr)
    (cleaned : ∀ ptr, .shellCommand ptr .cleanup ∈ b'.toJava →
      .shellCommand ptr .cleanup ∈ b.toJava) : Registered b' := by
  constructor
  · constructor
    · rw [shells]
      exact h.exact.1
    · intro ptr
      rw [shells, live]
      exact h.exact.2 ptr
  · intro sh member
    have listed : sh.ptr ∈ b.allShells.map (·.ptr) := shells ▸ List.mem_map_of_mem member
    obtain ⟨before, here, same⟩ := List.mem_map.mp listed
    rw [next, ← same]
    exact h.below before here
  · intro ptr member
    rw [next]
    exact h.cleaned ptr (cleaned ptr member)

theorem logEvent_registered {b : Browser} (h : Registered b) (found : Option Shell)
    (type : LogEventType) (blocked : Bool) (description : Str) :
    Registered (b.logEventIfFound found type blocked description) := by
  cases found with
  | none => exact h
  | some sh =>
    apply h.frame (logEvent_ptrs b sh type blocked description) rfl
    · intro ptr
      exact live_append_command (by decide)
    · intro ptr here
      rcases List.mem_append.mp here with old | new
      · exact old
      · cases List.mem_singleton.mp new

/-! The handlers. -/

variable {env policy} {s s' : State}

theorem lookup_certificate {failure : CertificateFailure} {found : Option Shell}
    (looks : lookup s (.allowCertificateError failure) = some found) :
    failure.resourceType ≠ .mainFrame ∧ found = s.browser.forRenderProcessAndFrame s.renderFrames
      failure.renderProcessId failure.renderFrameId := by
  simp only [lookup] at looks
  split at looks
  · next sub => exact ⟨sub, (Option.some.inj looks).symm⟩
  · cases looks

theorem lookup_mem {e : Event} {sh : Shell} (found : lookup s e = some (some sh)) :
    sh ∈ s.browser.allShells := by
  cases e with
  | onBeforeURLRequest request => exact Process.forURLRequest_mem (Option.some.inj found)
  | onCanAccessFile request path => exact Process.forURLRequest_mem (Option.some.inj found)
  | onCanSetCookie request => exact Process.forURLRequest_mem (Option.some.inj found)
  | requestGeolocationPermission webContents frame =>
    exact Browser.forWebContents_mem (Option.some.inj found)
  | allowCertificateError failure =>
    obtain ⟨wc, _, h⟩ := Option.bind_eq_some_iff.mp (lookup_certificate found).2.symm
    exact Browser.forWebContents_mem h
  | shells e => cases found
  | renderViewHost processId viewId webContents => cases found
  | renderFrameHost processId frameId webContents => cases found
  | reload blocker httpsRewriter => cases found

/-- A handler that looks for a shell logs at most one event, on what it found, or else
is the one that does not test what it found. -/
inductive Handled (s : State) (e : Event) (found : Option Shell) (s' : State) : Prop where
  | quiet (same : s'.browser = s.browser) (alive : s'.fatal ≠ some .nullShell)
  | logs (type : LogEventType) (blocked : Bool) (description : Str)
      (logged : s'.browser = s.browser.logEventIfFound found type blocked description)
      (alive : s'.fatal ≠ some .nullShell)
  | null (failure : CertificateFailure) (certificate : e = .allowCertificateError failure)
      (none : found = none) (same : s'.browser = s.browser) (crash : s'.fatal = some .nullShell)

theorem certificate_handled {failure : CertificateFailure}
    (sub : failure.resourceType ≠ .mainFrame) :
    let d := ShellContentBrowserClient.allowCertificateError s.browser s.renderFrames
      s.nextCallback failure
    Handled s (.allowCertificateError failure)
      (s.browser.forRenderProcessAndFrame s.renderFrames failure.renderProcessId
        failure.renderFrameId)
      { s.withBrowser d.browser with nextCallback := s.nextCallback + 1, fatal := d.fatal } := by
  simp only [ShellContentBrowserClient.allowCertificateError, if_pos sub]
  cases found : s.browser.forRenderProcessAndFrame s.renderFrames failure.renderProcessId
      failure.renderFrameId with
  | none => exact .null failure rfl rfl rfl rfl
  | some sh => exact .logs _ _ _ rfl nofun

theorem step_handled {e : Event} {found : Option Shell} (looks : lookup s e = some found)
    (hs : step env policy s e = some s') : Handled s e found s' := by
  unfold step at hs
  split at hs
  · cases hs
  · next running =>
    have alive : s.fatal ≠ some .nullShell := fun dead => running (by simp [dead])
    cases e with
    | onBeforeURLRequest request =>
      cases Option.some.inj looks
      simp only at hs
      split at hs
      · next out done =>
        cases hs
        have logged (ret : NetError) := congrArg Process.browser
          (ShellNetworkDelegate.logRequest_eq s.process request ret)
        rcases ShellNetworkDelegate.onBeforeURLRequest_cases done with ⟨_, rfl⟩ | ⟨_, _, rfl⟩ |
          ⟨_, _, code, rewritten, newUrl, _, rfl⟩
        · exact .quiet rfl alive
        · exact .logs _ _ _ (logged _) alive
        · exact .logs _ _ _ (logged _) alive
      · cases hs
        have logged := ShellNetworkDelegate.logRequest_eq s.process request .ok
        exact .logs _ _ _ (congrArg Process.browser logged) nofun
    | onCanAccessFile request path =>
      cases Option.some.inj looks
      cases hs
      exact .logs _ _ _ rfl alive
    | onCanSetCookie request =>
      cases Option.some.inj looks
      cases hs
      exact .logs _ _ _ rfl alive
    | requestGeolocationPermission webContents frame =>
      cases Option.some.inj looks
      cases hs
      exact .logs _ _ _ rfl alive
    | allowCertificateError failure =>
      obtain ⟨sub, rfl⟩ := lookup_certificate looks
      cases hs
      exact certificate_handled sub
    | shells e => cases looks
    | renderViewHost processId viewId webContents => cases looks
    | renderFrameHost processId frameId webContents => cases looks
    | reload blocker httpsRewriter => cases looks

theorem loggedOn_logEvent {b : Browser} {found : Option Shell} {type : LogEventType}
    {blocked : Bool}
    {description : Str} :
    loggedOn ((b.logEventIfFound found type blocked description).toJava.drop b.toJava.length) =
      found.toList.map (·.ptr) := by
  cases found with
  | none => simp [Browser.logEventIfFound, loggedOn]
  | some sh => simp [Browser.logEventIfFound, Browser.logEvent, Browser.sendCommand, loggedOn]

/-- A handler leaves the right only by a call on null. -/
theorem handled_logs_iff {e : Event} (hs : step env policy s e = some s') :
    LogsOnLive s e s' ↔ ∀ found, lookup s e = some found → s'.fatal ≠ some .nullShell := by
  apply forall_congr'
  intro found
  apply forall_congr'
  intro looks
  refine ⟨And.left, fun alive => ⟨alive, fun ptr logged => ?_, fun none => ?_⟩⟩
  · cases step_handled looks hs with
    | quiet same _ => simp [same, loggedOn] at logged
    | logs type blocked description same _ =>
      rw [same, loggedOn_logEvent] at logged
      cases found with
      | none => exact (List.not_mem_nil logged).elim
      | some sh =>
        cases List.mem_singleton.mp logged
        exact List.mem_map_of_mem (lookup_mem looks)
    | null _ _ _ _ crash => exact absurd crash alive
  · cases step_handled looks hs with
    | quiet same _ => exact same
    | logs type blocked description same _ => rw [same, none]; rfl
    | null _ _ _ _ crash => exact absurd crash alive

theorem certificate_crash {failure : CertificateFailure} (sub : failure.resourceType ≠ .mainFrame)
    (absent : s.browser.forRenderProcessAndFrame s.renderFrames failure.renderProcessId
      failure.renderFrameId = none)
    (hs : step env policy s (.allowCertificateError failure) = some s') :
    s'.fatal = some .nullShell := by
  unfold step at hs
  split at hs
  · cases hs
  · cases hs
    simp only [ShellContentBrowserClient.allowCertificateError, if_pos sub, absent]

theorem null_iff {e : Event} (hs : step env policy s e = some s') :
    (∀ found, lookup s e = some found → s'.fatal ≠ some .nullShell) ↔ FrameFound s e := by
  constructor
  · intro alive
    cases e with
    | allowCertificateError failure =>
      intro sub
      rw [Option.isSome_iff_ne_none]
      intro absent
      exact alive _ (if_pos sub) (certificate_crash sub absent hs)
    | _ => trivial
  · intro frame found looks
    cases step_handled looks hs with
    | quiet _ alive => exact alive
    | logs _ _ _ _ alive => exact alive
    | null failure certificate none _ _ =>
      subst certificate
      obtain ⟨sub, same⟩ := lookup_certificate looks
      have present := frame sub
      rw [← same, none] at present
      cases present

theorem mainFrame_browser (b : Browser) (renderFrames : RenderFrames) (nativeCallback : Nat)
    {failure : CertificateFailure} (main : failure.resourceType = .mainFrame) :
    (ShellContentBrowserClient.allowCertificateError b renderFrames nativeCallback
      failure).browser = b := by
  simp only [ShellContentBrowserClient.allowCertificateError, main, ne_eq, not_true, if_false]
  split <;> rfl

/-- Where no handler looks for a shell, only the UI thread's own steps change the shells. -/
theorem step_unattributed {e : Event} (looks : lookup s e = none)
    (hs : step env policy s e = some s') :
    s'.browser = s.browser ∨
      ∃ e', e = .shells e' ∧ ShellRuns.step s.browser e' = some s'.browser := by
  unfold step at hs
  split at hs
  · cases hs
  · cases e with
    | shells e =>
      obtain ⟨b, taken, rfl⟩ := Option.map_eq_some_iff.mp hs
      exact .inr ⟨e, rfl, taken⟩
    | renderViewHost processId viewId webContents =>
      cases hs
      exact .inl rfl
    | renderFrameHost processId frameId webContents =>
      cases hs
      exact .inl rfl
    | reload blocker httpsRewriter =>
      cases hs
      exact .inl rfl
    | allowCertificateError failure =>
      cases hs
      have main : failure.resourceType = .mainFrame := by
        by_contra sub
        simp [lookup, sub] at looks
      exact .inl (mainFrame_browser s.browser s.renderFrames s.nextCallback main)
    | onBeforeURLRequest request => cases looks
    | onCanAccessFile request path => cases looks
    | onCanSetCookie request => cases looks
    | requestGeolocationPermission webContents frame => cases looks

theorem shells_registered {b b' : Browser} {e : ShellRuns.Event} (h : Registered b)
    (hs : ShellRuns.step b e = some b') : Registered b' := by
  rcases ShellRuns.step_opens hs with ⟨new, opens⟩ | ⟨settings, rfl⟩ | ⟨sh, member, rfl⟩
  · exact opens_registered h opens
  · exact ⟨h.exact, h.below, h.cleaned⟩
  · exact close_registered h member

theorem step_registered {e : Event} (h : Registered s.browser)
    (hs : step env policy s e = some s') : Registered s'.browser := by
  cases looks : lookup s e with
  | some found =>
    cases step_handled looks hs with
    | quiet same _ => exact same ▸ h
    | logs type blocked description logged _ =>
      rw [logged]
      exact logEvent_registered h found type blocked description
    | null _ _ _ same _ => exact same ▸ h
  | none =>
    rcases step_unattributed looks hs with same | ⟨e', _, taken⟩
    · exact same ▸ h
    · exact shells_registered h taken

def initial (blocker : Blocker) (httpsRewriter : Https.HttpsRewriter) (settings : AllSettings) :
    State where
  process := ⟨blocker, httpsRewriter, ShellRuns.initial settings, fun _ _ => none⟩
  renderFrames := fun _ _ => none

theorem initial_registered (blocker : Blocker) (httpsRewriter : Https.HttpsRewriter)
    (settings : AllSettings) : Registered (initial blocker httpsRewriter settings).browser := by
  constructor
  · constructor
    · exact List.nodup_nil
    · intro ptr
      apply iff_of_false List.not_mem_nil
      rintro ⟨⟨wc, told⟩, _⟩
      exact List.not_mem_nil told
  · exact fun sh member => (List.not_mem_nil member).elim
  · exact fun ptr member => (List.not_mem_nil member).elim

theorem along_logs_iff (env : Https.Externals) (policy : Gurl → Gurl → Bool) {s : State}
    (start : Registered s.browser) (es : List Event) :
    Runs.Along (step env policy) LogsOnLive s es ↔
      Runs.Along (step env policy) (fun s e _ => FrameFound s e) s es :=
  Runs.along_iff (fun s => Registered s.browser) es start
    (fun _ _ _ h hs _ => step_registered h hs)
    (fun _ _ _ _ hs => (handled_logs_iff hs).trans (null_iff hs))

/-- In a run every handler logs on registered shells alone, and the registry is exact in
every state, exactly when no sub-resource has a certificate error after its frame or its
shell is gone. -/
theorem logs_on_live_shells_iff (env : Https.Externals) (policy : Gurl → Gurl → Bool)
    (blocker : Blocker) (httpsRewriter : Https.HttpsRewriter) (settings : AllSettings)
    (es : List Event) :
    (Runs.Along (step env policy) LogsOnLive (initial blocker httpsRewriter settings) es ∧
        Runs.Always (step env policy) (fun s => RegistryExact s.browser)
          (initial blocker httpsRewriter settings) es) ↔
      Runs.Along (step env policy) (fun s e _ => FrameFound s e)
        (initial blocker httpsRewriter settings) es := by
  have start := initial_registered blocker httpsRewriter settings
  have exact : Runs.Always (step env policy) (fun s => RegistryExact s.browser)
      (initial blocker httpsRewriter settings) es :=
    Runs.always_of_along (fun s => Registered s.browser) es start
      (fun s e s' h hs _ => step_registered h hs) (fun s h => h.exact)
      (Runs.along_of_events _ es fun _ _ => trivial : Runs.Along _ (fun _ _ _ => True) _ es)
  rw [along_logs_iff env policy start]
  exact and_iff_left exact

/-- A tab is closed while an image of its page is still being fetched. -/
def imageFailure : CertificateFailure where
  renderProcessId := 1
  renderFrameId := 2
  certError := -202
  sslInfo := {}
  requestUrl := Gurl.parseCanonical "https://b.com/a.png".toList
  resourceType := .subResource 4
  overridable := true
  strictEnforcement := false
  expiredPreviousDecision := false

def lateFailure : List Event :=
  [.shells (.launchShell 0), .renderFrameHost 1 2 (some 0), .shells (.close 1),
    .renderFrameHost 1 2 none, .allowCertificateError imageFailure]

theorem late_failure_logs_on_null :
    (Runs.run (step Https.literal fun _ _ => true) (initial {} {} {}) lateFailure).map
        (·.fatal) = some (some .nullShell) ∧
      ¬ ∀ env policy blocker httpsRewriter settings es,
        Runs.Along (step env policy) LogsOnLive (initial blocker httpsRewriter settings) es := by
  refine ⟨by decide +kernel, fun always => ?_⟩
  have along := always Https.literal (fun _ _ => true) {} {} {} lateFailure
  rw [along_logs_iff _ _ (initial_registered {} {} {})] at along
  revert along
  decide +kernel

end Seaturtle.AttributionRuns
