import Seaturtle.Shell.Commands

/-! The logs of the shells. What `GET_LOG` answers is what the handlers have written of the
shell's events since its page was last navigated. -/
namespace Seaturtle.BridgeRuns

inductive Entry where
  | logged (shell : Nat) (event : LogEvent)
  | cleared (shell : Nat)
  deriving DecidableEq

def Entry.shell : Entry → Nat
  | .logged shell _ => shell
  | .cleared shell => shell

/-- What a handler writes of its event. -/
def written (policy : Gurl → Gurl → Bool) (s : AttributionRuns.State) :
    AttributionRuns.Event → Option LogEvent
  | .onBeforeURLRequest request =>
    if request.autocompleteRequest then none
    else some ⟨.request, ShellNetworkDelegate.isBlocked s.process request, request.url.spec⟩
  | .onCanAccessFile _ path => some ⟨.file, true, path⟩
  | .onCanSetCookie request =>
    some ⟨.cookie, !policy request.url request.firstPartyForCookies, request.url.spec⟩
  | .requestGeolocationPermission _ requestingFrame => some ⟨.location, true, requestingFrame.spec⟩
  | .allowCertificateError failure =>
    if failure.resourceType ≠ .mainFrame then
      some ⟨.subResourceSslError, true, failure.requestUrl.spec⟩
    else none
  | _ => none

def entry (policy : Gurl → Gurl → Bool) (s : State) : Event → Option Entry
  | .attribution e =>
    (AttributionRuns.lookup s.attribution e).join.bind fun shell =>
      (written policy s.attribution e).map (.logged shell.ptr)
  | .page shell (.didNavigateMainFrame true _) => some (.cleared shell)
  | _ => none

def journal (env : Https.Externals) (policy : Gurl → Gurl → Bool) (pageEnv : PageExternals)
    (s : State) (es : List Event) : List Entry :=
  Runs.chronicle (step env policy pageEnv) (entry policy) s es

/-- The events of a shell since it was last cleared. -/
def logOf (shell : Nat) (entries : List Entry) : List LogEvent :=
  entries.foldl (fun log entry =>
    match entry with
    | .logged s event => if s = shell then log ++ [event] else log
    | .cleared s => if s = shell then [] else log) []

def loggedFor (shell : Nat) (entries : List Entry) : Nat :=
  entries.countP fun
    | .logged s _ => s == shell
    | .cleared _ => false

def notified (shell : Nat) (messages : List Message) : Nat :=
  messages.count (.registry (.shellCommand shell .notifyLogEvent))

/-! Reading the entries. -/

theorem logOf_logged (entries : List Entry) (shell s : Nat) (event : LogEvent) :
    logOf shell (entries ++ [.logged s event]) =
      if s = shell then logOf shell entries ++ [event] else logOf shell entries := by
  rw [logOf, List.foldl_append]
  rfl

theorem logOf_cleared (entries : List Entry) (shell s : Nat) :
    logOf shell (entries ++ [.cleared s]) = if s = shell then [] else logOf shell entries := by
  rw [logOf, List.foldl_append]
  rfl

/-- Nothing was written of the shell. -/
theorem logOf_none {entries : List Entry} {shell : Nat}
    (others : ∀ entry ∈ entries, entry.shell ≠ shell) : logOf shell entries = [] := by
  induction entries using List.reverseRecOn with
  | nil => rfl
  | append_singleton entries last ih =>
    have before := ih fun entry member => others entry (List.mem_append_left _ member)
    have other := others last (List.mem_append_right _ List.mem_cons_self)
    cases last with
    | logged s event =>
      rw [logOf_logged]
      exact (if_neg other).trans before
    | cleared s =>
      rw [logOf_cleared]
      exact (if_neg other).trans before

theorem loggedFor_append (shell : Nat) (before after : List Entry) :
    loggedFor shell (before ++ after) = loggedFor shell before + loggedFor shell after :=
  List.countP_append

theorem notified_append (shell : Nat) (before after : List Message) :
    notified shell (before ++ after) = notified shell before + notified shell after :=
  List.count_append

/-! What the steps write. -/

section
variable {env : Https.Externals} {policy : Gurl → Gurl → Bool} {pageEnv : PageExternals}

/-- The browser after `LogEvent` of what there is to write. -/
def logWritten (b : Browser) (found : Option Shell) : Option LogEvent → Browser
  | none => b
  | some event => b.logEventIfFound found event.type event.isBlocked event.description

/-- The rewriter can end the process only with what the blocker lets through. -/
theorem rewriter_fatal {p : Process} {request : URLRequest} {fatal : Https.Fatal}
    (done : ShellNetworkDelegate.onBeforeURLRequest env p request = .error fatal) :
    request.autocompleteRequest = false ∧ ShellNetworkDelegate.isBlocked p request = false := by
  unfold ShellNetworkDelegate.onBeforeURLRequest at done
  cases fetch : request.autocompleteRequest with
  | true => simp [fetch] at done
  | false =>
    cases blocked : ShellNetworkDelegate.isBlocked p request with
    | true => simp [fetch, blocked] at done
    | false => exact ⟨rfl, rfl⟩

theorem request_writes {s : AttributionRuns.State} {request : URLRequest}
    {out : ShellNetworkDelegate.Outcome}
    (done : ShellNetworkDelegate.onBeforeURLRequest env s.process request = .ok out) :
    out.process.browser = logWritten s.process.browser (s.process.forURLRequest request)
      (written policy s (.onBeforeURLRequest request)) := by
  have logged (ret : NetError) := congrArg Process.browser
    (ShellNetworkDelegate.logRequest_eq s.process request ret)
  rcases ShellNetworkDelegate.onBeforeURLRequest_cases done with ⟨fetch, rfl⟩ |
    ⟨fetch, blocked, rfl⟩ | ⟨fetch, passes, code, rewritten, newUrl, _, rfl⟩
  · simp [logWritten, written, fetch]
  · simp [logWritten, written, fetch, blocked, logged]
  · simp [logWritten, written, fetch, passes, logged]

theorem rewriter_writes {s : AttributionRuns.State} {request : URLRequest} {fatal : Https.Fatal}
    (done : ShellNetworkDelegate.onBeforeURLRequest env s.process request = .error fatal) :
    (ShellNetworkDelegate.logRequest s.process request .ok).browser =
      logWritten s.process.browser (s.process.forURLRequest request)
        (written policy s (.onBeforeURLRequest request)) := by
  obtain ⟨fetch, passes⟩ := rewriter_fatal done
  have logged := congrArg Process.browser (ShellNetworkDelegate.logRequest_eq s.process request .ok)
  simp [logWritten, written, fetch, passes, logged]

theorem step_writes {s s' : AttributionRuns.State} {e : AttributionRuns.Event}
    {found : Option Shell} (looks : AttributionRuns.lookup s e = some found)
    (taken : AttributionRuns.step env policy s e = some s') :
    s'.browser = logWritten s.browser found (written policy s e) := by
  unfold AttributionRuns.step at taken
  split at taken
  · cases taken
  · cases e with
    | onBeforeURLRequest request =>
      cases Option.some.inj looks
      cases done : ShellNetworkDelegate.onBeforeURLRequest env s.process request with
      | ok out =>
        simp only [done, Option.some.injEq] at taken
        subst taken
        exact request_writes done
      | error fatal =>
        simp only [done, Option.some.injEq] at taken
        subst taken
        exact rewriter_writes done
    | onCanAccessFile request path =>
      cases Option.some.inj looks
      cases taken
      rfl
    | onCanSetCookie request =>
      cases Option.some.inj looks
      cases taken
      rfl
    | requestGeolocationPermission webContents frame =>
      cases Option.some.inj looks
      cases taken
      rfl
    | allowCertificateError failure =>
      obtain ⟨sub, rfl⟩ := AttributionRuns.lookup_certificate looks
      cases taken
      simp only [ShellContentBrowserClient.allowCertificateError, written, if_pos sub]
      cases found : s.browser.forRenderProcessAndFrame s.renderFrames failure.renderProcessId
          failure.renderFrameId with
      | none => rfl
      | some sh => rfl
    | shells e => cases looks
    | renderViewHost processId viewId webContents => cases looks
    | renderFrameHost processId frameId webContents => cases looks
    | reload blocker httpsRewriter => cases looks

/-- A step that writes nothing: shells stay as they are, or are new and have nothing logged. -/
structure Quiet (b b' : Browser) : Prop where
  logs : ∀ sh ∈ b'.allShells, (∃ old ∈ b.allShells, sh.ptr = old.ptr ∧ sh.log = old.log) ∨
    b.nextPtr ≤ sh.ptr ∧ sh.ptr < b'.nextPtr ∧ sh.log = []
  next : b.nextPtr ≤ b'.nextPtr
  sent : ∃ sent, b'.toJava = b.toJava ++ sent ∧ ∀ shell, .shellCommand shell .notifyLogEvent ∉ sent

theorem Quiet.refl (b : Browser) : Quiet b b :=
  ⟨fun sh member => .inl ⟨sh, member, rfl, rfl⟩, Nat.le_refl _, [], (List.append_nil _).symm,
    fun _ => List.not_mem_nil⟩

theorem opens_quiet {b b' : Browser} {new : Shell} (created : ShellRuns.Opens b b' new)
    (empty : new.log = []) : Quiet b b' := by
  obtain ⟨commands, popups, toJava⟩ := created.toJava
  refine ⟨?_, by rw [created.next]; exact Nat.le_add_right _ _, _,
    toJava.trans (List.append_assoc _ _ _), ?_⟩
  · intro sh member
    rw [created.shells] at member
    rcases List.mem_append.mp member with old | here
    · exact .inl ⟨sh, old, rfl, rfl⟩
    · cases List.mem_singleton.mp here
      rw [created.ptr, created.next]
      exact .inr ⟨Nat.le_succ _, Nat.lt_succ_self _, empty⟩
  · intro shell member
    rcases List.mem_append.mp member with launch | command
    · cases List.mem_singleton.mp launch
    · obtain ⟨c, here, same⟩ := List.mem_map.mp command
      cases ToJava.shellCommand.inj same |>.2 ▸ popups c here

theorem close_quiet (b : Browser) (sh : Shell) : Quiet b (b.close sh) := by
  obtain ⟨destroyed, toJava, closed⟩ := ShellRuns.close_eq b sh
  refine ⟨fun s member => .inl ⟨s, ShellRuns.close_shells member, rfl, rfl⟩, ?_, _,
    (ShellRuns.close_toJava b sh).trans (List.append_assoc _ _ _), fun shell => by simp⟩
  rw [closed]

theorem shells_quiet {b b' : Browser} {e : ShellRuns.Event}
    (taken : ShellRuns.step b e = some b') : Quiet b b' := by
  cases e with
  | launchShell parent =>
    cases taken
    unfold Browser.launchShell
    split
    · exact opens_quiet ⟨rfl, rfl, rfl, rfl, rfl, [], nofun, (List.append_nil _).symm⟩ rfl
    · exact opens_quiet ⟨rfl, rfl, rfl, rfl, rfl, [], nofun, (List.append_nil _).symm⟩ rfl
  | addNewContents opener =>
    obtain ⟨sh, _, rfl⟩ := Option.map_eq_some_iff.mp taken
    exact opens_quiet ⟨rfl, rfl, rfl, rfl, rfl, [(sh.ptr, .notifyPopupOpened)], by simp, rfl⟩ rfl
  | close ptr =>
    obtain ⟨sh, _, rfl⟩ := Option.map_eq_some_iff.mp taken
    exact close_quiet b sh
  | updateGlobalSettings settings =>
    cases taken
    have quiet := Quiet.refl b
    exact ⟨quiet.logs, quiet.next, quiet.sent⟩

/-! The logs and the notices of a run, against its journal. -/

structure Journaled (entries : List Entry) (s : State) : Prop where
  listed : ∀ sh ∈ s.browser.allShells, sh.ptr < s.browser.nextPtr
  logs : ∀ sh ∈ s.browser.allShells, sh.log = logOf sh.ptr entries
  told : ∀ shell, notified shell s.toJava = loggedFor shell entries
  below : ∀ entry ∈ entries, entry.shell < s.browser.nextPtr

variable {entries : List Entry} {s s' : State}

theorem notified_none {shell : Nat} {messages : List Message}
    (none : ∀ shell, .registry (.shellCommand shell .notifyLogEvent) ∉ messages) :
    notified shell messages = 0 := List.count_eq_zero.mpr (none shell)

theorem quiet_journaled (h : Journaled entries s) (quiet : Quiet s.browser s'.browser)
    (sent : ∃ sent, s'.toJava = s.toJava ++ sent ∧
      ∀ shell, .registry (.shellCommand shell .notifyLogEvent) ∉ sent) : Journaled entries s' := by
  obtain ⟨sent, toJava, none⟩ := sent
  constructor
  · intro sh member
    rcases quiet.logs sh member with ⟨old, listed, ptr, _⟩ | ⟨_, below, _⟩
    · rw [ptr]
      exact Nat.lt_of_lt_of_le (h.listed old listed) quiet.next
    · exact below
  · intro sh member
    rcases quiet.logs sh member with ⟨old, listed, ptr, log⟩ | ⟨new, _, empty⟩
    · rw [log, ptr]
      exact h.logs old listed
    · have others : ∀ entry ∈ entries, entry.shell ≠ sh.ptr := fun entry member =>
        Nat.ne_of_lt (Nat.lt_of_lt_of_le (h.below entry member) new)
      rw [empty, logOf_none others]
  · intro shell
    rw [toJava, notified_append, notified_none none, h.told shell]
    rfl
  · exact fun entry member => Nat.lt_of_lt_of_le (h.below entry member) quiet.next

theorem follow_quiet {a : AttributionRuns.State} (h : Journaled entries s)
    (quiet : Quiet s.browser a.browser) : Journaled entries (s.follow a) := by
  obtain ⟨sent, toJava, none⟩ := quiet.sent
  have followed : Quiet s.browser (s.follow a).browser := quiet
  apply quiet_journaled h followed
  refine ⟨sent.map .registry, by rw [State.follow, toJava, List.drop_left], ?_⟩
  intro shell member
  obtain ⟨m, inside, same⟩ := List.mem_map.mp member
  cases same
  exact none shell inside

theorem logged_journaled {a : AttributionRuns.State} {sh : Shell} {event : LogEvent}
    (h : Journaled entries s) (listed : sh ∈ s.browser.allShells)
    (browser : a.browser = s.browser.logEvent sh event.type event.isBlocked event.description) :
    Journaled (entries ++ [.logged sh.ptr event]) (s.follow a) := by
  have toJava : (s.follow a).toJava =
      s.toJava ++ [.registry (.shellCommand sh.ptr .notifyLogEvent)] := by
    rw [State.follow, browser]
    simp [Browser.logEvent, Browser.sendCommand]
  have next : (s.follow a).browser.nextPtr = s.browser.nextPtr := by
    change a.browser.nextPtr = _
    rw [browser]
    rfl
  constructor
  · intro after member
    change after ∈ a.browser.allShells at member
    rw [browser] at member
    obtain ⟨before, old, rfl⟩ := List.mem_map.mp member
    have below := h.listed before old
    rw [next]
    split
    · exact below
    · exact below
  · intro after member
    change after ∈ a.browser.allShells at member
    rw [browser] at member
    obtain ⟨before, old, rfl⟩ := List.mem_map.mp member
    have log := h.logs before old
    rw [logOf_logged]
    by_cases here : before.ptr = sh.ptr
    · simp only [here, if_true, log]
    · simp only [if_neg here, if_neg (Ne.symm here)]
      exact log
  · intro shell
    rw [toJava, notified_append, loggedFor_append, h.told shell]
    by_cases here : sh.ptr = shell
    · simp [notified, loggedFor, here]
    · simp [notified, loggedFor, here]
  · intro entry member
    rw [next]
    rcases List.mem_append.mp member with old | new
    · exact h.below entry old
    · cases List.mem_singleton.mp new
      exact h.listed sh listed

theorem attribution_journaled {a : AttributionRuns.State} {e : AttributionRuns.Event}
    (h : Journaled entries s)
    (taken : AttributionRuns.step env policy s.attribution e = some a) :
    Journaled (entries ++ (entry policy s (.attribution e)).toList) (s.follow a) := by
  cases looks : AttributionRuns.lookup s.attribution e with
  | none =>
    simp only [entry, looks, Option.join_none, Option.bind_none, Option.toList_none,
      List.append_nil]
    apply follow_quiet h
    rcases AttributionRuns.step_unattributed looks taken with same | ⟨e', _, shells⟩
    · rw [same]
      exact Quiet.refl _
    · exact shells_quiet shells
  | some found =>
    have writes := step_writes looks taken
    cases found with
    | none =>
      simp only [entry, looks, Option.join_some, Option.bind_none, Option.toList_none,
        List.append_nil]
      apply follow_quiet h
      have same : a.browser = s.browser := by
        rw [writes]
        cases written policy s.attribution e <;> rfl
      rw [same]
      exact Quiet.refl _
    | some sh =>
      simp only [entry, looks, Option.join_some, Option.bind_some]
      cases wrote : written policy s.attribution e with
      | none =>
        rw [wrote] at writes
        simp only [Option.map_none, Option.toList_none, List.append_nil]
        apply follow_quiet h
        rw [writes]
        exact Quiet.refl _
      | some event =>
        rw [wrote] at writes
        exact logged_journaled h (AttributionRuns.lookup_mem looks) writes

theorem respond_journaled (h : Journaled entries s) (response : Option ShellCommandResponse) :
    Journaled entries (s.respond response) := by
  cases response with
  | none => exact h
  | some response =>
    exact quiet_journaled h (Quiet.refl _) ⟨[.shellCommandResponse response], rfl, by simp⟩

theorem dispatch_journaled (h : Journaled entries s) (shell : Nat) (command : JavaCommand) :
    Journaled entries (s.dispatchShellCommand pageEnv shell command) := by
  unfold State.dispatchShellCommand
  cases found : s.browser.forPtr shell with
  | none =>
    exact ⟨h.listed, h.logs, h.told, h.below⟩
  | some sh =>
    cases handled : sh.handleShellCommand pageEnv (s.pages sh.ptr) command with
    | none =>
      simp only [handled]
      exact ⟨h.listed, h.logs, h.told, h.below⟩
    | some result =>
      simp only [handled]
      have paged : Journaled entries (s.setPage sh.ptr result.page) :=
        ⟨h.listed, h.logs, h.told, h.below⟩
      have answered := respond_journaled paged result.response
      split
      · exact follow_quiet answered (close_quiet _ sh)
      · exact answered

theorem pageEvent_quiet {policy : Gurl → Gurl → Bool} {sh : Shell} {e : PageEvent}
    (writes : entry policy s (.page sh.ptr e) = none) :
    (s.pageEvent sh e).browser = s.browser ∧ ∃ sent, (s.pageEvent sh e).toJava = s.toJava ++ sent ∧
      ∀ shell, .registry (.shellCommand shell .notifyLogEvent) ∉ sent := by
  cases e with
  | loadingStateChanged isLoading => exact ⟨rfl, _, rfl, by simp⟩
  | loadProgressChanged progress => exact ⟨rfl, _, rfl, by simp⟩
  | didNavigateMainFrame different url =>
    cases different with
    | true => cases writes
    | false => exact ⟨rfl, [.pageUpdate sh.ptr (.updateVisibleUrl url.spec)], rfl, by simp⟩
  | didFinishLoad isMainFrame validatedUrl =>
    cases isMainFrame with
    | true => exact ⟨rfl, [.pageUpdate sh.ptr _], rfl, by simp⟩
    | false => exact ⟨rfl, [], (List.append_nil _).symm, by simp⟩
  | didUpdateFaviconUrl candidates => exact ⟨rfl, [], (List.append_nil _).symm, by simp⟩
  | toggleFullscreenModeForTab enterFullscreen =>
    cases enterFullscreen with
    | true => exact ⟨rfl, [], (List.append_nil _).symm, by simp⟩
    | false => exact ⟨rfl, [.exitFullscreenMode], rfl, by simp⟩
  | changed lastCommittedEntry visibleEntry activeEntry url title =>
    exact ⟨rfl, [], (List.append_nil _).symm, by simp⟩

theorem cleared_journaled {sh : Shell} {url : Gurl} (h : Journaled entries s)
    (member : sh ∈ s.browser.allShells) :
    Journaled (entries ++ [.cleared sh.ptr]) (s.pageEvent sh (.didNavigateMainFrame true url)) := by
  constructor
  · intro after here
    obtain ⟨before, old, rfl⟩ := List.mem_map.mp here
    have below := h.listed before old
    split
    · exact below
    · exact below
  · intro after here
    obtain ⟨before, old, rfl⟩ := List.mem_map.mp here
    rw [logOf_cleared]
    by_cases same : before.ptr = sh.ptr
    · simp only [same, if_true]
    · simp only [if_neg same, if_neg (Ne.symm same)]
      exact h.logs before old
  · intro shell
    change notified shell (s.toJava ++ [.pageUpdate sh.ptr (.updateVisibleUrl url.spec)]) = _
    rw [notified_append, loggedFor_append, h.told shell]
    rfl
  · intro entry here
    rcases List.mem_append.mp here with old | new
    · exact h.below entry old
    · cases List.mem_singleton.mp new
      exact h.listed sh member

theorem pageEvent_journaled {sh : Shell} (h : Journaled entries s)
    (member : sh ∈ s.browser.allShells) (e : PageEvent) :
    Journaled (entries ++ (entry policy s (.page sh.ptr e)).toList) (s.pageEvent sh e) := by
  cases writes : entry policy s (.page sh.ptr e) with
  | none =>
    obtain ⟨browser, sent⟩ := pageEvent_quiet writes
    rw [Option.toList_none, List.append_nil]
    apply quiet_journaled h _ sent
    rw [browser]
    exact Quiet.refl _
  | some noted =>
    cases e with
    | didNavigateMainFrame different url =>
      cases different with
      | true =>
        cases Option.some.inj writes
        exact cleared_journaled h member
      | false => cases writes
    | _ => cases writes

theorem step_journaled {e : Event} (h : Journaled entries s)
    (taken : step env policy pageEnv s e = some s') :
    Journaled (entries ++ (entry policy s e).toList) s' := by
  unfold step at taken
  split at taken
  · cases taken
  · cases e with
    | attribution e =>
      obtain ⟨a, stepped, rfl⟩ := Option.map_eq_some_iff.mp taken
      exact attribution_journaled h stepped
    | shellCommand shell command =>
      simp only [Option.ite_none_left_eq_some, Option.some.injEq] at taken
      obtain ⟨_, rfl⟩ := taken
      simp only [entry, Option.toList_none, List.append_nil]
      exact dispatch_journaled h shell command
    | page shell e =>
      simp only [Option.ite_none_left_eq_some, Option.map_eq_some_iff] at taken
      obtain ⟨_, sh, found, rfl⟩ := taken
      rw [← ShellRuns.forPtr_ptr found]
      exact pageEvent_journaled h (ShellRuns.forPtr_mem found) e

theorem initial_journaled (blocker : Blocker) (httpsRewriter : Https.HttpsRewriter)
    (settings : AllSettings) : Journaled [] (initial blocker httpsRewriter settings) := by
  refine ⟨?_, ?_, fun shell => rfl, ?_⟩
  · exact fun sh member => (List.not_mem_nil member).elim
  · exact fun sh member => (List.not_mem_nil member).elim
  · exact fun entry member => (List.not_mem_nil member).elim

/-- A `GET_LOG` that is answered. -/
theorem getLog_answers {sh : Shell} (alive : s.fatal = none) (running : s.attribution.fatal = none)
    (found : s.browser.forPtr sh.ptr = some sh) :
    (step env policy pageEnv s (.shellCommand sh.ptr .getLog)).map (·.toJava) =
      some (s.toJava ++ [.shellCommandResponse { log := some sh.log }]) := by
  simp [step, alive, running, State.dispatchShellCommand, found, Shell.handleShellCommand,
    State.respond, State.send, State.setPage]

end

/-- In every run, `GET_LOG` on an open shell answers with the events of the shell alone, each
one once and in order, since its page was last navigated; and the shell has notified Java
of every event there has been. -/
theorem log_is_journal (env : Https.Externals) (policy : Gurl → Gurl → Bool)
    (pageEnv : PageExternals) (blocker : Blocker) (httpsRewriter : Https.HttpsRewriter)
    (settings : AllSettings) {es : List Event} {t : State}
    (reached : Runs.run (step env policy pageEnv) (initial blocker httpsRewriter settings) es =
      some t) (alive : t.fatal = none) (running : t.attribution.fatal = none) (shell : Nat) :
    (shell ∈ t.browser.allShells.map (·.ptr) →
      (step env policy pageEnv t (.shellCommand shell .getLog)).map (·.toJava) =
        some (t.toJava ++ [.shellCommandResponse { log := some (logOf shell
          (journal env policy pageEnv (initial blocker httpsRewriter settings) es)) }])) ∧
    notified shell t.toJava = loggedFor shell
      (journal env policy pageEnv (initial blocker httpsRewriter settings) es) := by
  have h : Journaled (journal env policy pageEnv (initial blocker httpsRewriter settings) es) t :=
    Runs.invariant_chronicle [] (initial_journaled blocker httpsRewriter settings)
      (fun _ _ _ _ journaled taken => step_journaled journaled taken) reached
  refine ⟨fun listed => ?_, h.told shell⟩
  obtain ⟨sh, found⟩ := ShellRuns.forPtr_some_iff.mpr listed
  have ptr : sh.ptr = shell := by simpa using List.find?_some found
  rw [← ptr] at found ⊢
  rw [getLog_answers alive running found, h.logs sh (ShellRuns.forPtr_mem found)]

/-- A page is requested and left for another, which sets a cookie; its popup asks for the
location. -/
def readerRun : List Event :=
  let request := ShellNetworkDelegate.tabRequest
  [.attribution (.shells (.launchShell 0)), .attribution (.renderViewHost 1 2 (some 0)),
    .attribution (.onBeforeURLRequest request),
    .page 1 (.didNavigateMainFrame true request.url),
    .attribution (.shells (.addNewContents 1)), .attribution (.onCanSetCookie request),
    .attribution (.requestGeolocationPermission 2 request.url)]

theorem log_is_journal_reader :
    ∃ t, Runs.run (step Https.literal (fun _ _ => true) canonicalPages) (initial {} {} {})
        readerRun = some t ∧
      (step Https.literal (fun _ _ => true) canonicalPages t (.shellCommand 1 .getLog)).map
          (·.toJava) = some (t.toJava ++ [.shellCommandResponse
            { log := some [⟨.cookie, false, "http://a.com/".toList⟩] }]) ∧
      notified 1 t.toJava = 2 := by
  have runs : (Runs.run (step Https.literal (fun _ _ => true) canonicalPages) (initial {} {} {})
      readerRun).map (fun t => (t.fatal, t.attribution.fatal, t.browser.allShells.map (·.ptr))) =
        some (none, none, [1, 3]) := by decide +kernel
  obtain ⟨t, reached, shape⟩ := Option.map_eq_some_iff.mp runs
  simp only [Prod.mk.injEq] at shape
  obtain ⟨alive, running, listed⟩ := shape
  have told := log_is_journal Https.literal (fun _ _ => true) canonicalPages {} {} {} reached alive
    running 1
  have log : logOf 1 (journal Https.literal (fun _ _ => true) canonicalPages (initial {} {} {})
      readerRun) = [⟨.cookie, false, "http://a.com/".toList⟩] := by decide +kernel
  have count : loggedFor 1 (journal Https.literal (fun _ _ => true) canonicalPages
      (initial {} {} {}) readerRun) = 2 := by decide +kernel
  rw [log, count, listed] at told
  exact ⟨t, reached, told.1 (by simp), told.2⟩

end Seaturtle.BridgeRuns
