import Seaturtle.Shell.Commands

/-! What Java sees of the shells. A call of Java is synchronous, and Java may call back before
it returns; what the code does to a shell after such a call, it does to whatever is there by
then. Java knows a shell by its native address, which may be given out again once the shell's
memory is free. -/
namespace Seaturtle.ReentryRuns
open BridgeRuns (PageEvent)

/-- A call of Java after which the shell goes on. -/
inductive Call where
  /-- `HIDE`; `delete this` is next. -/
  | hide (shell : Nat)
  /-- `CLEANUP`, at the start of `~Shell`. -/
  | cleanup (shell : Nat)
  /-- `LAUNCH_SHELL_RESPONSE`, in `AddNewContents` of the opener. -/
  | launchPopup (opener : Nat)
  /-- `UPDATE_VISIBLE_URL`, in `DidNavigateMainFrame`. -/
  | updateVisibleUrl (shell : Nat)
  deriving DecidableEq

namespace Call

def shell : Call → Nat
  | hide shell => shell
  | cleanup shell => shell
  | launchPopup opener => opener
  | updateVisibleUrl shell => shell

/-- Whether the call is one of `Close`. -/
def closes : Call → Bool
  | hide _ => true
  | cleanup _ => true
  | launchPopup _ => false
  | updateVisibleUrl _ => false

end Call

inductive Heard where
  | message (m : Message)
  /-- Java has returned from `CLEANUP`, and the shell's memory is free. -/
  | released (shell : Nat)
  deriving DecidableEq

structure State where
  process : BridgeRuns.State
  /-- The calls that Java is inside of, the innermost first. -/
  calls : List Call := []
  heard : List Heard := []
  /-- Code of a shell has gone on after the shell was deleted. -/
  dangling : Bool := false

namespace State

def browser (s : State) : Browser := s.process.browser

def shells (s : State) : List Nat := s.browser.allShells.map (·.ptr)

def Alive (s : State) : Prop := s.process.fatal = none ∧ s.dangling = false

instance : DecidablePred Alive := fun _ => inferInstanceAs (Decidable (_ ∧ _))

/-- The process goes on to `process`, and Java gets what it has sent on the way. -/
def goOn (s : State) (process : BridgeRuns.State) : State :=
  { s with
    process
    heard := s.heard ++ (process.toJava.drop s.process.toJava.length).map .message }

def withBrowser (s : State) (b : Browser) : State :=
  s.goOn (s.process.follow (s.process.attribution.withBrowser b))

def enter (s : State) (call : Call) : State := { s with calls := call :: s.calls }

def close (s : State) (shell : Shell) : State :=
  (s.withBrowser (s.browser.sendCommand shell.ptr .hide)).enter (.hide shell.ptr)

def destroyShell (s : State) (shell : Shell) : State :=
  (s.withBrowser (s.browser.sendCommand shell.ptr .cleanup)).enter (.cleanup shell.ptr)

def removeShell (s : State) (shell : Shell) : State :=
  let s := s.withBrowser (s.browser.removeShell shell)
  { s with heard := s.heard ++ [.released shell.ptr] }

def addNewContents (s : State) (opener : Shell) : State :=
  let (newContents, b) := s.browser.createWebContents opener.wc.browserContext
  (s.withBrowser (b.openPopup opener newContents)).enter (.launchPopup opener.ptr)

def didNavigateMainFrame (s : State) (shell : Shell) (isNavigationToDifferentPage : Bool)
    (url : Gurl) : State :=
  (s.goOn (s.process.updateVisibleUrl shell isNavigationToDifferentPage url)).enter
    (.updateVisibleUrl shell.ptr)

/-- `ForPtr` compares addresses. -/
def dispatchShellCommand (pageEnv : PageExternals) (native : Nat → Nat) (s : State)
    (nativeShell : Nat) (command : JavaCommand) : State :=
  match s.browser.allShells.find? (native ·.ptr == nativeShell) with
  | none => { s with process := { s.process with fatal := some .noShell } }
  | some shell =>
    if command = .close then s.close shell
    else s.goOn (s.process.dispatchShellCommand pageEnv shell.ptr command)

/-- What a shell does after a call of Java, where it is still there. -/
def continues (s : State) (shell : Shell) : Call → State
  | .hide _ => s.destroyShell shell
  | .cleanup _ => s.removeShell shell
  | .launchPopup _ => s.withBrowser (s.browser.sendCommand shell.ptr .notifyPopupOpened)
  | .updateVisibleUrl _ => s.goOn (s.process.resetFaviconCandidate shell)

/-- What it does where it is gone. `SendCommand` reads nothing of the shell, and the message goes
out. -/
def dangles (s : State) : Call → State
  | .launchPopup opener =>
    { s.withBrowser (s.browser.sendCommand opener .notifyPopupOpened) with dangling := true }
  | .hide _ | .cleanup _ | .updateVisibleUrl _ => { s with dangling := true }

def returned (s : State) (call : Call) : State :=
  match s.browser.forPtr call.shell with
  | none => s.dangles call
  | some shell => s.continues shell call

end State

inductive Event where
  | process (e : BridgeRuns.Event)
  /-- Java returns from the innermost call. -/
  | returns

variable (env : Https.Externals) (policy : Gurl → Gurl → Bool) (pageEnv : PageExternals)
  (native : Nat → Nat)

/-- An event of the process, up to the first call of Java that it goes on after. -/
def start (s : State) : BridgeRuns.Event → Option State
  | .attribution (.shells (.close shell)) => (s.browser.forPtr shell).map s.close
  | .attribution (.shells (.addNewContents opener)) =>
    (s.browser.forPtr opener).map s.addNewContents
  | .page shell (.didNavigateMainFrame different url) =>
    (s.browser.forPtr shell).map fun shell => s.didNavigateMainFrame shell different url
  | .shellCommand nativeShell command =>
    some (s.dispatchShellCommand pageEnv native nativeShell command)
  | e => (BridgeRuns.step env policy pageEnv s.process e).map s.goOn

def step (s : State) (e : Event) : Option State :=
  if s.dangling || s.process.fatal.isSome || s.process.attribution.fatal.isSome then none
  else match e with
    | .process e => start env policy pageEnv native s e
    | .returns =>
      match s.calls with
      | [] => none
      | call :: calls => some ({ s with calls }.returned call)

def initial (blocker : Blocker) (httpsRewriter : Https.HttpsRewriter) (settings : AllSettings) :
    State :=
  { process := BridgeRuns.initial blocker httpsRewriter settings }

/-! The life of a shell, as Java sees it. -/

inductive Notice where
  | launched
  | update
  | hide
  | cleanup
  | released
  deriving DecidableEq

/-- The shell that a message is about, and what it says of it. -/
def notice : Message → Option (Nat × Notice)
  | .registry (.launchShellResponse shell _) => some (shell, .launched)
  | .registry (.shellCommand shell .hide) => some (shell, .hide)
  | .registry (.shellCommand shell .cleanup) => some (shell, .cleanup)
  | .registry (.shellCommand shell .notifyLogEvent) => some (shell, .update)
  | .registry (.shellCommand shell .notifyPopupOpened) => some (shell, .update)
  | .pageUpdate shell _ => some (shell, .update)
  | .shellCommandResponse _ => none
  | .exitFullscreenMode => none

def Heard.notice : Heard → Option (Nat × Notice)
  | message m => ReentryRuns.notice m
  | released shell => some (shell, .released)

/-- What Java has heard about an address. -/
def noticesAt (native : Nat → Nat) (address : Nat) (heard : List Heard) : List Notice :=
  heard.filterMap fun h =>
    h.notice.bind fun n => if native n.1 = address then some n.2 else none

inductive Stage where
  | absent
  | opened
  | hidden
  | leaving
  deriving DecidableEq

/-- Updates may come until the shell is gone, also from what Java does inside the last calls. -/
def Stage.advance : Stage → Notice → Option Stage
  | .absent, .launched => some .opened
  | .opened, .update => some .opened
  | .opened, .hide => some .hidden
  | .hidden, .update => some .hidden
  | .hidden, .cleanup => some .leaving
  | .leaving, .update => some .leaving
  | .leaving, .released => some .absent
  | _, _ => none

/-- What Java takes an address for; none if what it has heard makes no sense. -/
def seen (native : Nat → Nat) (heard : List Heard) (address : Nat) : Option Stage :=
  Runs.run Stage.advance .absent (noticesAt native address heard)

/-- Memory that is in use is not given out again. -/
def Distinct (native : Nat → Nat) (s : State) : Prop := (s.shells.map native).Nodup

instance (native : Nat → Nat) : DecidablePred (Distinct native) := fun _ =>
  inferInstanceAs (Decidable (List.Nodup _))

/-- The address of the shell that an event closes. -/
def closed (native : Nat → Nat) : Event → Option Nat
  | .process (.attribution (.shells (.close shell))) => some (native shell)
  | .process (.shellCommand nativeShell .close) => some nativeShell
  | _ => none

/-- No shell is closed while Java is inside a call about it. -/
def ClosesOutside (native : Nat → Nat) (s : State) (e : Event) : Prop :=
  ∀ address ∈ closed native e, ∀ call ∈ s.calls, native call.shell ≠ address

instance (native : Nat → Nat) (s : State) (e : Event) : Decidable (ClosesOutside native s e) :=
  inferInstanceAs (Decidable (∀ address ∈ closed native e, _))

/-! What a step does to the shells, to the calls and to what Java has heard. -/

/-- Updates of registered shells, and messages that are about none. -/
def Updates (shells : List Nat) (messages : List Message) : Prop :=
  ∀ m ∈ messages, ∀ shell n, notice m = some (shell, n) → n = .update ∧ shell ∈ shells

/-- Calls are made and return, other than those of `Close`. -/
inductive Moves (shells : List Nat) (calls : List Call) : List Call → Prop where
  | stays : Moves shells calls calls
  | enters {call : Call} (other : call.closes = false) (listed : call.shell ∈ shells) :
    Moves shells calls (call :: calls)
  | leaves {call : Call} {rest : List Call} (first : calls = call :: rest)
    (other : call.closes = false) (listed : call.shell ∈ shells) : Moves shells calls rest

/-- All that a step can do. An event that closes a shell calls `HIDE` unless it ends the
process. -/
inductive Effect (native : Nat → Nat) (s : State) (e : Event) (s' : State) : Prop where
  | updates {messages : List Message} (shells : s'.shells = s.shells)
    (next : s.browser.nextPtr ≤ s'.browser.nextPtr) (calls : Moves s.shells s.calls s'.calls)
    (heard : s'.heard = s.heard ++ messages.map .message) (only : Updates s.shells messages)
    (runs : s'.dangling = false) (closes : s'.process.fatal = none → closed native e = none)
  | opens {new contents : Nat} (shells : s'.shells = s.shells ++ [new])
    (above : s.browser.nextPtr ≤ new) (below : new < s'.browser.nextPtr)
    (calls : Moves s.shells s.calls s'.calls)
    (heard : s'.heard = s.heard ++
      [.message (.registry (.launchShellResponse new contents))])
    (runs : s'.dangling = false) (closes : closed native e = none)
  | hides {shell : Nat} (listed : shell ∈ s.shells) (shells : s'.shells = s.shells)
    (next : s.browser.nextPtr ≤ s'.browser.nextPtr) (calls : s'.calls = .hide shell :: s.calls)
    (heard : s'.heard = s.heard ++ [.message (.registry (.shellCommand shell .hide))])
    (runs : s'.dangling = false) (closes : closed native e = some (native shell))
  | cleansUp {shell : Nat} {rest : List Call} (listed : shell ∈ s.shells)
    (first : s.calls = .hide shell :: rest) (shells : s'.shells = s.shells)
    (next : s.browser.nextPtr ≤ s'.browser.nextPtr) (calls : s'.calls = .cleanup shell :: rest)
    (heard : s'.heard = s.heard ++ [.message (.registry (.shellCommand shell .cleanup))])
    (runs : s'.dangling = false) (returns : e = .returns)
  | removes {shell : Nat} {rest : List Call} (listed : shell ∈ s.shells)
    (first : s.calls = .cleanup shell :: rest) (shells : s'.shells = s.shells.erase shell)
    (next : s.browser.nextPtr ≤ s'.browser.nextPtr) (calls : s'.calls = rest)
    (heard : s'.heard = s.heard ++ [.released shell])
    (runs : s'.dangling = false) (returns : e = .returns)
  | dangles {call : Call} {rest : List Call} (first : s.calls = call :: rest)
    (gone : call.shell ∉ s.shells) (dangling : s'.dangling = true) (returns : e = .returns)

theorem goOn_heard {s : State} {process : BridgeRuns.State} {sent : List Message}
    (toJava : process.toJava = s.process.toJava ++ sent) :
    (s.goOn process).heard = s.heard ++ sent.map .message := by
  rw [State.goOn, toJava, List.drop_left]

theorem withBrowser_heard {s : State} {b : Browser} {sent : List ToJava}
    (toJava : b.toJava = s.browser.toJava ++ sent) :
    (s.withBrowser b).heard = s.heard ++ (sent.map .registry).map .message := by
  apply goOn_heard
  change s.process.toJava ++ (b.toJava.drop s.browser.toJava.length).map .registry = _
  rw [toJava, List.drop_left]

@[simp] theorem withBrowser_browser (s : State) (b : Browser) : (s.withBrowser b).browser = b :=
  rfl

/-- What a step of the process sends when it calls Java last, or not at all. -/
inductive Sends (b b' : Browser) (messages : List Message) : Prop where
  | updates (shells : b'.allShells.map (·.ptr) = b.allShells.map (·.ptr))
    (next : b.nextPtr ≤ b'.nextPtr) (only : Updates (b.allShells.map (·.ptr)) messages)
  | opens {new contents : Nat}
    (shells : b'.allShells.map (·.ptr) = b.allShells.map (·.ptr) ++ [new])
    (above : b.nextPtr ≤ new) (below : new < b'.nextPtr)
    (sent : messages = [.registry (.launchShellResponse new contents)])

theorem updates_nil (shells : List Nat) : Updates shells [] :=
  fun _ none => (List.not_mem_nil none).elim

theorem updates_one {shells : List Nat} {m : Message} {shell : Nat} (listed : shell ∈ shells)
    (about : notice m = some (shell, .update)) : Updates shells [m] := by
  intro x member s n told
  cases List.mem_singleton.mp member
  rw [about] at told
  cases told
  exact ⟨rfl, listed⟩

theorem updates_none {shells : List Nat} {m : Message} (none : notice m = none) :
    Updates shells [m] := by
  intro x member s n told
  cases List.mem_singleton.mp member
  rw [none] at told
  cases told

section
variable {env policy pageEnv native} {b b' : Browser}

theorem opens_sends {new : Shell} (opens : ShellRuns.Opens b b' new)
    (sent : b'.toJava = b.toJava ++ [.launchShellResponse new.ptr new.wc.ptr]) :
    ∃ sent, b'.toJava = b.toJava ++ sent ∧ Sends b b' (sent.map .registry) := by
  have above : b.nextPtr ≤ new.ptr := by
    rw [opens.ptr]
    exact Nat.le_succ _
  have below : new.ptr < b'.nextPtr := by
    rw [opens.ptr, opens.next]
    exact Nat.lt_succ_self _
  refine ⟨_, sent, .opens ?_ above below rfl⟩
  rw [opens.shells, List.map_append]
  rfl

theorem quiet_sends (same : b' = b) :
    ∃ sent, b'.toJava = b.toJava ++ sent ∧ Sends b b' (sent.map .registry) := by
  subst same
  exact ⟨[], (List.append_nil _).symm, .updates rfl (Nat.le_refl _) (updates_nil _)⟩

theorem log_sends (found : Option Shell) (type : LogEventType) (blocked : Bool) (description : Str)
    (listed : ∀ sh, found = some sh → sh ∈ b.allShells) :
    ∃ sent, (b.logEventIfFound found type blocked description).toJava = b.toJava ++ sent ∧
      Sends b (b.logEventIfFound found type blocked description) (sent.map .registry) := by
  cases found with
  | none => exact quiet_sends rfl
  | some sh =>
    refine ⟨[.shellCommand sh.ptr .notifyLogEvent], rfl, .updates ?_ (Nat.le_refl _) ?_⟩
    · exact AttributionRuns.logEvent_ptrs b sh type blocked description
    · exact updates_one (List.mem_map_of_mem (listed sh rfl)) rfl

/-- The events of the UI thread that close no shell and open no popup. -/
theorem shells_sends {e : ShellRuns.Event} (taken : ShellRuns.step b e = some b')
    (stays : ∀ shell, e ≠ .close shell) (alone : ∀ opener, e ≠ .addNewContents opener) :
    ∃ sent, b'.toJava = b.toJava ++ sent ∧ Sends b b' (sent.map .registry) := by
  cases e with
  | launchShell parent =>
    cases taken
    unfold Browser.launchShell
    split
    · exact opens_sends ⟨rfl, rfl, rfl, rfl, rfl, [], nofun, (List.append_nil _).symm⟩ rfl
    · exact opens_sends ⟨rfl, rfl, rfl, rfl, rfl, [], nofun, (List.append_nil _).symm⟩ rfl
  | addNewContents opener => exact absurd rfl (alone opener)
  | close shell => exact absurd rfl (stays shell)
  | updateGlobalSettings settings =>
    cases taken
    exact ⟨[], (List.append_nil _).symm, .updates rfl (Nat.le_refl _) (updates_nil _)⟩

theorem attribution_sends {a a' : AttributionRuns.State} {e : AttributionRuns.Event}
    (taken : AttributionRuns.step env policy a e = some a')
    (stays : ∀ shell, e ≠ .shells (.close shell))
    (alone : ∀ opener, e ≠ .shells (.addNewContents opener)) :
    ∃ sent, a'.browser.toJava = a.browser.toJava ++ sent ∧
      Sends a.browser a'.browser (sent.map .registry) := by
  cases looks : AttributionRuns.lookup a e with
  | some found =>
    cases AttributionRuns.step_handled looks taken with
    | quiet same _ => exact quiet_sends same
    | logs type blocked description logged _ =>
      rw [logged]
      apply log_sends
      rintro sh rfl
      exact AttributionRuns.lookup_mem looks
    | null _ _ _ same _ => exact quiet_sends same
  | none =>
    rcases AttributionRuns.step_unattributed looks taken with same | ⟨e', rfl, shells⟩
    · exact quiet_sends same
    · exact shells_sends shells (fun shell same => stays shell (congrArg _ same))
        fun opener same => alone opener (congrArg _ same)

variable {p p' : BridgeRuns.State} {s s' : State}

theorem send_sends {m : Message} (only : Updates (p.browser.allShells.map (·.ptr)) [m]) :
    ∃ sent, (p.send m).toJava = p.toJava ++ sent ∧ Sends p.browser (p.send m).browser sent :=
  ⟨[m], rfl, .updates rfl (Nat.le_refl _) only⟩

theorem silent_sends (browser : p'.browser = p.browser) (toJava : p'.toJava = p.toJava) :
    ∃ sent, p'.toJava = p.toJava ++ sent ∧ Sends p.browser p'.browser sent := by
  rw [browser]
  exact ⟨[], by rw [toJava, List.append_nil], .updates rfl (Nat.le_refl _) (updates_nil _)⟩

theorem updateVisibleUrl_shells (sh : Shell) (different : Bool) (url : Gurl) :
    (p.updateVisibleUrl sh different url).browser.allShells.map (·.ptr) =
      p.browser.allShells.map (·.ptr) := by
  cases different with
  | true => exact clearLog_ptrs p.browser sh
  | false => rfl

theorem pageEvent_sends {sh : Shell} {e : PageEvent} (listed : sh ∈ p.browser.allShells)
    (stays : ∀ different url, e ≠ .didNavigateMainFrame different url) :
    ∃ sent, (p.pageEvent sh e).toJava = p.toJava ++ sent ∧
      Sends p.browser (p.pageEvent sh e).browser sent := by
  have update (u : PageUpdate) : Updates (p.browser.allShells.map (·.ptr)) [.pageUpdate sh.ptr u] :=
    updates_one (List.mem_map_of_mem listed) rfl
  cases e with
  | loadingStateChanged isLoading => exact send_sends (update _)
  | loadProgressChanged progress => exact send_sends (update _)
  | didNavigateMainFrame different url => exact absurd rfl (stays different url)
  | didFinishLoad isMainFrame validatedUrl =>
    cases isMainFrame with
    | true => exact send_sends (update _)
    | false => exact silent_sends rfl rfl
  | didUpdateFaviconUrl candidates => exact silent_sends rfl rfl
  | toggleFullscreenModeForTab enterFullscreen =>
    cases enterFullscreen with
    | true => exact silent_sends rfl rfl
    | false => exact ⟨[.exitFullscreenMode], rfl, .updates rfl (Nat.le_refl _) (updates_none rfl)⟩
  | changed lastCommittedEntry visibleEntry activeEntry url title => exact silent_sends rfl rfl

theorem dispatch_sends {shell : Nat} {command : JavaCommand} (stays : command ≠ .close) :
    ∃ sent, (p.dispatchShellCommand pageEnv shell command).toJava = p.toJava ++ sent ∧
      Sends p.browser (p.dispatchShellCommand pageEnv shell command).browser sent := by
  unfold BridgeRuns.State.dispatchShellCommand
  split
  · exact silent_sends rfl rfl
  · next sh found =>
    split
    · exact silent_sends rfl rfl
    · next result handled =>
      have open_ : result.closes = false := by
        cases command with
        | close => exact absurd rfl stays
        | unknown command => cases handled
        | _ =>
          cases handled
          rfl
      simp only [open_]
      cases result.response with
      | none => exact silent_sends rfl rfl
      | some response =>
        exact ⟨[.shellCommandResponse response], rfl,
          .updates rfl (Nat.le_refl _) (updates_none rfl)⟩

theorem goOn_effect {e : Event} (running : s.dangling = false) (closes : closed native e = none)
    (sends : ∃ sent, p'.toJava = s.process.toJava ++ sent ∧ Sends s.browser p'.browser sent) :
    Effect native s e (s.goOn p') := by
  obtain ⟨sent, toJava, sends⟩ := sends
  have heard := goOn_heard toJava
  cases sends with
  | updates shells next only => exact .updates shells next .stays heard only running fun _ => closes
  | opens shells above below alone =>
    subst alone
    exact .opens shells above below .stays heard running closes

theorem close_effect {sh : Shell} {e : Event} (running : s.dangling = false)
    (listed : sh ∈ s.browser.allShells) (closes : closed native e = some (native sh.ptr)) :
    Effect native s e (s.close sh) := by
  have sent : (s.browser.sendCommand sh.ptr .hide).toJava =
      s.browser.toJava ++ [.shellCommand sh.ptr .hide] := rfl
  exact .hides (List.mem_map_of_mem listed) rfl (Nat.le_refl _) rfl (withBrowser_heard sent)
    running closes

theorem addNewContents_effect {sh : Shell} {e : Event} (running : s.dangling = false)
    (listed : sh ∈ s.browser.allShells) (closes : closed native e = none) :
    Effect native s e (s.addNewContents sh) := by
  let popup := s.browser.createWebContents sh.wc.browserContext
  have sent : (popup.2.openPopup sh popup.1).toJava =
      s.browser.toJava ++ [.launchShellResponse (s.browser.nextPtr + 1) s.browser.nextPtr] := rfl
  have shells : (s.addNewContents sh).shells = s.shells ++ [s.browser.nextPtr + 1] := by
    exact List.map_append
  exact .opens shells (Nat.le_succ _) (Nat.lt_succ_self _)
    (.enters rfl (List.mem_map_of_mem listed)) (withBrowser_heard sent) running closes

theorem didNavigateMainFrame_effect {sh : Shell} {e : Event} (running : s.dangling = false)
    (listed : sh ∈ s.browser.allShells) (closes : closed native e = none) (different : Bool)
    (url : Gurl) : Effect native s e (s.didNavigateMainFrame sh different url) := by
  have member : sh.ptr ∈ s.shells := List.mem_map_of_mem listed
  have next : s.browser.nextPtr ≤
      (s.process.updateVisibleUrl sh different url).browser.nextPtr := by
    cases different <;> exact Nat.le_refl _
  have toJava : (s.process.updateVisibleUrl sh different url).toJava =
      s.process.toJava ++ [.pageUpdate sh.ptr (.updateVisibleUrl url.spec)] := by
    cases different <;> rfl
  exact .updates (updateVisibleUrl_shells sh different url) next (.enters rfl member)
    (goOn_heard toJava) (updates_one member rfl) running fun _ => closes

theorem dispatch_effect {nativeShell : Nat} {command : JavaCommand} (running : s.dangling = false) :
    Effect native s (.process (.shellCommand nativeShell command))
      (s.dispatchShellCommand pageEnv native nativeShell command) := by
  unfold State.dispatchShellCommand
  split
  · have silent : s.heard = s.heard ++ ([] : List Message).map .message := by simp
    exact .updates rfl (Nat.le_refl _) .stays silent (updates_nil _) running nofun
  · next sh found =>
    have here : native sh.ptr = nativeShell := by simpa using List.find?_some found
    split
    · next close =>
      subst close
      exact close_effect running (List.mem_of_find?_eq_some found) (congrArg some here.symm)
    · next stays =>
      have closes : closed native (.process (.shellCommand nativeShell command)) = none := by
        cases command <;> first | exact absurd rfl stays | rfl
      exact goOn_effect running closes (dispatch_sends stays)

theorem process_effect {e : BridgeRuns.Event} (running : s.dangling = false)
    (closes : closed native (.process e) = none)
    (taken : (BridgeRuns.step env policy pageEnv s.process e).map s.goOn = some s')
    (sends : ∀ p', BridgeRuns.step env policy pageEnv s.process e = some p' →
      ∃ sent, p'.toJava = s.process.toJava ++ sent ∧ Sends s.browser p'.browser sent) :
    Effect native s (.process e) s' := by
  obtain ⟨p', stepped, rfl⟩ := Option.map_eq_some_iff.mp taken
  exact goOn_effect running closes (sends p' stepped)

theorem attribution_effect {e : AttributionRuns.Event} (running : s.dangling = false)
    (taken : start env policy pageEnv native s (.attribution e) = some s') :
    Effect native s (.process (.attribution e)) s' := by
  have follows (stays : ∀ shell, e ≠ .shells (.close shell))
      (alone : ∀ opener, e ≠ .shells (.addNewContents opener)) (p' : BridgeRuns.State)
      (stepped : BridgeRuns.step env policy pageEnv s.process (.attribution e) = some p') :
      ∃ sent, p'.toJava = s.process.toJava ++ sent ∧ Sends s.browser p'.browser sent := by
    unfold BridgeRuns.step at stepped
    split at stepped
    · cases stepped
    · obtain ⟨a, went, rfl⟩ := Option.map_eq_some_iff.mp stepped
      obtain ⟨sent, toJava, sends⟩ := attribution_sends went stays alone
      refine ⟨sent.map .registry, ?_, sends⟩
      change s.process.toJava ++ _ = _
      rw [toJava, BridgeRuns.State.browser, List.drop_left]
  cases e with
  | shells e =>
    cases e with
    | close shell =>
      obtain ⟨sh, found, rfl⟩ := Option.map_eq_some_iff.mp taken
      have ptr := ShellRuns.forPtr_ptr found
      exact close_effect running (ShellRuns.forPtr_mem found) (by rw [ptr]; rfl)
    | addNewContents opener =>
      obtain ⟨sh, found, rfl⟩ := Option.map_eq_some_iff.mp taken
      exact addNewContents_effect running (ShellRuns.forPtr_mem found) rfl
    | _ => exact process_effect running rfl taken (follows nofun nofun)
  | _ => exact process_effect running rfl taken (follows nofun nofun)

theorem page_effect {shell : Nat} {e : PageEvent} (running : s.dangling = false)
    (taken : start env policy pageEnv native s (.page shell e) = some s') :
    Effect native s (.process (.page shell e)) s' := by
  have follows (stays : ∀ different url, e ≠ .didNavigateMainFrame different url)
      (p' : BridgeRuns.State)
      (stepped : BridgeRuns.step env policy pageEnv s.process (.page shell e) = some p') :
      ∃ sent, p'.toJava = s.process.toJava ++ sent ∧ Sends s.browser p'.browser sent := by
    simp only [BridgeRuns.step, Option.ite_none_left_eq_some, Option.map_eq_some_iff] at stepped
    obtain ⟨_, _, sh, found, rfl⟩ := stepped
    exact pageEvent_sends (ShellRuns.forPtr_mem found) stays
  cases e with
  | didNavigateMainFrame different url =>
    obtain ⟨sh, found, rfl⟩ := Option.map_eq_some_iff.mp taken
    exact didNavigateMainFrame_effect running (ShellRuns.forPtr_mem found) rfl different url
  | _ => exact process_effect running rfl taken (follows nofun)

theorem removeShell_heard (s : State) (sh : Shell) :
    (s.removeShell sh).heard = s.heard ++ [.released sh.ptr] := by
  have sent : (s.browser.removeShell sh).toJava = s.browser.toJava ++ [] := by
    rw [ShellRuns.removeShell_toJava, List.append_nil]
  change (s.withBrowser (s.browser.removeShell sh)).heard ++ [.released sh.ptr] = _
  rw [withBrowser_heard sent]
  simp

/-- What a shell does after the innermost call, if it is still there. -/
theorem continues_effect {call : Call} {rest : List Call} {sh : Shell}
    (running : s.dangling = false) (first : s.calls = call :: rest)
    (found : s.browser.forPtr call.shell = some sh) :
    Effect native s .returns ({ s with calls := rest }.continues sh call) := by
  have ptr := ShellRuns.forPtr_ptr found
  have listed : call.shell ∈ s.shells := by
    rw [← ptr]
    exact List.mem_map_of_mem (ShellRuns.forPtr_mem found)
  cases call with
  | hide shell =>
    cases ptr
    have sent : (s.browser.sendCommand sh.ptr .cleanup).toJava =
        s.browser.toJava ++ [.shellCommand sh.ptr .cleanup] := rfl
    exact .cleansUp listed first rfl (Nat.le_refl _) rfl (withBrowser_heard sent) running rfl
  | cleanup shell =>
    cases ptr
    have next := Nat.le_of_eq (ShellRuns.removeShell_nextPtr s.browser sh).symm
    exact .removes listed first (ShellRuns.removeShell_shells s.browser sh) next rfl
      (removeShell_heard _ sh) running rfl
  | launchPopup opener =>
    cases ptr
    have sent : (s.browser.sendCommand sh.ptr .notifyPopupOpened).toJava =
        s.browser.toJava ++ [.shellCommand sh.ptr .notifyPopupOpened] := rfl
    exact .updates rfl (Nat.le_refl _) (.leaves first rfl listed) (withBrowser_heard sent)
      (updates_one listed rfl) running fun _ => rfl
  | updateVisibleUrl shell =>
    have silent : (s.process.resetFaviconCandidate sh).toJava = s.process.toJava ++ [] :=
      (List.append_nil _).symm
    exact .updates rfl (Nat.le_refl _) (.leaves first rfl listed) (goOn_heard silent)
      (updates_nil _) running fun _ => rfl

theorem returned_effect {call : Call} {rest : List Call} (running : s.dangling = false)
    (first : s.calls = call :: rest) :
    Effect native s .returns ({ s with calls := rest }.returned call) := by
  unfold State.returned
  split
  · next missing =>
    have gone : call.shell ∉ s.shells := by
      intro listed
      obtain ⟨sh, found⟩ := ShellRuns.forPtr_some_iff.mpr listed
      exact Option.some_ne_none sh (found.symm.trans missing)
    cases call <;> exact .dangles first gone rfl rfl
  · next sh found => exact continues_effect running first found

theorem step_effect {e : Event} (taken : step env policy pageEnv native s e = some s') :
    s.Alive ∧ Effect native s e s' := by
  unfold step at taken
  split at taken
  · cases taken
  · next running =>
    simp only [Bool.or_eq_true, not_or, Bool.not_eq_true, Option.isSome_eq_false_iff,
      Option.isNone_iff_eq_none] at running
    obtain ⟨⟨running, alive⟩, _⟩ := running
    refine ⟨⟨alive, running⟩, ?_⟩
    cases e with
    | process e =>
      cases e with
      | attribution e => exact attribution_effect running taken
      | shellCommand nativeShell command =>
        cases taken
        exact dispatch_effect running
      | page shell e => exact page_effect running taken
    | returns =>
      simp only at taken
      split at taken
      · cases taken
      · next call rest first =>
        cases taken
        exact returned_effect running first

end

/-! Java may leave the shells alone inside its calls. -/

section
variable {env policy pageEnv native} {p p' : BridgeRuns.State} {s : State}

/-- To follow in two steps is to follow in one. -/
theorem follow_twice {b b' : Browser} {sent sent' : List ToJava}
    (first : b.toJava = p.browser.toJava ++ sent) (second : b'.toJava = b.toJava ++ sent') :
    (p.follow (p.attribution.withBrowser b)).follow (p.attribution.withBrowser b') =
      p.follow (p.attribution.withBrowser b') := by
  have sent_ : (p.follow (p.attribution.withBrowser b)).toJava ++
        (b'.toJava.drop b.toJava.length).map .registry =
      (p.follow (p.attribution.withBrowser b')).toJava := by
    simp only [BridgeRuns.State.follow, AttributionRuns.State.withBrowser_browser, second]
    rw [List.drop_left, first, List.drop_left, List.append_assoc p.browser.toJava, List.drop_left,
      List.map_append, List.append_assoc]
  exact congrArg (fun toJava => { p with attribution := p.attribution.withBrowser b', toJava })
    sent_

theorem process_running {e : BridgeRuns.Event}
    (taken : BridgeRuns.step env policy pageEnv p e = some p') :
    p.fatal = none ∧ p.attribution.fatal = none := by
  unfold BridgeRuns.step at taken
  split at taken
  · cases taken
  · next running =>
    refine ⟨by simpa using running, ?_⟩
    cases e with
    | attribution e =>
      obtain ⟨a, stepped, _⟩ := Option.map_eq_some_iff.mp taken
      unfold AttributionRuns.step at stepped
      split at stepped
      · cases stepped
      · next running => simpa using running
    | shellCommand shell command =>
      simp only [Option.ite_none_left_eq_some] at taken
      simpa using taken.1
    | page shell e =>
      simp only [Option.ite_none_left_eq_some] at taken
      simpa using taken.1

theorem step_process (alive : s.Alive) (running : s.process.attribution.fatal = none)
    (e : BridgeRuns.Event) :
    step env policy pageEnv native s (.process e) = start env policy pageEnv native s e := by
  simp [step, alive.1, alive.2, running]

theorem step_returns {call : Call} {rest : List Call} {sh : Shell} (alive : s.Alive)
    (running : s.process.attribution.fatal = none) (first : s.calls = call :: rest)
    (found : s.browser.forPtr call.shell = some sh) :
    step env policy pageEnv native s .returns =
      some ({ s with calls := rest }.continues sh call) := by
  have returns : step env policy pageEnv native s .returns =
      some ({ s with calls := rest }.returned call) := by
    simp [step, alive.1, alive.2, running, first]
  have here : ({ s with calls := rest } : State).browser.forPtr call.shell = some sh := found
  rw [returns, State.returned, here]

/-- The step of the process `e`, up to the return of the last call that it makes of Java. -/
def Whole (env : Https.Externals) (policy : Gurl → Gurl → Bool) (pageEnv : PageExternals)
    (s : State) (e : BridgeRuns.Event) (p' : BridgeRuns.State) : Prop :=
  ∃ n t, Runs.run (step env policy pageEnv id) s (.process e :: List.replicate n .returns) =
    some t ∧ t.process = p' ∧ t.calls = s.calls ∧ t.dangling = false

theorem close_process (s : State) (sh : Shell) :
    (((s.close sh).destroyShell sh).removeShell sh).process =
      s.process.follow (s.process.attribution.withBrowser (s.browser.close sh)) := by
  have hide : (s.browser.sendCommand sh.ptr .hide).toJava =
      s.process.browser.toJava ++ [.shellCommand sh.ptr .hide] := rfl
  have cleanup : ((s.browser.sendCommand sh.ptr .hide).sendCommand sh.ptr .cleanup).toJava =
      (s.browser.sendCommand sh.ptr .hide).toJava ++ [.shellCommand sh.ptr .cleanup] := rfl
  have both : ((s.browser.sendCommand sh.ptr .hide).sendCommand sh.ptr .cleanup).toJava =
      s.process.browser.toJava ++ [.shellCommand sh.ptr .hide, .shellCommand sh.ptr .cleanup] := by
    rw [cleanup, hide, List.append_assoc]
    rfl
  have remove : (s.browser.close sh).toJava =
      ((s.browser.sendCommand sh.ptr .hide).sendCommand sh.ptr .cleanup).toJava ++ [] := by
    rw [Browser.close, Browser.destroyShell, ShellRuns.removeShell_toJava, List.append_nil]
  have cleaned := follow_twice hide cleanup
  exact (congrArg (fun q => BridgeRuns.State.follow q _) cleaned).trans (follow_twice both remove)

theorem close_whole {e : BridgeRuns.Event} {sh : Shell} (alive : s.Alive)
    (running : s.process.attribution.fatal = none) (found : s.browser.forPtr sh.ptr = some sh)
    (closes : start env policy pageEnv id s e = some (s.close sh)) :
    Whole env policy pageEnv s e
      (s.process.follow (s.process.attribution.withBrowser (s.browser.close sh))) := by
  have hide : s.browser.forPtr (Call.hide sh.ptr).shell = some sh := found
  have cleanup : s.browser.forPtr (Call.cleanup sh.ptr).shell = some sh := found
  let inHide : State := { s.close sh with calls := s.calls }
  let inCleanup : State := { inHide.destroyShell sh with calls := s.calls }
  have hidden : step env policy pageEnv id (s.close sh) .returns = some (inHide.destroyShell sh) :=
    step_returns (s := s.close sh) alive running rfl hide
  have cleaned : step env policy pageEnv id (inHide.destroyShell sh) .returns =
      some (inCleanup.removeShell sh) :=
    step_returns (s := inHide.destroyShell sh) alive running rfl cleanup
  refine ⟨2, inCleanup.removeShell sh, ?_, close_process s sh, rfl, alive.2⟩
  rw [Runs.run_cons, step_process alive running, closes, Option.bind_some, List.replicate_succ,
    Runs.run_cons, hidden, Option.bind_some, List.replicate_succ, Runs.run_cons, cleaned,
    Option.bind_some]
  rfl

theorem popup_whole {e : BridgeRuns.Event} {sh : Shell} (alive : s.Alive)
    (running : s.process.attribution.fatal = none) (found : s.browser.forPtr sh.ptr = some sh)
    (opens : start env policy pageEnv id s e = some (s.addNewContents sh)) :
    Whole env policy pageEnv s e (s.process.follow (s.process.attribution.withBrowser
      ((s.browser.createWebContents sh.wc.browserContext).2.addNewContents sh
        (s.browser.createWebContents sh.wc.browserContext).1))) := by
  let b := (s.browser.createWebContents sh.wc.browserContext).2.openPopup sh
    (s.browser.createWebContents sh.wc.browserContext).1
  let after : State := { s.addNewContents sh with calls := s.calls }
  have listed : (s.addNewContents sh).browser.forPtr (Call.launchPopup sh.ptr).shell = some sh := by
    change (s.browser.allShells ++ [_]).find? _ = some sh
    rw [List.find?_append]
    exact congrArg (Option.or · _) found
  have returns : step env policy pageEnv id (s.addNewContents sh) .returns =
      some (after.withBrowser (after.browser.sendCommand sh.ptr .notifyPopupOpened)) :=
    step_returns (s := s.addNewContents sh) alive running rfl listed
  have launch : b.toJava = s.process.browser.toJava ++
      [.launchShellResponse (s.browser.nextPtr + 1) s.browser.nextPtr] := rfl
  have notify : (b.sendCommand sh.ptr .notifyPopupOpened).toJava =
      b.toJava ++ [.shellCommand sh.ptr .notifyPopupOpened] := rfl
  refine ⟨1, after.withBrowser (after.browser.sendCommand sh.ptr .notifyPopupOpened), ?_,
    follow_twice launch notify, rfl, alive.2⟩
  rw [Runs.run_cons, step_process alive running, opens, Option.bind_some, List.replicate_succ,
    Runs.run_cons, returns, Option.bind_some]
  rfl

theorem navigation_whole {e : BridgeRuns.Event} {sh : Shell} {different : Bool} {url : Gurl}
    (alive : s.Alive) (running : s.process.attribution.fatal = none)
    (found : s.browser.forPtr sh.ptr = some sh)
    (navigates : start env policy pageEnv id s e = some (s.didNavigateMainFrame sh different url)) :
    Whole env policy pageEnv s e (s.process.didNavigateMainFrame sh different url) := by
  let after : State := { s.didNavigateMainFrame sh different url with calls := s.calls }
  have listed : sh.ptr ∈ (s.didNavigateMainFrame sh different url).shells := by
    have same := updateVisibleUrl_shells (p := s.process) sh different url
    change sh.ptr ∈ (s.process.updateVisibleUrl sh different url).browser.allShells.map (·.ptr)
    rw [same]
    exact ShellRuns.forPtr_some_iff.mp ⟨sh, found⟩
  obtain ⟨now, here⟩ := ShellRuns.forPtr_some_iff.mpr listed
  have here : (s.didNavigateMainFrame sh different url).browser.forPtr
      (Call.updateVisibleUrl sh.ptr).shell = some now := here
  have lives : (s.didNavigateMainFrame sh different url).Alive := by
    cases different <;> exact alive
  have runs : (s.didNavigateMainFrame sh different url).process.attribution.fatal = none := by
    cases different <;> exact running
  have returns : step env policy pageEnv id (s.didNavigateMainFrame sh different url) .returns =
      some (after.goOn (after.process.resetFaviconCandidate now)) :=
    step_returns (s := s.didNavigateMainFrame sh different url) lives runs rfl here
  have reset : after.process.resetFaviconCandidate now =
      s.process.didNavigateMainFrame sh different url := by
    have ptr : now.ptr = sh.ptr := ShellRuns.forPtr_ptr here
    simp only [BridgeRuns.State.resetFaviconCandidate, ptr]
    rfl
  refine ⟨1, after.goOn (after.process.resetFaviconCandidate now), ?_, reset, rfl, lives.2⟩
  rw [Runs.run_cons, step_process alive running, navigates, Option.bind_some, List.replicate_succ,
    Runs.run_cons, returns, Option.bind_some]
  rfl

theorem single_whole {e : BridgeRuns.Event} (alive : s.Alive)
    (running : s.process.attribution.fatal = none)
    (single : start env policy pageEnv id s e = some (s.goOn p')) :
    Whole env policy pageEnv s e p' := by
  refine ⟨0, s.goOn p', ?_, rfl, rfl, alive.2⟩
  rw [Runs.run_cons, step_process alive running, single]
  rfl

theorem setPage_self (p : BridgeRuns.State) (shell : Nat) :
    p.setPage shell (p.pages shell) = p := by
  have same : (fun ptr => if ptr = shell then p.pages shell else p.pages ptr) = p.pages := by
    funext ptr
    split
    · next here => rw [here]
    · rfl
  rw [BridgeRuns.State.setPage, same]

theorem command_whole (alive : s.Alive) (running : s.process.attribution.fatal = none)
    (nativeShell : Nat) (command : JavaCommand) :
    Whole env policy pageEnv s (.shellCommand nativeShell command)
      (s.process.dispatchShellCommand pageEnv nativeShell command) := by
  have starts : start env policy pageEnv id s (.shellCommand nativeShell command) =
      some (s.dispatchShellCommand pageEnv id nativeShell command) := rfl
  cases found : s.process.browser.forPtr nativeShell with
  | none =>
    have nested : s.dispatchShellCommand pageEnv id nativeShell command =
        { s with process := { s.process with fatal := some .noShell } } := by
      have missing : s.browser.allShells.find? (id ·.ptr == nativeShell) = none := found
      rw [State.dispatchShellCommand, missing]
    rw [BridgeRuns.State.dispatchShellCommand, found]
    refine ⟨0, { s with process := { s.process with fatal := some .noShell } }, ?_, rfl, rfl,
      alive.2⟩
    rw [Runs.run_cons, step_process alive running, starts, nested]
    rfl
  | some sh =>
    cases ShellRuns.forPtr_ptr found
    have listed : s.browser.allShells.find? (id ·.ptr == sh.ptr) = some sh := found
    by_cases close : command = .close
    · subst close
      have atomic : s.process.dispatchShellCommand pageEnv sh.ptr .close =
          s.process.follow (s.process.attribution.withBrowser (s.browser.close sh)) := by
        rw [BridgeRuns.State.dispatchShellCommand, found]
        simp only [Shell.handleShellCommand, setPage_self]
        rfl
      rw [atomic]
      apply close_whole alive running found
      rw [starts, State.dispatchShellCommand, listed]
      rfl
    · apply single_whole alive running
      rw [starts, State.dispatchShellCommand, listed]
      simp only [if_neg close]

/-- Each step of the process is taken, where Java leaves the shells alone inside its calls. -/
theorem step_whole {e : BridgeRuns.Event} (running : s.dangling = false)
    (taken : BridgeRuns.step env policy pageEnv s.process e = some p') :
    Whole env policy pageEnv s e p' := by
  obtain ⟨fatal, crash⟩ := process_running taken
  have alive : s.Alive := ⟨fatal, running⟩
  have single (goes : start env policy pageEnv id s e =
      (BridgeRuns.step env policy pageEnv s.process e).map s.goOn) :
      Whole env policy pageEnv s e p' := by
    apply single_whole alive crash
    rw [goes, taken]
    rfl
  have shells {e : ShellRuns.Event} (went : BridgeRuns.step env policy pageEnv s.process
        (.attribution (.shells e)) = some p') :
      ∃ b, ShellRuns.step s.browser e = some b ∧
        s.process.follow (s.process.attribution.withBrowser b) = p' := by
    simp only [BridgeRuns.step, AttributionRuns.step, fatal, crash, Option.isSome_none,
      Bool.false_eq_true, if_false, Option.map_map, Option.map_eq_some_iff] at went
    exact went
  cases e with
  | attribution e =>
    cases e with
    | shells e =>
      obtain ⟨b, stepped, rfl⟩ := shells taken
      cases e with
      | close shell =>
        obtain ⟨sh, found, rfl⟩ := Option.map_eq_some_iff.mp stepped
        cases ShellRuns.forPtr_ptr found
        apply close_whole alive crash found
        simp [start, found]
      | addNewContents opener =>
        obtain ⟨sh, found, rfl⟩ := Option.map_eq_some_iff.mp stepped
        cases ShellRuns.forPtr_ptr found
        apply popup_whole alive crash found
        simp [start, found]
      | _ => exact single rfl
    | _ => exact single rfl
  | shellCommand nativeShell command =>
    simp only [BridgeRuns.step, fatal, crash, Option.isSome_none, Bool.false_eq_true, if_false,
      Option.some.injEq] at taken
    subst taken
    exact command_whole alive crash nativeShell command
  | page shell e =>
    simp only [BridgeRuns.step, fatal, crash, Option.isSome_none, Bool.false_eq_true, if_false,
      Option.map_eq_some_iff] at taken
    obtain ⟨sh, found, rfl⟩ := taken
    cases ShellRuns.forPtr_ptr found
    cases e with
    | didNavigateMainFrame different url =>
      apply navigation_whole alive crash found
      exact Option.map_eq_some_iff.mpr ⟨sh, found, rfl⟩
    | _ => exact single rfl

/-- Every run of the process is one of these, in which Java leaves the shells alone inside its
calls. -/
theorem run_whole {es : List BridgeRuns.Event} (running : s.dangling = false) (idle : s.calls = [])
    (reached : Runs.run (BridgeRuns.step env policy pageEnv) s.process es = some p') :
    ∃ es' t, Runs.run (step env policy pageEnv id) s es' = some t ∧ t.process = p' ∧
      t.calls = [] ∧ t.dangling = false := by
  induction es generalizing s with
  | nil =>
    cases reached
    exact ⟨[], s, rfl, rfl, idle, running⟩
  | cons e es ih =>
    simp only [Runs.run_cons, Option.bind_eq_some_iff] at reached
    obtain ⟨p, taken, rest⟩ := reached
    obtain ⟨n, u, went, rfl, same, runs⟩ := step_whole running taken
    obtain ⟨es', t, later, process, idle', runs'⟩ := ih runs (same.trans idle) rest
    refine ⟨.process e :: List.replicate n .returns ++ es', t, ?_, process, idle', runs'⟩
    rw [Runs.run_append, went]
    exact later

end

end Seaturtle.ReentryRuns
