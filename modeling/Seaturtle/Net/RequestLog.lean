import Seaturtle.Net.Delegate

/-! What the log of a shell says of its requests. -/
namespace Seaturtle.ShellNetworkDelegate

/-- The shell's log has the event at its end; no other log is changed. -/
def Appended (b b' : Browser) (shell : Shell) (event : LogEvent) : Prop :=
  b'.allShells = b.allShells.map fun s =>
    if s.ptr = shell.ptr then { s with log := s.log ++ [event] } else s

/-- One event is logged, and it says blocked where the request does not go out. -/
def LoggedTruly (p : Process) (request : URLRequest) (shell : Shell) (out : Outcome) : Prop :=
  ∃ blocked, Appended p.browser out.process.browser shell ⟨.request, blocked, request.url.spec⟩ ∧
    (blocked = true ↔ out.code ≠ .ok)

/-- The blocker lets the request through, and under `https_only` the rewriter does not:
its http URL was rewritten before. -/
def RefusedLater (p : Process) (request : URLRequest) : Prop :=
  isBlocked p request = false ∧ p.browser.settings.httpsRewrite.enabled = true ∧
    p.browser.settings.httpsRewrite.httpsOnly = true ∧ request.url.scheme = kHttp ∧
    request.url.spec ∈ request.prevRewrites

instance (p : Process) (request : URLRequest) : Decidable (RefusedLater p request) := by
  unfold RefusedLater
  infer_instance

variable {env : Https.Externals} {p : Process} {request : URLRequest} {shell : Shell}

theorem logRequest_appended (attributed : p.forURLRequest request = some shell) (ret : NetError) :
    Appended p.browser (logRequest p request ret).browser shell
      ⟨.request, ret ≠ .ok, request.url.spec⟩ := by
  unfold logRequest
  rw [attributed]
  rfl

theorem appended_flag {b b' : Browser} {blocked blocked' : Bool} {description : Str}
    (member : shell ∈ b.allShells) (one : Appended b b' shell ⟨.request, blocked, description⟩)
    (other : Appended b b' shell ⟨.request, blocked', description⟩) : blocked = blocked' := by
  have same := List.map_inj_left.mp (one.symm.trans other) shell member
  simp only [if_true, Shell.mk.injEq, List.append_cancel_left_eq, List.cons.injEq,
    LogEvent.mk.injEq] at same
  exact same.2.2.2.2.1.2.1

/-- What is logged is decided before the rewriter has been asked. -/
theorem loggedTruly_iff {out : Outcome} {ret : NetError}
    (attributed : p.forURLRequest request = some shell)
    (logged : out.process = logRequest p request ret) :
    LoggedTruly p request shell out ↔ (ret ≠ .ok ↔ out.code ≠ .ok) := by
  have appended := logRequest_appended attributed ret
  rw [← logged] at appended
  constructor
  · rintro ⟨blocked, event, flag⟩
    have same := appended_flag (Process.forURLRequest_mem attributed) event appended
    rw [← flag, same, decide_eq_true_eq]
  · intro same
    exact ⟨_, appended, by rw [decide_eq_true_eq, same]⟩

/-- For a request of a shell, the log tells the truth exactly when the rewriter does not
refuse what the blocker lets through. -/
theorem request_log_truthful_iff (env : Https.Externals) (p : Process) (request : URLRequest)
    (shell : Shell) (out : Outcome) (attributed : p.forURLRequest request = some shell)
    (fetch : request.autocompleteRequest = false)
    (done : onBeforeURLRequest env p request = .ok out) :
    LoggedTruly p request shell out ↔ ¬ RefusedLater p request := by
  rcases onBeforeURLRequest_cases done with ⟨autocomplete, _⟩ | ⟨_, blocked, rfl⟩ |
    ⟨_, passes, code, rewritten, newUrl, rewrites, rfl⟩
  · rw [fetch] at autocomplete
    cases autocomplete
  · rw [loggedTruly_iff attributed rfl]
    apply iff_of_true Iff.rfl
    intro refused
    rw [refused.1] at blocked
    cases blocked
  · have refuses := Https.maybeRewrite_refuses_iff rewrites
    have url : (withoutReferrer p request).url = request.url := by
      unfold withoutReferrer
      split <;> rfl
    have prev : (withoutReferrer p request).prevRewrites = request.prevRewrites := by
      unfold withoutReferrer
      split <;> rfl
    rw [url, prev] at refuses
    rw [loggedTruly_iff attributed rfl, refuses]
    simp [RefusedLater, passes]

/-- A tab under `https_only`, with its render view. -/
def strictTab : Process where
  blocker := {}
  httpsRewriter := {}
  browser := Browser.launchShell { settings := { httpsRewrite := ⟨true, true⟩ } } 0
  renderViews := fun process view => if process = 1 ∧ view = 2 then some 0 else none

/-- The request after it was upgraded and its server has redirected it back. -/
def redirectedBack : URLRequest := { tabRequest with rewriteUserData := some {tabRequest.url.spec} }

def openShell : Shell := { ptr := 1, wc := ⟨0, .global⟩, sbc := none, parentShell := 0 }

theorem request_log_truthful_iff_visit :
    ∃ out, onBeforeURLRequest Https.literal strictTab tabRequest = .ok out ∧
      LoggedTruly strictTab tabRequest openShell out := by
  have returns :
      (onBeforeURLRequest Https.literal strictTab tabRequest).toOption.isSome = true := by
    decide +kernel
  cases done : onBeforeURLRequest Https.literal strictTab tabRequest with
  | error e =>
    rw [done] at returns
    cases returns
  | ok out =>
    exact ⟨out, rfl, (request_log_truthful_iff Https.literal strictTab tabRequest openShell out
      (by decide +kernel) rfl done).mpr (by decide +kernel)⟩

theorem refused_request_logged_unblocked :
    ((onBeforeURLRequest Https.literal strictTab tabRequest).toOption.map fun out =>
        (out.code, out.request)) = some (.ok, redirectedBack) ∧
      ((onBeforeURLRequest Https.literal strictTab redirectedBack).toOption.map fun out =>
        (out.code, out.process.browser.allShells.map (·.log))) =
          some (.errUnsafeRedirect, [[⟨.request, false, tabRequest.url.spec⟩]]) ∧
      ¬ ∀ env p request shell out, p.forURLRequest request = some shell →
        request.autocompleteRequest = false → onBeforeURLRequest env p request = .ok out →
        LoggedTruly p request shell out := by
  have upgraded : ((onBeforeURLRequest Https.literal strictTab tabRequest).toOption.map fun out =>
      (out.code, out.request)) = some (.ok, redirectedBack) := by decide +kernel
  have refused : ((onBeforeURLRequest Https.literal strictTab redirectedBack).toOption.map
      fun out => (out.code, out.process.browser.allShells.map (·.log))) =
        some (.errUnsafeRedirect, [[⟨.request, false, tabRequest.url.spec⟩]]) := by decide +kernel
  refine ⟨upgraded, refused, fun truly => ?_⟩
  cases done : onBeforeURLRequest Https.literal strictTab redirectedBack with
  | error e =>
    rw [done] at refused
    cases refused
  | ok out =>
    rw [done] at refused
    obtain ⟨code, logs⟩ := Prod.mk.inj (Option.some.inj refused)
    obtain ⟨blocked, event, flag⟩ := truly Https.literal strictTab redirectedBack openShell out
      (by decide +kernel) rfl done
    have blocks : blocked = true := flag.mpr (by rw [code]; exact nofun)
    rw [event, blocks] at logs
    revert logs
    decide +kernel

end Seaturtle.ShellNetworkDelegate
