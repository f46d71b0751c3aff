import Seaturtle.Lib.Runs
import Seaturtle.Https.Rewriter

/-! One request on its way through rewrites and server redirects. The request
keeps its user data across both; the server may redirect to any URL. -/
namespace Seaturtle.Https

inductive Phase where
  | before
  | sent
  | failed (code : NetError)
  | aborted
  deriving DecidableEq

/-- The request, and the history of its current URLs: those at which `MaybeRewrite`
set `new_url`, and those that went to the network. -/
structure Journey where
  request : URLRequest
  phase : Phase := .before
  rewritten : List Gurl := []
  sent : List Gurl := []
  deriving DecidableEq

inductive Event where
  | call (settings : Settings.HttpsRewrite)
  | redirect (url : Gurl)
  deriving DecidableEq

def start (request : URLRequest) : Journey :=
  { request := { request with rewriteUserData := none } }

/-- What `net::URLRequest` makes of the outcome of the call. -/
def Journey.proceed (j : Journey) : Except Fatal (NetError × URLRequest × Option Gurl) → Journey
  | .error _ => { j with phase := .aborted }
  | .ok (.ok, request, some newUrl) =>
    { j with request := { request with url := newUrl }, rewritten := j.request.url :: j.rewritten }
  | .ok (.ok, request, none) =>
    { j with request := request, phase := .sent, sent := request.url :: j.sent }
  | .ok (code, request, _) => { j with request := request, phase := .failed code }

def step (env : Externals) (hr : HttpsRewriter) (j : Journey) : Event → Option Journey
  | .call settings =>
    if j.phase = .before then some (j.proceed (maybeRewrite env hr settings j.request)) else none
  | .redirect url =>
    if j.phase = .sent then
      some { j with request := { j.request with url := url }, phase := .before }
    else none

/-- `https_rewrite.enabled` and `https_rewrite.https_only` at the call. -/
def Event.strict : Event → Prop
  | .call settings => settings.enabled = true ∧ settings.httpsOnly = true
  | .redirect _ => True

/-- The request remembers only what the run has rewritten, and it was refused
only where it remembers the current URL. -/
structure Remembers (j : Journey) : Prop where
  memory : ∀ spec ∈ j.request.prevRewrites, ∃ u ∈ j.rewritten, u.scheme = kHttp ∧ u.spec = spec
  refused : ∀ code, j.phase = .failed code → code = .errUnsafeRedirect ∧
    j.request.url.scheme = kHttp ∧ j.request.url.spec ∈ j.request.prevRewrites

def OnlyHttps (j : Journey) : Prop := ∀ u ∈ j.sent, u.scheme ≠ kHttp

variable {env : Externals} {hr : HttpsRewriter}

theorem start_remembers (request : URLRequest) : Remembers (start request) := by
  constructor
  · intro spec member
    simp [start, URLRequest.prevRewrites] at member
  · intro code failed
    cases failed

theorem call_remembers {j : Journey} {settings : Settings.HttpsRewrite} (h : Remembers j)
    (ready : j.phase = .before) :
    Remembers (j.proceed (maybeRewrite env hr settings j.request)) := by
  cases called : maybeRewrite env hr settings j.request with
  | error e => exact ⟨h.memory, fun code failed => by cases failed⟩
  | ok r =>
    obtain ⟨code, request, out⟩ := r
    rcases maybeRewrite_cases called with ⟨rfl, rfl, rfl, _⟩ | ⟨rfl, rfl, rfl, _, http, again⟩ |
      ⟨rfl, rfl, ⟨u, rfl⟩, _, http, _⟩
    · exact ⟨h.memory, fun code failed => by cases failed⟩
    · refine ⟨h.memory, fun code failed => ?_⟩
      cases failed
      exact ⟨rfl, http, again⟩
    · constructor
      · intro spec member
        have cases : spec = j.request.url.spec ∨ spec ∈ j.request.prevRewrites :=
          Finset.mem_insert.mp member
        rcases cases with rfl | old
        · exact ⟨j.request.url, List.mem_cons_self, http, rfl⟩
        · obtain ⟨u, hu, rest⟩ := h.memory spec old
          exact ⟨u, List.mem_cons_of_mem _ hu, rest⟩
      · intro code failed
        change j.phase = .failed code at failed
        rw [ready] at failed
        cases failed

theorem step_remembers {j j' : Journey} {e : Event} (h : Remembers j)
    (hs : step env hr j e = some j') : Remembers j' := by
  cases e with
  | call settings =>
    simp only [step, Option.ite_none_right_eq_some] at hs
    obtain ⟨ready, hs⟩ := hs
    cases hs
    exact call_remembers h ready
  | redirect url =>
    simp only [step, Option.ite_none_right_eq_some] at hs
    obtain ⟨_, hs⟩ := hs
    cases hs
    exact ⟨h.memory, fun code failed => by cases failed⟩

theorem step_only_https {j j' : Journey} {e : Event} (h : OnlyHttps j)
    (hs : step env hr j e = some j') (strict : e.strict) : OnlyHttps j' := by
  cases e with
  | redirect url =>
    simp only [step, Option.ite_none_right_eq_some] at hs
    obtain ⟨_, hs⟩ := hs
    cases hs
    exact h
  | call settings =>
    simp only [step, Option.ite_none_right_eq_some] at hs
    obtain ⟨_, hs⟩ := hs
    cases hs
    cases called : maybeRewrite env hr settings j.request with
    | error e => exact h
    | ok r =>
      obtain ⟨code, request, out⟩ := r
      rcases maybeRewrite_cases called with ⟨rfl, rfl, rfl, other⟩ | ⟨rfl, rfl, rfl, _⟩ |
        ⟨rfl, rfl, ⟨u, rfl⟩, _⟩
      · intro u hu
        rcases List.mem_cons.mp hu with rfl | old
        · exact other strict.1 strict.2
        · exact h u old
      · exact h
      · exact h

/-- With https_only on throughout, no run of any length sends an http URL, and a
run that is refused is refused at an http URL it had rewritten before. -/
theorem https_only_run_safe (env : Externals) (hr : HttpsRewriter) (request : URLRequest)
    (es : List Event) (strict : ∀ e ∈ es, e.strict) (j : Journey)
    (reached : Runs.run (step env hr) (start request) es = some j) :
    (∀ u ∈ j.sent, u.scheme ≠ kHttp) ∧
    (∀ code, j.phase = .failed code → code = .errUnsafeRedirect ∧ j.request.url.scheme = kHttp ∧
      ∃ u ∈ j.rewritten, u.scheme = kHttp ∧ u.spec = j.request.url.spec) := by
  have nothing : OnlyHttps (start request) := fun u hu => absurd hu List.not_mem_nil
  have safe : OnlyHttps j := by
    apply Runs.invariant_along nothing _ (Runs.along_of_events _ es strict) reached
    intro j e j' h hs hc
    exact step_only_https h hs hc
  have remembers : Remembers j := by
    apply Runs.invariant (start_remembers request) _ reached
    intro j e j' h hs
    exact step_remembers h hs
  refine ⟨safe, fun code failed => ?_⟩
  obtain ⟨unsafeRedirect, http, again⟩ := remembers.refused code failed
  exact ⟨unsafeRedirect, http, remembers.memory _ again⟩

/-- The page is upgraded, the server redirects it back. -/
def downgrade : List Event :=
  [.call ⟨true, true⟩, .call ⟨true, true⟩, .redirect homePage.url, .call ⟨true, true⟩]

theorem https_only_run_safe_downgrade :
    ∃ j, Runs.run (step literal {}) (start homePage) downgrade = some j ∧
      j.phase = .failed .errUnsafeRedirect ∧
      (∀ u ∈ j.sent, u.scheme ≠ kHttp) ∧
      (∀ code, j.phase = .failed code → code = .errUnsafeRedirect ∧ j.request.url.scheme = kHttp ∧
        ∃ u ∈ j.rewritten, u.scheme = kHttp ∧ u.spec = j.request.url.spec) := by
  have refused : (Runs.run (step literal {}) (start homePage) downgrade).map Journey.phase =
      some (.failed .errUnsafeRedirect) := by decide +kernel
  obtain ⟨j, reached, phase⟩ := Option.map_eq_some_iff.mp refused
  have strict : ∀ e ∈ downgrade, e.strict := by simp [downgrade, Event.strict]
  exact ⟨j, reached, phase, https_only_run_safe literal {} homePage downgrade strict j reached⟩

end Seaturtle.Https
