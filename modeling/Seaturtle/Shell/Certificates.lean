import Seaturtle.Lib.Runs
import Seaturtle.Shell.ContentClient

/-! Certificate errors that are out at Java, and the answers to them in any order. -/
namespace Seaturtle.CertificateRuns
open ShellContentBrowserClient

structure Call where
  failure : CertificateFailure
  result : Option CertificateRequestResultType
  message : Option CertificateError

structure State where
  browser : Browser
  renderFrames : RenderFrames
  calls : List Call := []
  /-- The copies of the callbacks, by their address. -/
  heap : HashMap Nat AceCb := .empty
  nextAddress : Nat := 0
  /-- The handles that Java was sent and did not answer yet. -/
  unanswered : List Nat := []
  ran : List (AceCb × Bool) := []
  fatal : Bool := false

inductive Event where
  /-- Shells, render views and frames come and go. -/
  | surroundings (browser : Browser) (renderFrames : RenderFrames)
  | allowCertificateError (failure : CertificateFailure)
  | respond (resp : CertificateErrorResponse)

def report (s : State) (failure : CertificateFailure) : State :=
  let d := allowCertificateError s.browser s.renderFrames s.nextAddress failure
  { s with
    browser := d.browser
    calls := s.calls ++ [⟨failure, d.result, d.message⟩]
    heap := if d.message.isSome then s.heap.set s.nextAddress s.calls.length else s.heap
    nextAddress := s.nextAddress + 1
    unanswered := s.unanswered ++ d.message.toList.map (·.nativeCallback)
    fatal := d.fatal.isSome }

/-- A handle without a callback behind it would be a dangling pointer. -/
def respond (s : State) (resp : CertificateErrorResponse) : State :=
  let unanswered := s.unanswered.filter (· != resp.nativeCallback)
  match allowCertificateErrorResponse s.heap resp with
  | none => { s with unanswered, fatal := true }
  | some (run, heap) => { s with heap, unanswered, ran := s.ran ++ [run] }

/-- Java answers each handle at most once. -/
def step (s : State) (e : Event) : Option State :=
  if s.fatal then none
  else match e with
    | .surroundings browser renderFrames => some { s with browser, renderFrames }
    | .allowCertificateError failure => some (report s failure)
    | .respond resp => if resp.nativeCallback ∈ s.unanswered then some (respond s resp) else none

def MayOverride (failure : CertificateFailure) : Prop :=
  failure.overridable = true ∧ failure.strictEnforcement = false

/-- The callbacks that are run, with true only where that is allowed, and the errors
of sub-resources. -/
structure Safe (s : State) : Prop where
  allowed : ∀ n, (n, true) ∈ s.ran → ∃ call, s.calls[n]? = some call ∧
    call.failure.resourceType = .mainFrame ∧ MayOverride call.failure
  once : (s.ran.map (·.1)).Nodup
  denied : ∀ call ∈ s.calls, call.failure.resourceType ≠ .mainFrame →
    call.result = some .deny ∧ call.message = none

/-- Java allows only what may be overridden. -/
def AllowsRightly (s : State) : Event → Prop
  | .respond resp => resp.allow = true → ∀ n call, s.heap resp.nativeCallback = some n →
      s.calls[n]? = some call → MayOverride call.failure
  | _ => True

/-- Each copy on the heap is of a main-frame error's callback that was not run. -/
structure Issued (s : State) : Prop where
  safe : Safe s
  past : ∀ run ∈ s.ran, run.1 < s.calls.length
  fresh : ∀ a n, s.heap a = some n → a < s.nextAddress
  pending : ∀ a n, s.heap a = some n → n ∉ s.ran.map (·.1) ∧
    ∃ call, s.calls[n]? = some call ∧ call.failure.resourceType = .mainFrame
  single : ∀ a b n, s.heap a = some n → s.heap b = some n → a = b

variable {s s' : State}

theorem subResource_decision (b : Browser) (renderFrames : RenderFrames) (nativeCallback : Nat)
    {failure : CertificateFailure} (sub : failure.resourceType ≠ .mainFrame) :
    let d := allowCertificateError b renderFrames nativeCallback failure
    d.result = some .deny ∧ d.message = none := by
  simp only [allowCertificateError, if_pos sub]
  split <;> exact ⟨rfl, rfl⟩

theorem message_mainFrame {b : Browser} {renderFrames : RenderFrames} {nativeCallback : Nat}
    {failure : CertificateFailure}
    (sent : (allowCertificateError b renderFrames nativeCallback failure).message.isSome = true) :
    failure.resourceType = .mainFrame := by
  by_contra sub
  rw [(subResource_decision b renderFrames nativeCallback sub).2] at sent
  cases sent

theorem report_heap {failure : CertificateFailure} {a n : Nat}
    (holds : (report s failure).heap a = some n) :
    s.heap a = some n ∨
      (a = s.nextAddress ∧ n = s.calls.length ∧ failure.resourceType = .mainFrame) := by
  simp only [report] at holds
  split at holds
  · next sent =>
    rcases HashMap.set_some holds with ⟨here, rfl⟩ | ⟨_, old⟩
    · exact .inr ⟨here, rfl, message_mainFrame sent⟩
    · exact .inl old
  · exact .inl holds

theorem report_calls {n : Nat} {call : Call} (found : s.calls[n]? = some call)
    (failure : CertificateFailure) : (report s failure).calls[n]? = some call := by
  obtain ⟨below, _⟩ := List.getElem?_eq_some_iff.mp found
  rw [← found]
  exact List.getElem?_append_left below

theorem report_safe (h : Safe s) (failure : CertificateFailure) : Safe (report s failure) := by
  constructor
  · intro n allowed
    obtain ⟨call, found, right⟩ := h.allowed n allowed
    exact ⟨call, report_calls found failure, right⟩
  · exact h.once
  · intro call member sub
    rcases List.mem_append.mp member with old | new
    · exact h.denied call old sub
    · cases List.mem_singleton.mp new
      exact subResource_decision _ _ _ sub

theorem report_issued (h : Issued s) (failure : CertificateFailure) :
    Issued (report s failure) := by
  have longer : s.calls.length < (report s failure).calls.length := by simp [report]
  constructor
  · exact report_safe h.safe failure
  · exact fun run member => Nat.lt_trans (h.past run member) longer
  · intro a n holds
    rcases report_heap holds with old | ⟨rfl, _⟩
    · exact Nat.lt_succ_of_lt (h.fresh a n old)
    · exact Nat.lt_succ_self _
  · intro a n holds
    rcases report_heap holds with old | ⟨_, rfl, mainFrame⟩
    · obtain ⟨unrun, call, found, mainFrame⟩ := h.pending a n old
      exact ⟨unrun, call, report_calls found failure, mainFrame⟩
    · refine ⟨fun member => ?_, _, List.getElem?_concat_length, mainFrame⟩
      obtain ⟨run, ran, same⟩ := List.mem_map.mp member
      exact Nat.ne_of_lt (h.past run ran) same
  · intro a b n first second
    rcases report_heap first with old | ⟨rfl, here, _⟩
    · rcases report_heap second with old' | ⟨_, here', _⟩
      · exact h.single a b n old old'
      · obtain ⟨_, call, found, _⟩ := h.pending a n old
        have below := (List.getElem?_eq_some_iff.mp found).1
        omega
    · rcases report_heap second with old' | ⟨rfl, _⟩
      · obtain ⟨_, call, found, _⟩ := h.pending b n old'
        have below := (List.getElem?_eq_some_iff.mp found).1
        omega
      · rfl

theorem respond_cases (s : State) (resp : CertificateErrorResponse) : ∃ unanswered,
    (s.heap resp.nativeCallback = none ∧ respond s resp = { s with unanswered, fatal := true }) ∨
    ∃ n, s.heap resp.nativeCallback = some n ∧
      respond s resp = { s with
        heap := s.heap.erase resp.nativeCallback, unanswered
        ran := s.ran ++ [(n, resp.allow)] } := by
  refine ⟨s.unanswered.filter (· != resp.nativeCallback), ?_⟩
  unfold respond allowCertificateErrorResponse
  cases s.heap resp.nativeCallback with
  | none => exact .inl ⟨rfl, rfl⟩
  | some n => exact .inr ⟨n, rfl, rfl⟩

/-- Running a callback that was not run keeps the answers safe, if it may be run so. -/
theorem run_safe (h : Safe s) {n : Nat} {allow : Bool} (heap : HashMap Nat AceCb)
    (unanswered : List Nat) (unrun : n ∉ s.ran.map (·.1))
    (right : allow = true → ∃ call, s.calls[n]? = some call ∧
      call.failure.resourceType = .mainFrame ∧ MayOverride call.failure) :
    Safe { s with heap, unanswered, ran := s.ran ++ [(n, allow)] } := by
  constructor
  · intro m allowed
    rcases List.mem_append.mp allowed with old | new
    · exact h.allowed m old
    · obtain ⟨rfl, allow⟩ := Prod.mk.inj (List.mem_singleton.mp new)
      exact right allow.symm
  · rw [List.map_append]
    apply List.nodup_append.mpr
    refine ⟨h.once, List.nodup_singleton _, ?_⟩
    intro m member m' here
    cases List.mem_singleton.mp here
    rintro rfl
    exact unrun member
  · exact h.denied

theorem respond_issued (h : Issued s) {resp : CertificateErrorResponse}
    (right : AllowsRightly s (.respond resp)) : Issued (respond s resp) := by
  obtain ⟨unanswered, ⟨_, eq⟩ | ⟨n, behind, eq⟩⟩ := respond_cases s resp
  · rw [eq]
    exact ⟨⟨h.safe.allowed, h.safe.once, h.safe.denied⟩, h.past, h.fresh, h.pending, h.single⟩
  · obtain ⟨unrun, call, found, mainFrame⟩ := h.pending _ n behind
    rw [eq]
    constructor
    · apply run_safe h.safe _ _ unrun
      intro allow
      exact ⟨call, found, mainFrame, right allow n call behind found⟩
    · intro run member
      rcases List.mem_append.mp member with old | new
      · exact h.past run old
      · cases List.mem_singleton.mp new
        exact (List.getElem?_eq_some_iff.mp found).1
    · intro a m holds
      exact h.fresh a m (HashMap.erase_some holds).2
    · intro a m holds
      obtain ⟨other, old⟩ := HashMap.erase_some holds
      obtain ⟨waiting, rest⟩ := h.pending a m old
      refine ⟨fun member => ?_, rest⟩
      rw [List.map_append, List.mem_append] at member
      rcases member with before | here
      · exact waiting before
      · cases List.mem_singleton.mp here
        exact other (h.single a _ n old behind)
    · intro a b m first second
      exact h.single a b m (HashMap.erase_some first).2 (HashMap.erase_some second).2

theorem step_issued {e : Event} (h : Issued s) (hs : step s e = some s')
    (right : AllowsRightly s e) : Issued s' := by
  unfold step at hs
  split at hs
  · cases hs
  · cases e with
    | surroundings browser renderFrames =>
      cases hs
      exact ⟨⟨h.safe.allowed, h.safe.once, h.safe.denied⟩, h.past, h.fresh, h.pending, h.single⟩
    | allowCertificateError failure =>
      cases hs
      exact report_issued h failure
    | respond resp =>
      simp only at hs
      split at hs
      · cases hs
        exact respond_issued h right
      · cases hs

theorem step_allows {e : Event} (hs : step s e = some s') (safe : Safe s') :
    AllowsRightly s e := by
  cases e with
  | respond resp =>
    intro allow n call behind found
    unfold step at hs
    split at hs
    · cases hs
    · simp only at hs
      split at hs
      · cases hs
        obtain ⟨unanswered, ⟨absent, _⟩ | ⟨m, here, eq⟩⟩ := respond_cases s resp
        · rw [absent] at behind
          cases behind
        · cases Option.some.inj (here.symm.trans behind)
          rw [eq] at safe
          obtain ⟨call', found', _, may⟩ := safe.allowed n (by simp [allow])
          cases Option.some.inj (found'.symm.trans found)
          exact may
      · cases hs
  | _ => trivial

/-- In every state of a run no callback got true that must not, none was run twice and
every sub-resource was denied, exactly when Java never allows what must not be. -/
theorem certificate_errors_safe_iff (browser : Browser) (renderFrames : RenderFrames)
    (es : List Event) :
    Runs.Always step Safe { browser, renderFrames } es ↔
      Runs.Along step (fun s e _ => AllowsRightly s e) { browser, renderFrames } es := by
  apply Runs.always_iff_along Issued
  · refine ⟨⟨?_, List.nodup_nil, ?_⟩, ?_, ?_, ?_, ?_⟩
    · exact fun n member => (List.not_mem_nil member).elim
    · exact fun call member => (List.not_mem_nil member).elim
    · exact fun run member => (List.not_mem_nil member).elim
    · exact fun a n impossible => nomatch impossible
    · exact fun a n impossible => nomatch impossible
    · exact fun a b n impossible => nomatch impossible
  · exact fun s e s' h hs right => step_issued h hs right
  · exact fun s h => h.safe
  · exact fun s e s' _ hs safe => step_allows hs safe

/-- A page whose host asks for strict transport security shows a forged certificate. -/
def forged : CertificateFailure where
  renderProcessId := 1
  renderFrameId := 2
  certError := -202
  sslInfo := {}
  requestUrl := Gurl.parseCanonical "https://a.com/".toList
  resourceType := .mainFrame
  overridable := false
  strictEnforcement := true
  expiredPreviousDecision := false

def oneTap : List Event := [.allowCertificateError forged, .respond ⟨0, true⟩]

theorem strict_error_overridden :
    (Runs.run step { browser := { settings := {} }, renderFrames := fun _ _ => none } oneTap).map
        (fun s => (s.ran, s.calls.map (·.failure))) = some ([(0, true)], [forged]) ∧
      ¬ ∀ browser renderFrames es, Runs.Always step Safe { browser, renderFrames } es := by
  have ends : (Runs.run step { browser := { settings := {} }, renderFrames := fun _ _ => none }
      oneTap).map (fun s => (s.ran, s.calls.map (·.failure))) = some ([(0, true)], [forged]) := by
    decide +kernel
  refine ⟨ends, fun always => ?_⟩
  obtain ⟨t, reached, final⟩ := Option.map_eq_some_iff.mp ends
  obtain ⟨ran, calls⟩ := Prod.mk.inj final
  have safe := Runs.always_last (always _ _ oneTap) reached
  obtain ⟨call, found, _, overridable, _⟩ := safe.allowed 0 (by simp [ran])
  have same : (t.calls.map (·.failure))[0]? = some call.failure := by simp [found]
  rw [calls] at same
  have forged : forged = call.failure := Option.some.inj same
  rw [← forged] at overridable
  cases overridable

end Seaturtle.CertificateRuns
