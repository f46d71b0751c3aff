import Seaturtle.Dialog.Login
import Seaturtle.Lib.Runs

/-! Answers that travel to the IO thread and cancellations that travel to the UI
thread. -/
namespace Seaturtle.LoginRuns

structure State where
  threads : LoginThreads := {}
  dialogs : List ShellLoginDialog := []
  /-- The dialogs for which `ClearLoginDelegateForRequest` has run. -/
  cleared : List Nat := []
  /-- The dialogs that Java was shown and did not answer yet. -/
  shown : List Nat := []
  /-- The requests that Java has answered, by any of their dialogs. -/
  answered : List Nat := []
  deriving DecidableEq

inductive Event where
  | createLoginDelegate (authInfo : AuthChallengeInfo) (request : Nat)
  /-- The loader gives the request up and destroys it. -/
  | onRequestCancelled (dialog : Nat)
  | runUiTask
  | runIoTask
  | processResponse (response : HttpAuthResponse)
  deriving DecidableEq

def dialogAt (s : State) (ptr : Nat) : Option ShellLoginDialog := s.dialogs.find? (·.ptr == ptr)

def create (s : State) (authInfo : AuthChallengeInfo) (request : Nat) : State :=
  let d : ShellLoginDialog := ⟨s.dialogs.length, authInfo, request⟩
  { s with threads := d.construct s.threads, dialogs := s.dialogs ++ [d] }

def cancel (s : State) (d : ShellLoginDialog) : State :=
  let threads := d.onRequestCancelled s.threads
  { s with threads := { threads with destroyed := d.request :: threads.destroyed } }

def runUi (s : State) : UiTask → State
  | .prepDialog d host realm =>
    { s with threads := d.prepDialog s.threads host realm, shown := s.shown ++ [d.ptr] }
  | .platformRequestCancelled d => { s with threads := d.platformRequestCancelled s.threads }

def runIo (s : State) (t : IoTask) : State :=
  let ofRequest := s.dialogs.filter (·.request == t.dialog.request)
  { s with
    threads := t.dialog.sendAuthToRequester s.threads t.success t.username t.password
    cleared := s.cleared ++ ofRequest.map (·.ptr) }

def respond (s : State) (d : ShellLoginDialog) (response : HttpAuthResponse) : State :=
  { s with
    threads := d.processResponse s.threads response
    shown := s.shown.erase d.ptr
    answered := d.request :: s.answered }

def step (s : State) : Event → Option State
  | .createLoginDelegate authInfo request =>
    if request ∈ s.threads.destroyed then none else some (create s authInfo request)
  | .onRequestCancelled ptr => do
    let d ← dialogAt s ptr
    if d.request ∈ s.threads.destroyed ∨ ptr ∈ s.cleared then none else some (cancel s d)
  | .runUiTask =>
    match s.threads.ui with
    | [] => none
    | t :: ui => some (runUi { s with threads := { s.threads with ui } } t)
  | .runIoTask =>
    match s.threads.io with
    | [] => none
    | t :: io => some (runIo { s with threads := { s.threads with io } } t)
  | .processResponse response => do
    let d ← dialogAt s response.nativeObject
    if d.ptr ∈ s.shown then some (respond s d response) else none

def AuthCall.answers : AuthCall → Bool
  | .clearLoginDelegateForRequest => false
  | _ => true

def authCalls (s : State) (request : Nat) : Nat :=
  s.threads.calls.countP fun c => c.request == request && AuthCall.answers c.call

def inFlight (s : State) (request : Nat) : Nat :=
  s.threads.io.countP fun t => t.dialog.request == request

/-- No call on a destroyed request, and no request is answered twice. -/
def Safe (s : State) : Prop :=
  (∀ c ∈ s.threads.calls, c.dead = false) ∧ ∀ request, authCalls s request ≤ 1

/-- Java answers a dialog whose request is neither cancelled nor answered, and the
loader cancels a request that has no answer in flight. -/
def Uncrossed (s : State) : Event → Prop
  | .processResponse response => ∀ d ∈ dialogAt s response.nativeObject,
      d.request ∉ s.threads.destroyed ∧ d.request ∉ s.answered
  | .onRequestCancelled ptr => ∀ d ∈ dialogAt s ptr, inFlight s d.request = 0
  | _ => True

/-! What a step does to the requests. -/

variable {s s' : State}

structure Quiet (s s' : State) : Prop where
  calls : s'.threads.calls = s.threads.calls
  io : s'.threads.io = s.threads.io
  destroyed : s'.threads.destroyed = s.threads.destroyed
  answered : s'.answered = s.answered

structure Cancels (s s' : State) (d : ShellLoginDialog) : Prop where
  calls : s'.threads.calls = s.threads.calls
  io : s'.threads.io = s.threads.io
  destroyed : s'.threads.destroyed = d.request :: s.threads.destroyed
  answered : s'.answered = s.answered

structure Responds (s s' : State) (d : ShellLoginDialog) (t : IoTask) : Prop where
  dialog : t.dialog = d
  calls : s'.threads.calls = s.threads.calls
  io : s'.threads.io = s.threads.io ++ [t]
  destroyed : s'.threads.destroyed = s.threads.destroyed
  answered : s'.answered = d.request :: s.answered

structure Sends (s s' : State) (t : IoTask) (auth : AuthCall) : Prop where
  answers : AuthCall.answers auth = true
  calls : s'.threads.calls = s.threads.calls ++
    [⟨t.dialog.request, auth, decide (t.dialog.request ∈ s.threads.destroyed)⟩,
      ⟨t.dialog.request, .clearLoginDelegateForRequest,
        decide (t.dialog.request ∈ s.threads.destroyed)⟩]
  io : s.threads.io = t :: s'.threads.io
  destroyed : s'.threads.destroyed = s.threads.destroyed
  answered : s'.answered = s.answered

theorem respond_responds (d : ShellLoginDialog) (response : HttpAuthResponse) :
    ∃ t, Responds s (respond s d response) d t := by
  unfold respond ShellLoginDialog.processResponse
  split
  · exact ⟨{ dialog := d, success := false }, rfl, rfl, rfl, rfl, rfl⟩
  · exact ⟨⟨d, true, response.username, response.password⟩, rfl, rfl, rfl, rfl, rfl⟩

theorem runIo_sends {t : IoTask} {io : List IoTask} (queue : s.threads.io = t :: io) :
    ∃ auth, Sends s (runIo { s with threads := { s.threads with io } } t) t auth := by
  unfold runIo ShellLoginDialog.sendAuthToRequester
  split
  · exact ⟨.setAuth t.username t.password, rfl, List.append_assoc .., queue, rfl, rfl⟩
  · exact ⟨.cancelAuth, rfl, List.append_assoc .., queue, rfl, rfl⟩

/-- All that a step can do to the requests. -/
theorem step_cases {e : Event} (hs : step s e = some s') :
    (Quiet s s' ∧ Uncrossed s e) ∨
    (∃ ptr d, e = .onRequestCancelled ptr ∧ dialogAt s ptr = some d ∧ Cancels s s' d) ∨
    (∃ response d t, e = .processResponse response ∧
      dialogAt s response.nativeObject = some d ∧ Responds s s' d t) ∨
    ∃ t auth, e = .runIoTask ∧ Sends s s' t auth := by
  cases e with
  | createLoginDelegate authInfo request =>
    simp only [step] at hs
    split at hs
    · cases hs
    · cases hs
      exact .inl ⟨⟨rfl, rfl, rfl, rfl⟩, trivial⟩
  | onRequestCancelled ptr =>
    obtain ⟨d, found, rest⟩ := Option.bind_eq_some_iff.mp hs
    split at rest
    · cases rest
    · cases rest
      exact .inr (.inl ⟨ptr, d, rfl, found, ⟨rfl, rfl, rfl, rfl⟩⟩)
  | runUiTask =>
    simp only [step] at hs
    split at hs
    · cases hs
    · next t ui queue =>
      cases hs
      cases t <;> exact .inl ⟨⟨rfl, rfl, rfl, rfl⟩, trivial⟩
  | runIoTask =>
    simp only [step] at hs
    split at hs
    · cases hs
    · next t io queue =>
      cases hs
      obtain ⟨auth, sends⟩ := runIo_sends queue
      exact .inr (.inr (.inr ⟨t, auth, rfl, sends⟩))
  | processResponse response =>
    obtain ⟨d, found, rest⟩ := Option.bind_eq_some_iff.mp hs
    split at rest
    · cases rest
      obtain ⟨t, responds⟩ := respond_responds d response
      exact .inr (.inr (.inl ⟨response, d, t, rfl, found, responds⟩))
    · cases rest

theorem sends_counts {t : IoTask} {auth : AuthCall} (h : Sends s s' t auth) (request : Nat) :
    authCalls s' request + inFlight s' request = authCalls s request + inFlight s request := by
  unfold authCalls inFlight
  rw [h.calls, h.io, List.countP_append, List.countP_cons, List.countP_cons, List.countP_cons]
  have clear : AuthCall.answers .clearLoginDelegateForRequest = false := rfl
  by_cases here : t.dialog.request = request
  · simp [here, h.answers, clear]
    omega
  · simp [here]

theorem responds_counts {d : ShellLoginDialog} {t : IoTask} (h : Responds s s' d t)
    (request : Nat) : authCalls s' request + inFlight s' request =
      authCalls s request + inFlight s request + if d.request = request then 1 else 0 := by
  unfold authCalls inFlight
  rw [h.calls, h.io, List.countP_append, ← h.dialog]
  simp only [List.countP_singleton, beq_iff_eq]
  omega

/-- What a run of uncrossed steps keeps: answers are counted once, and none of them
is on its way to a destroyed request. -/
structure Accounted (s : State) : Prop where
  counted : ∀ request,
    authCalls s request + inFlight s request = if request ∈ s.answered then 1 else 0
  alive : ∀ t ∈ s.threads.io, t.dialog.request ∉ s.threads.destroyed
  fresh : ∀ c ∈ s.threads.calls, c.dead = false

theorem counts_of_same (calls : s'.threads.calls = s.threads.calls)
    (io : s'.threads.io = s.threads.io) (request : Nat) :
    authCalls s' request = authCalls s request ∧ inFlight s' request = inFlight s request := by
  unfold authCalls inFlight
  rw [calls, io]
  exact ⟨rfl, rfl⟩

theorem inFlight_eq_zero {request : Nat} :
    inFlight s request = 0 ↔ ∀ t ∈ s.threads.io, t.dialog.request ≠ request := by
  simp [inFlight, List.countP_eq_zero]

theorem quiet_accounted (h : Accounted s) (quiet : Quiet s s') : Accounted s' := by
  constructor
  · intro request
    have same := counts_of_same quiet.calls quiet.io request
    rw [same.1, same.2, quiet.answered]
    exact h.counted request
  · rw [quiet.io, quiet.destroyed]
    exact h.alive
  · rw [quiet.calls]
    exact h.fresh

theorem cancels_accounted {d : ShellLoginDialog} (h : Accounted s) (cancels : Cancels s s' d)
    (idle : inFlight s d.request = 0) : Accounted s' := by
  have elsewhere := inFlight_eq_zero.mp idle
  constructor
  · intro request
    have same := counts_of_same cancels.calls cancels.io request
    rw [same.1, same.2, cancels.answered]
    exact h.counted request
  · intro t member
    rw [cancels.io] at member
    rw [cancels.destroyed, List.mem_cons, not_or]
    exact ⟨elsewhere t member, h.alive t member⟩
  · rw [cancels.calls]
    exact h.fresh

theorem responds_accounted {d : ShellLoginDialog} {t : IoTask} (h : Accounted s)
    (responds : Responds s s' d t) (alive : d.request ∉ s.threads.destroyed)
    (first : d.request ∉ s.answered) : Accounted s' := by
  constructor
  · intro request
    have before := h.counted request
    rw [responds_counts responds, responds.answered, before]
    by_cases here : d.request = request
    · subst here
      simp [first]
    · simp [here, Ne.symm here]
  · intro x member
    rw [responds.io, List.mem_append, List.mem_singleton] at member
    rw [responds.destroyed]
    rcases member with old | rfl
    · exact h.alive x old
    · rw [responds.dialog]
      exact alive
  · rw [responds.calls]
    exact h.fresh

theorem sends_accounted {t : IoTask} {auth : AuthCall} (h : Accounted s)
    (sends : Sends s s' t auth) : Accounted s' := by
  have head : t.dialog.request ∉ s.threads.destroyed := h.alive t (by simp [sends.io])
  constructor
  · intro request
    rw [sends_counts sends, sends.answered]
    exact h.counted request
  · intro x member
    rw [sends.destroyed]
    exact h.alive x (by simp [sends.io, member])
  · intro c member
    rw [sends.calls, List.mem_append, List.mem_cons, List.mem_singleton] at member
    rcases member with old | rfl | rfl
    · exact h.fresh c old
    · exact decide_eq_false head
    · exact decide_eq_false head

theorem step_accounted {e : Event} (h : Accounted s) (hs : step s e = some s')
    (uncrossed : Uncrossed s e) : Accounted s' := by
  rcases step_cases hs with ⟨quiet, _⟩ | ⟨ptr, d, rfl, found, cancels⟩ |
    ⟨response, d, t, rfl, found, responds⟩ | ⟨t, auth, rfl, sends⟩
  · exact quiet_accounted h quiet
  · exact cancels_accounted h cancels (uncrossed d found)
  · obtain ⟨alive, first⟩ := uncrossed d found
    exact responds_accounted h responds alive first
  · exact sends_accounted h sends

theorem accounted_safe (h : Accounted s) : Safe s := by
  refine ⟨h.fresh, fun request => ?_⟩
  have counted := h.counted request
  split at counted <;> omega

/-- A misdirected answer: given already, or on its way. -/
def Misdirected (s : State) : Prop :=
  (∃ c ∈ s.threads.calls, c.dead = true) ∨
  (∃ t ∈ s.threads.io, t.dialog.request ∈ s.threads.destroyed) ∨
  ∃ request, 2 ≤ authCalls s request + inFlight s request

theorem crossed_misdirects {e : Event} (h : Accounted s) (hs : step s e = some s')
    (crossed : ¬ Uncrossed s e) : Misdirected s' := by
  rcases step_cases hs with ⟨_, uncrossed⟩ | ⟨ptr, d, rfl, found, cancels⟩ |
    ⟨response, d, t, rfl, found, responds⟩ | ⟨t, auth, rfl, sends⟩
  · exact absurd uncrossed crossed
  · have busy : ∃ t ∈ s.threads.io, t.dialog.request = d.request := by
      by_contra idle
      apply crossed
      intro x hx
      cases Option.some.inj (found.symm.trans hx)
      exact inFlight_eq_zero.mpr fun t member same => idle ⟨t, member, same⟩
    obtain ⟨t, member, same⟩ := busy
    refine .inr (.inl ⟨t, cancels.io ▸ member, ?_⟩)
    rw [cancels.destroyed, same]
    exact List.mem_cons_self
  · by_cases dead : d.request ∈ s.threads.destroyed
    · refine .inr (.inl ⟨t, ?_, ?_⟩)
      · rw [responds.io]
        exact List.mem_append_right _ List.mem_cons_self
      · rw [responds.destroyed, responds.dialog]
        exact dead
    · have again : d.request ∈ s.answered := by
        by_contra first
        apply crossed
        intro x hx
        cases Option.some.inj (found.symm.trans hx)
        exact ⟨dead, first⟩
      refine .inr (.inr ⟨d.request, ?_⟩)
      rw [responds_counts responds, h.counted, if_pos again, if_pos rfl]
  · exact absurd trivial crossed

theorem misdirected_of_same (h : Misdirected s) (calls : s'.threads.calls = s.threads.calls)
    (io : s'.threads.io = s.threads.io)
    (destroyed : ∀ request ∈ s.threads.destroyed, request ∈ s'.threads.destroyed) :
    Misdirected s' := by
  rcases h with ⟨c, member, dead⟩ | ⟨t, member, dead⟩ | ⟨request, twice⟩
  · exact .inl ⟨c, calls ▸ member, dead⟩
  · exact .inr (.inl ⟨t, io ▸ member, destroyed _ dead⟩)
  · have same := counts_of_same calls io request
    exact .inr (.inr ⟨request, by omega⟩)

theorem misdirected_stays {e : Event} (h : Misdirected s) (hs : step s e = some s') :
    Misdirected s' := by
  rcases step_cases hs with ⟨quiet, _⟩ | ⟨ptr, d, rfl, found, cancels⟩ |
    ⟨response, d, t, rfl, found, responds⟩ | ⟨t, auth, rfl, sends⟩
  · exact misdirected_of_same h quiet.calls quiet.io fun _ dead => quiet.destroyed ▸ dead
  · apply misdirected_of_same h cancels.calls cancels.io
    intro _ dead
    rw [cancels.destroyed]
    exact List.mem_cons_of_mem _ dead
  · rcases h with ⟨c, member, dead⟩ | ⟨x, member, dead⟩ | ⟨request, twice⟩
    · exact .inl ⟨c, responds.calls ▸ member, dead⟩
    · refine .inr (.inl ⟨x, ?_, responds.destroyed ▸ dead⟩)
      rw [responds.io]
      exact List.mem_append_left _ member
    · refine .inr (.inr ⟨request, ?_⟩)
      rw [responds_counts responds]
      omega
  · rcases h with ⟨c, member, dead⟩ | ⟨x, member, dead⟩ | ⟨request, twice⟩
    · refine .inl ⟨c, ?_, dead⟩
      rw [sends.calls]
      exact List.mem_append_left _ member
    · rw [sends.io, List.mem_cons] at member
      rcases member with rfl | waiting
      · refine .inl ⟨⟨x.dialog.request, auth, true⟩, ?_, rfl⟩
        simp [sends.calls, dead]
      · exact .inr (.inl ⟨x, waiting, sends.destroyed ▸ dead⟩)
    · refine .inr (.inr ⟨request, ?_⟩)
      rw [sends_counts sends]
      exact twice

theorem safe_not_misdirected (safe : Safe s) (drained : s.threads.io = []) : ¬ Misdirected s := by
  rintro (⟨c, member, dead⟩ | ⟨t, member, _⟩ | ⟨request, twice⟩)
  · rw [safe.1 c member] at dead
    cases dead
  · rw [drained] at member
    exact List.not_mem_nil member
  · have once := safe.2 request
    have idle : inFlight s request = 0 := by simp [inFlight, drained]
    omega

/-- A run of uncrossed steps is safe throughout; and a run at whose end no answer is
in flight is safe only if all its steps are uncrossed. -/
theorem auth_safe_iff_uncrossed (es : List Event) :
    (Runs.Along step (fun s e _ => Uncrossed s e) {} es → Runs.Always step Safe {} es) ∧
      ∀ t, Runs.run step {} es = some t → t.threads.io = [] → Runs.Always step Safe {} es →
        Runs.Along step (fun s e _ => Uncrossed s e) {} es := by
  have start : Accounted {} := by
    constructor
    · intro request
      rfl
    · exact fun t member => (List.not_mem_nil member).elim
    · exact fun c member => (List.not_mem_nil member).elim
  have keep : ∀ s e s', Accounted s → step s e = some s' → Uncrossed s e → Accounted s' :=
    fun s e s' h hs uncrossed => step_accounted h hs uncrossed
  constructor
  · exact Runs.always_of_along Accounted es start keep fun s h => accounted_safe h
  · intro t reached drained always
    have clean := safe_not_misdirected (Runs.always_last always reached) drained
    exact Runs.along_of_unmarked Misdirected start keep
      (fun s e s' h hs crossed => crossed_misdirects h hs crossed)
      (fun s e s' h hs => misdirected_stays h hs) reached clean

/-- The user accepts while the page is being closed. -/
def acceptedWhileClosing : List Event :=
  [.createLoginDelegate ⟨"a.com:80".toList, "staff".toList⟩ 7, .runUiTask,
    .processResponse { nativeObject := 0, username := "u".toList, password := "p".toList },
    .onRequestCancelled 0, .runIoTask]

theorem closing_page_gets_auth :
    (Runs.run step {} acceptedWhileClosing).map (·.threads.calls) =
      some [⟨7, .setAuth "u".toList "p".toList, true⟩, ⟨7, .clearLoginDelegateForRequest, true⟩] ∧
    ¬ ∀ es, Runs.Always step Safe {} es := by
  have calls : (Runs.run step {} acceptedWhileClosing).map (·.threads.calls) =
      some [⟨7, .setAuth "u".toList "p".toList, true⟩,
        ⟨7, .clearLoginDelegateForRequest, true⟩] := by decide +kernel
  refine ⟨calls, fun safe => ?_⟩
  obtain ⟨t, reached, same⟩ := Option.map_eq_some_iff.mp calls
  have fresh := (Runs.always_last (safe acceptedWhileClosing) reached).1
  rw [same] at fresh
  have dead := fresh _ List.mem_cons_self
  cases dead

end Seaturtle.LoginRuns
