import Seaturtle.Dialog.Answers

/-! The callbacks of one shell's dialogs, where the callback that `DialogClosed` runs
may itself open dialogs, and more answers may come, before it returns. -/
namespace Seaturtle.CallbackRuns
open ShellJavaScriptDialogManager
open DialogRuns (RegisteredShell)

structure State where
  jdm : DialogManagers := .empty
  opened : Nat := 0
  /-- The callbacks that `DialogClosed` has called and that did not return, the last first. -/
  running : List DialogClosedCallback := []
  ran : List CallbackRun := []
  /-- What the slot held at each cancellation. -/
  dropped : List DialogClosedCallback := []
  aborted : Bool := false

inductive Event where
  | runJavaScriptDialog (originUrl : Gurl) (acceptLang : Str) (type : JavaScriptMessageType)
      (messageText defaultPromptText : Str)
  | runBeforeUnloadDialog (messageText : Str) (isReload : Bool)
  | cancelActiveAndPendingDialogs
  | webContentsDestroyed
  /-- `DialogClosed` up to the call of the callback. -/
  | dialogClosed (success : Bool) (text : Str)
  /-- The rest of the innermost `DialogClosed`. -/
  | callbackReturns

variable (r : RegisteredShell)

def manager (s : State) : ShellJavaScriptDialogManager := (s.jdm r.shell.ptr).getD {}

def slot (s : State) : Option DialogClosedCallback := (manager r s).lastCallback

def present (s : State) (dm : ShellJavaScriptDialogManager) : State :=
  { s with jdm := s.jdm.set r.shell.ptr dm, opened := s.opened + 1 }

def cancel (s : State) (dm : ShellJavaScriptDialogManager) : State :=
  { s with jdm := s.jdm.set r.shell.ptr dm, dropped := s.dropped ++ (slot r s).toList }

def answer (s : State) (p : JavascriptDialogClosed) : State :=
  match callbackToRun r.browser s.jdm p with
  | .error _ => { s with aborted := true }
  | .ok (_, callback) =>
    { s with
      running := callback :: s.running
      ran := s.ran ++ [⟨callback, p.success, p.text⟩] }

def step (s : State) (e : Event) : Option State :=
  if s.aborted then none
  else match e with
    | .runJavaScriptDialog originUrl acceptLang type messageText defaultPromptText =>
      some (present r s ((manager r s).runJavaScriptDialog r.shell.wc.ptr originUrl acceptLang type
        messageText defaultPromptText s.opened).2.2)
    | .runBeforeUnloadDialog messageText isReload =>
      some (present r s ((manager r s).runBeforeUnloadDialog r.shell.wc.ptr messageText isReload
        s.opened).2)
    | .cancelActiveAndPendingDialogs =>
      some (cancel r s (manager r s).cancelActiveAndPendingDialogs)
    | .webContentsDestroyed => some (cancel r s (manager r s).webContentsDestroyed)
    | .dialogClosed success text => some (answer r s ⟨r.shell.wc.ptr, success, text⟩)
    | .callbackReturns =>
      match s.running with
      | [] => none
      | _ :: outer => some { s with jdm := resetLastCallback s.jdm r.shell, running := outer }

def timesRun (s : State) (c : DialogClosedCallback) : Nat := (s.ran.map (·.callback)).count c

/-- Every callback handed over is run at most once, and is still in the slot unless it
was run or dropped. -/
def Conserved (s : State) : Prop :=
  ∀ c < s.opened, timesRun s c ≤ 1 ∧ (timesRun s c = 0 → c ∈ s.dropped ∨ slot r s = some c)

instance (s : State) : Decidable (Conserved r s) := by
  unfold Conserved
  infer_instance

/-- What the slot holds, if anything, has been called already. -/
def NothingPending (s : State) : Prop := ∀ c, slot r s = some c → c ∈ s.running

/-- A dialog is opened, and a callback returns, while nothing is pending; an answer
finds no callback that is still running. -/
def SparesPending (s : State) : Event → Prop
  | .runJavaScriptDialog .. | .runBeforeUnloadDialog .. | .callbackReturns => NothingPending r s
  | .dialogClosed .. => ∀ c, slot r s = some c → c ∉ s.running
  | .cancelActiveAndPendingDialogs | .webContentsDestroyed => True

/-- A callback in the slot was neither dropped nor called, unless it is running. -/
structure Kept (s : State) : Prop where
  conserved : Conserved r s
  past : ∀ run ∈ s.ran, run.callback < s.opened
  dropped : ∀ c ∈ s.dropped, c < s.opened
  running : ∀ c ∈ s.running, timesRun s c ≠ 0
  held : ∀ c, slot r s = some c → c < s.opened ∧ c ∉ s.dropped ∧
    (c ∉ s.running → timesRun s c = 0)

variable {r} {s s' : State}

theorem timesRun_zero {c : DialogClosedCallback} :
    timesRun s c = 0 ↔ ∀ run ∈ s.ran, run.callback ≠ c := by
  rw [timesRun, List.count_eq_zero]
  simp

theorem unopened_never_run (h : Kept r s) : timesRun s s.opened = 0 := by
  rw [timesRun_zero]
  intro run member same
  exact Nat.lt_irrefl _ (same ▸ h.past run member)

theorem present_kept {dm : ShellJavaScriptDialogManager} (h : Kept r s)
    (holds : dm.lastCallback = some s.opened) (idle : NothingPending r s) :
    Kept r (present r s dm) := by
  have new : slot r (present r s dm) = some s.opened := by
    simp only [slot, manager, present, manager_set, holds]
  constructor
  · intro c below
    rcases Nat.lt_succ_iff_lt_or_eq.mp below with old | rfl
    · obtain ⟨once, kept⟩ := h.conserved c old
      refine ⟨once, fun never => .inl ((kept never).resolve_right fun here => ?_)⟩
      exact h.running c (idle c here) never
    · have never : timesRun (present r s dm) s.opened = 0 := unopened_never_run h
      exact ⟨by omega, fun _ => .inr new⟩
  · exact fun run member => Nat.lt_succ_of_lt (h.past run member)
  · exact fun c member => Nat.lt_succ_of_lt (h.dropped c member)
  · exact h.running
  · intro c here
    rw [new] at here
    cases here
    refine ⟨Nat.lt_succ_self _, fun member => ?_, fun _ => unopened_never_run h⟩
    exact Nat.lt_irrefl _ (h.dropped _ member)

theorem cancel_kept {dm : ShellJavaScriptDialogManager} (h : Kept r s)
    (none : dm.lastCallback = none) : Kept r (cancel r s dm) := by
  have empty : slot r (cancel r s dm) = Option.none := by
    simp only [slot, manager, cancel, manager_set, none]
  constructor
  · intro c below
    obtain ⟨once, kept⟩ := h.conserved c below
    refine ⟨once, fun never => .inl (List.mem_append.mpr ?_)⟩
    exact (kept never).imp id fun here => by simp [here]
  · exact h.past
  · intro c member
    rcases List.mem_append.mp member with old | here
    · exact h.dropped c old
    · exact (h.held c (Option.mem_toList.mp here)).1
  · exact h.running
  · intro c here
    rw [empty] at here
    cases here

theorem answer_eq (s : State) (success : Bool) (text : Str) :
    answer r s ⟨r.shell.wc.ptr, success, text⟩ =
      match slot r s with
      | none => { s with aborted := true }
      | some c => { s with running := c :: s.running, ran := s.ran ++ [⟨c, success, text⟩] } := by
  simp only [answer, DialogRuns.callbackToRun_registered, slot, manager]
  cases ((s.jdm r.shell.ptr).getD {}).lastCallback <;> rfl

theorem answer_some {c : DialogClosedCallback} (holds : slot r s = some c) (success : Bool)
    (text : Str) :
    answer r s ⟨r.shell.wc.ptr, success, text⟩ =
      { s with running := c :: s.running, ran := s.ran ++ [⟨c, success, text⟩] } := by
  rw [answer_eq, holds]

theorem answer_timesRun {c : DialogClosedCallback} (holds : slot r s = some c) (success : Bool)
    (text : Str) (d : DialogClosedCallback) :
    timesRun (answer r s ⟨r.shell.wc.ptr, success, text⟩) d =
      timesRun s d + if c = d then 1 else 0 := by
  simp only [answer_some holds, timesRun, List.map_append, List.map_cons, List.map_nil,
    List.count_append, List.count_singleton, beq_iff_eq]

theorem answer_kept {success : Bool} {text : Str} (h : Kept r s)
    (ready : ∀ c, slot r s = some c → c ∉ s.running) :
    Kept r (answer r s ⟨r.shell.wc.ptr, success, text⟩) := by
  cases holds : slot r s with
  | none =>
    rw [answer_eq, holds]
    exact ⟨h.conserved, h.past, h.dropped, h.running, h.held⟩
  | some c =>
    obtain ⟨below, kept, fresh⟩ := h.held c holds
    have never := fresh (ready c holds)
    have counts := answer_timesRun holds success text
    rw [answer_some holds] at counts ⊢
    constructor
    · intro d bound
      obtain ⟨once, before⟩ := h.conserved d bound
      rw [counts]
      split
      · next here =>
        subst here
        exact ⟨by omega, fun impossible => by omega⟩
      · exact ⟨once, before⟩
    · intro run member
      rcases List.mem_append.mp member with old | new
      · exact h.past run old
      · cases List.mem_singleton.mp new
        exact below
    · exact h.dropped
    · intro d member
      rw [counts]
      rcases List.mem_cons.mp member with rfl | old
      · simp
      · have := h.running d old
        omega
    · intro d here
      cases holds.symm.trans here
      exact ⟨below, kept, fun absent => absurd List.mem_cons_self absent⟩

theorem return_kept {c : DialogClosedCallback} {outer : List DialogClosedCallback} (h : Kept r s)
    (frame : s.running = c :: outer) (idle : NothingPending r s) :
    Kept r { s with jdm := resetLastCallback s.jdm r.shell, running := outer } := by
  have empty :
      slot r { s with jdm := resetLastCallback s.jdm r.shell, running := outer } = none := by
    simp only [slot, manager, resetLastCallback, manager_set]
  constructor
  · intro d below
    obtain ⟨once, kept⟩ := h.conserved d below
    refine ⟨once, fun never => .inl ((kept never).resolve_right fun here => ?_)⟩
    exact h.running d (idle d here) never
  · exact h.past
  · exact h.dropped
  · exact fun d member => h.running d (frame ▸ List.mem_cons_of_mem c member)
  · intro d here
    rw [empty] at here
    cases here

theorem step_kept {e : Event} (h : Kept r s) (hs : step r s e = some s')
    (spares : SparesPending r s e) : Kept r s' := by
  unfold step at hs
  split at hs
  · cases hs
  · cases e with
    | runJavaScriptDialog originUrl acceptLang type messageText defaultPromptText =>
      cases hs
      exact present_kept h rfl spares
    | runBeforeUnloadDialog messageText isReload =>
      cases hs
      exact present_kept h rfl spares
    | cancelActiveAndPendingDialogs =>
      cases hs
      exact cancel_kept h rfl
    | webContentsDestroyed =>
      cases hs
      exact cancel_kept h rfl
    | dialogClosed success text =>
      cases hs
      exact answer_kept h spares
    | callbackReturns =>
      cases frame : s.running with
      | nil =>
        rw [frame] at hs
        cases hs
      | cons c outer =>
        rw [frame] at hs
        cases hs
        exact return_kept h frame spares

/-- A pending callback can only be called or dropped. -/
theorem pending_stays {c : DialogClosedCallback} (h : Kept r s) (conserved : Conserved r s')
    (holds : slot r s = some c) (pending : c ∉ s.running) (same : timesRun s' c = timesRun s c)
    (kept : s'.dropped = s.dropped) (grows : s.opened ≤ s'.opened) : slot r s' = some c := by
  obtain ⟨below, undropped, fresh⟩ := h.held c holds
  have answered := (conserved c (Nat.lt_of_lt_of_le below grows)).2 (same.trans (fresh pending))
  rw [kept] at answered
  exact answered.resolve_left undropped

theorem present_conserved {dm : ShellJavaScriptDialogManager} (h : Kept r s)
    (holds : dm.lastCallback = some s.opened) (conserved : Conserved r (present r s dm)) :
    NothingPending r s := by
  intro c here
  by_contra pending
  have stays := pending_stays h conserved here pending rfl rfl (Nat.le_succ _)
  simp only [slot, manager, present, manager_set, holds] at stays
  cases stays
  exact Nat.lt_irrefl _ (h.held _ here).1

theorem step_conserved {e : Event} (h : Kept r s) (hs : step r s e = some s')
    (conserved : Conserved r s') : SparesPending r s e := by
  unfold step at hs
  split at hs
  · cases hs
  · cases e with
    | runJavaScriptDialog originUrl acceptLang type messageText defaultPromptText =>
      cases hs
      exact present_conserved h rfl conserved
    | runBeforeUnloadDialog messageText isReload =>
      cases hs
      exact present_conserved h rfl conserved
    | cancelActiveAndPendingDialogs => trivial
    | webContentsDestroyed => trivial
    | dialogClosed success text =>
      cases hs
      intro c holds again
      have before := h.running c again
      have below := (h.held c holds).1
      have bound : c < (answer r s ⟨r.shell.wc.ptr, success, text⟩).opened := by
        rw [answer_some holds]
        exact below
      have once := (conserved c bound).1
      rw [answer_timesRun holds, if_pos rfl] at once
      omega
    | callbackReturns =>
      intro c holds
      by_contra pending
      cases frame : s.running with
      | nil =>
        rw [frame] at hs
        cases hs
      | cons d outer =>
        rw [frame] at hs
        cases hs
        have stays := pending_stays h conserved holds pending rfl rfl (Nat.le_refl _)
        simp only [slot, manager, resetLastCallback, manager_set] at stays
        cases stays

/-- In every state of a run no callback is lost or run twice exactly when no dialog is
opened and no callback returns while another is pending, and none that is still running
is answered. -/
theorem no_callback_lost_iff (r : RegisteredShell) (es : List Event) :
    Runs.Always (step r) (Conserved r) {} es ↔
      Runs.Along (step r) (fun s e _ => SparesPending r s e) {} es := by
  apply Runs.always_iff_along (Kept r)
  · constructor
    · exact fun c below => (Nat.not_lt_zero c below).elim
    · exact fun run member => (List.not_mem_nil member).elim
    · exact fun c member => (List.not_mem_nil member).elim
    · exact fun c member => (List.not_mem_nil member).elim
    · exact fun c impossible => nomatch impossible
  · exact fun s e s' h hs spares => step_kept h hs spares
  · exact fun s h => h.conserved
  · exact fun s e s' h hs conserved => step_conserved h hs conserved

def alert : Event :=
  .runJavaScriptDialog (Gurl.parseCanonical "http://a.com/".toList) "en".toList .alert
    "hello".toList []

/-- A frame of the page asks before it unloads, while the page shows an alert. -/
def overlapping : List Event := [alert, .runBeforeUnloadDialog "leave?".toList false]

/-- The page goes on to its next alert before the call that closed the first returns. -/
def nested : List Event := [alert, .dialogClosed true [], alert, .callbackReturns]

theorem overlapping_dialog_lost :
    (Runs.run (step DialogRuns.launched) {} overlapping).map
        (fun s => (slot DialogRuns.launched s, s.ran, s.dropped)) = some (some 1, [], []) ∧
      (Runs.run (step DialogRuns.launched) {} nested).map
        (fun s => (slot DialogRuns.launched s, s.ran, s.dropped)) =
          some (none, [⟨0, true, []⟩], []) ∧
      ¬ ∀ r es, Runs.Always (step r) (Conserved r) {} es := by
  refine ⟨by decide +kernel, by decide +kernel, fun always => ?_⟩
  have conserved := always DialogRuns.launched nested
  revert conserved
  decide +kernel

/-- With a callback that leaves the dialogs alone, the two halves make up `DialogClosed`. -/
theorem closed_and_returned (s : State) (success : Bool) (text : Str) (run : CallbackRun)
    (jdm : DialogManagers) (alive : s.aborted = false)
    (closed : dialogClosed r.browser s.jdm ⟨r.shell.wc.ptr, success, text⟩ = .ok (run, jdm)) :
    Runs.run (step r) s [.dialogClosed success text, .callbackReturns] =
      some { s with jdm, ran := s.ran ++ [run] } := by
  rw [DialogRuns.dialogClosed_registered] at closed
  cases holds : slot r s with
  | none =>
    rw [slot, manager] at holds
    rw [holds] at closed
    cases closed
  | some c =>
    have called := answer_eq (r := r) s success text
    rw [holds] at called
    rw [slot, manager] at holds
    rw [holds] at closed
    cases closed
    simp only [Runs.run_cons, Runs.run_nil, step, alive, called, Bool.false_eq_true, if_false,
      Option.bind_some]

end Seaturtle.CallbackRuns
