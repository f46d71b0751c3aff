import Seaturtle.Dialog.Login
import Seaturtle.Lib.RefCounts
import Seaturtle.Lib.Runs
import Mathlib.Data.List.Nodup

/-! How long the login dialogs live. A bound task holds its dialog until it has run, and the
loader of the request holds the one it was given; Java has no more than its address. -/
namespace Seaturtle

def UiTask.dialog : UiTask → ShellLoginDialog
  | .prepDialog d _ _ => d
  | .platformRequestCancelled d => d

namespace LoginLifetimes

structure State where
  threads : LoginThreads := {}
  /-- In the order they were made, which stands for their addresses. -/
  dialogs : List ShellLoginDialog := []
  refs : RefCounts.Counts Nat := {}
  /-- The dialog that `CreateLoginDelegate` has made and the loader does not hold yet. -/
  creating : Option ShellLoginDialog := none
  /-- The `login_delegate_` of the loaders that have one. -/
  delegates : List ShellLoginDialog := []
  /-- The task that the UI thread is in. -/
  running : Option UiTask := none
  /-- The dialogs that Java has answered. -/
  answered : List Nat := []
  /-- A dialog was used that had been freed. -/
  dangled : Bool := false

inductive Event where
  | createLoginDelegate (authInfo : AuthChallengeInfo) (request : Nat)
  /-- The loader takes what `CreateLoginDelegate` has returned. -/
  | takeDelegate
  /-- The loader gives the request up and destroys it. -/
  | onRequestCancelled (request : Nat)
  | runUiTask
  | uiTaskDone
  | runIoTask
  /-- Also while the UI thread is in a task that has called Java. -/
  | processResponse (response : HttpAuthResponse)
  deriving DecidableEq

/-- `base::Bind`, and the queues with the task that it is for. -/
def bind (s : State) (d : ShellLoginDialog) (threads : LoginThreads) : State :=
  { s with threads, refs := RefCounts.addRef s.refs d.ptr }

def createLoginDelegate (s : State) (authInfo : AuthChallengeInfo) (request : Nat) : State :=
  let d : ShellLoginDialog := ⟨s.dialogs.length, authInfo, request⟩
  { bind s d (d.construct s.threads) with dialogs := s.dialogs ++ [d], creating := some d }

def takeDelegate (s : State) (d : ShellLoginDialog) : State :=
  if d.ptr ∈ s.refs.freed then { s with dangled := true }
  else
    { s with
      creating := none, delegates := d :: s.delegates, refs := RefCounts.addRef s.refs d.ptr }

def clearLoginDelegate (s : State) (d : ShellLoginDialog) : State :=
  { s with delegates := s.delegates.erase d, refs := RefCounts.release s.refs d.ptr }

def delegateOf (s : State) (request : Nat) : Option ShellLoginDialog :=
  s.delegates.find? (·.request == request)

/-- The destructor of the loader. -/
def onRequestCancelled (s : State) (d : ShellLoginDialog) : State :=
  let threads := d.onRequestCancelled s.threads
  clearLoginDelegate (bind s d { threads with destroyed := d.request :: threads.destroyed }) d

def runUi (s : State) (t : UiTask) : State :=
  match t with
  | .prepDialog d host realm =>
    { s with threads := d.prepDialog s.threads host realm, running := some t }
  | .platformRequestCancelled d =>
    { s with threads := d.platformRequestCancelled s.threads, running := some t }

def runIo (s : State) (t : IoTask) : State :=
  let threads := t.dialog.sendAuthToRequester s.threads t.success t.username t.password
  let cleared := (delegateOf s t.dialog.request).elim s (clearLoginDelegate s)
  { cleared with threads, refs := RefCounts.release cleared.refs t.dialog.ptr }

def processResponse (s : State) (d : ShellLoginDialog) (response : HttpAuthResponse) : State :=
  if d.ptr ∈ s.refs.freed then { s with dangled := true }
  else
    { bind s d (d.processResponse s.threads response) with answered := d.ptr :: s.answered }

/-- Java was shown the dialog. -/
def shown (s : State) (ptr : Nat) : Bool :=
  s.threads.toJava.any fun m => m.nativeObject == ptr && !m.isCancel

def toldCancelled (s : State) (ptr : Nat) : Bool :=
  s.threads.toJava.any fun m => m.nativeObject == ptr && m.isCancel

/-- The IO thread is not at another task while it creates a delegate. A request is given a
delegate only while it has none. -/
def step (s : State) (e : Event) : Option State :=
  if s.dangled then none
  else match e with
    | .createLoginDelegate authInfo request =>
      if s.creating.isSome || decide (request ∈ s.threads.destroyed) ||
          (delegateOf s request).isSome then none
      else some (createLoginDelegate s authInfo request)
    | .takeDelegate => s.creating.map (takeDelegate s)
    | .onRequestCancelled request =>
      if s.creating.isSome then none else (delegateOf s request).map (onRequestCancelled s)
    | .runUiTask =>
      if s.running.isSome then none
      else match s.threads.ui with
        | [] => none
        | t :: ui => some (runUi { s with threads := { s.threads with ui } } t)
    | .uiTaskDone => s.running.map fun t =>
      { s with running := none, refs := RefCounts.release s.refs t.dialog.ptr }
    | .runIoTask =>
      if s.creating.isSome then none
      else match s.threads.io with
        | [] => none
        | t :: io => some (runIo { s with threads := { s.threads with io } } t)
    | .processResponse response =>
      if shown s response.nativeObject then
        s.dialogs[response.nativeObject]?.map (processResponse s · response)
      else none

/-- The tasks, and the loaders, with the dialogs that they hold. -/
def holders (s : State) : List Nat :=
  s.threads.ui.map (·.dialog.ptr) ++ s.running.toList.map (·.dialog.ptr) ++
    s.threads.io.map (·.dialog.ptr) ++ s.delegates.map (·.ptr)

variable {s s' : State} {d : ShellLoginDialog}

/-- All that a step can do. -/
inductive Moves (s : State) : Event → State → Prop where
  | creates {authInfo : AuthChallengeInfo} {request : Nat} (free : s.creating = none)
      (alive : request ∉ s.threads.destroyed) (none : delegateOf s request = none) :
    Moves s (.createLoginDelegate authInfo request) (createLoginDelegate s authInfo request)
  | takes {d : ShellLoginDialog} (made : s.creating = some d) :
    Moves s .takeDelegate (takeDelegate s d)
  | cancels {d : ShellLoginDialog} {request : Nat} (free : s.creating = none)
      (has : delegateOf s request = some d) :
    Moves s (.onRequestCancelled request) (onRequestCancelled s d)
  | runsUi {t : UiTask} {ui : List UiTask} (free : s.running = none)
      (queue : s.threads.ui = t :: ui) :
    Moves s .runUiTask (runUi { s with threads := { s.threads with ui } } t)
  | finishes {t : UiTask} (inside : s.running = some t) :
    Moves s .uiTaskDone
      { s with running := none, refs := RefCounts.release s.refs t.dialog.ptr }
  | runsIo {t : IoTask} {io : List IoTask} (free : s.creating = none)
      (queue : s.threads.io = t :: io) :
    Moves s .runIoTask (runIo { s with threads := { s.threads with io } } t)
  | responds {d : ShellLoginDialog} {response : HttpAuthResponse}
      (seen : shown s response.nativeObject = true)
      (found : s.dialogs[response.nativeObject]? = some d) :
    Moves s (.processResponse response) (processResponse s d response)

theorem step_moves {e : Event} (taken : step s e = some s') : s.dangled = false ∧ Moves s e s' := by
  unfold step at taken
  split at taken
  · cases taken
  · next running =>
    refine ⟨eq_false_of_ne_true running, ?_⟩
    cases e with
    | createLoginDelegate authInfo request =>
      simp only [Option.ite_none_left_eq_some, Option.some.injEq, Bool.or_eq_true, not_or,
        Bool.not_eq_true, Option.isSome_eq_false_iff, Option.isNone_iff_eq_none,
        decide_eq_false_iff_not] at taken
      obtain ⟨⟨⟨free, alive⟩, none⟩, rfl⟩ := taken
      exact .creates free alive none
    | takeDelegate =>
      obtain ⟨d, made, rfl⟩ := Option.map_eq_some_iff.mp taken
      exact .takes made
    | onRequestCancelled request =>
      simp only [Option.ite_none_left_eq_some, Option.map_eq_some_iff, Bool.not_eq_true,
        Option.isSome_eq_false_iff, Option.isNone_iff_eq_none] at taken
      obtain ⟨free, d, has, rfl⟩ := taken
      exact .cancels free has
    | runUiTask =>
      simp only [Option.ite_none_left_eq_some, Bool.not_eq_true, Option.isSome_eq_false_iff,
        Option.isNone_iff_eq_none] at taken
      obtain ⟨free, taken⟩ := taken
      split at taken
      · cases taken
      · next t ui queue =>
        cases taken
        exact .runsUi free queue
    | uiTaskDone =>
      obtain ⟨t, inside, rfl⟩ := Option.map_eq_some_iff.mp taken
      exact .finishes inside
    | runIoTask =>
      simp only [Option.ite_none_left_eq_some, Bool.not_eq_true, Option.isSome_eq_false_iff,
        Option.isNone_iff_eq_none] at taken
      obtain ⟨free, taken⟩ := taken
      split at taken
      · cases taken
      · next t io queue =>
        cases taken
        exact .runsIo free queue
    | processResponse response =>
      simp only [Option.ite_none_right_eq_some, Option.map_eq_some_iff] at taken
      obtain ⟨seen, d, found, rfl⟩ := taken
      exact .responds seen found

/-! The counts are those of the holders. -/

structure Counted (s : State) : Prop where
  held : RefCounts.Held (· < s.dialogs.length) (holders s) s.refs
  numbered : ∀ (n : Nat) (d : ShellLoginDialog), s.dialogs[n]? = some d → d.ptr = n
  creating : ∀ d : ShellLoginDialog, s.creating = some d → d.ptr < s.dialogs.length

theorem delegateOf_mem {request : Nat} (has : delegateOf s request = some d) :
    d ∈ s.delegates ∧ d.request = request :=
  ⟨List.mem_of_find?_eq_some has, by simpa using List.find?_some has⟩

theorem holds_delegate (member : d ∈ s.delegates) : d.ptr ∈ holders s :=
  List.mem_append_right _ (List.mem_map_of_mem member)

theorem clear_holders (member : d ∈ s.delegates) :
    (holders s).Perm (d.ptr :: holders (clearLoginDelegate s d)) := by
  have front := (List.perm_cons_erase member).map ShellLoginDialog.ptr
  exact (front.append_left _).trans List.perm_middle

/-- A task is bound to a dialog and posted to a thread. -/
theorem posted_ui {t : UiTask} (about : t.dialog = d) (destroyed : List Nat) :
    (d.ptr :: holders s).Perm
      (holders (bind s d { s.threads with ui := s.threads.ui ++ [t], destroyed })) := by
  rw [List.perm_iff_count]
  intro ptr
  simp only [holders, bind, List.map_append, List.map_cons, List.map_nil, about, List.count_append,
    List.count_cons, List.count_nil]
  omega

theorem posted_io {t : IoTask} (about : t.dialog = d) :
    (d.ptr :: holders s).Perm
      (holders (bind s d { s.threads with io := s.threads.io ++ [t] })) := by
  rw [List.perm_iff_count]
  intro ptr
  simp only [holders, bind, List.map_append, List.map_cons, List.map_nil, about, List.count_append,
    List.count_cons, List.count_nil]
  omega

theorem found_concat {dialogs : List ShellLoginDialog} {new : ShellLoginDialog} {n : Nat}
    (found : (dialogs ++ [new])[n]? = some d) :
    dialogs[n]? = some d ∨ n = dialogs.length ∧ d = new := by
  rw [List.getElem?_append] at found
  split at found
  · exact .inl found
  · next above =>
    obtain ⟨below, same⟩ := List.getElem?_eq_some_iff.mp found
    rw [List.length_singleton] at below
    rw [List.getElem_singleton] at same
    exact .inr ⟨by omega, same.symm⟩

theorem creates_counted (h : Counted s) (authInfo : AuthChallengeInfo) (request : Nat) :
    Counted (createLoginDelegate s authInfo request) := by
  have new : s.dialogs.length ∉ s.refs.freed := by
    intro freed
    exact absurd ((h.held.freed_iff _).mp freed).1 (Nat.lt_irrefl _)
  constructor
  · refine RefCounts.held_perm (RefCounts.held_addRef h.held new fun l => ?_)
      (posted_ui (d := ⟨s.dialogs.length, authInfo, request⟩) rfl s.threads.destroyed)
    simp only [createLoginDelegate, List.length_append, List.length_singleton]
    omega
  · intro n d found
    rcases found_concat found with old | ⟨rfl, rfl⟩
    · exact h.numbered n d old
    · rfl
  · intro d made
    cases made
    simp [createLoginDelegate]

theorem takes_counted (h : Counted s) (made : s.creating = some d) :
    Counted (takeDelegate s d) := by
  unfold takeDelegate
  split
  · exact ⟨h.held, h.numbered, h.creating⟩
  · next alive =>
    refine ⟨?_, h.numbered, nofun⟩
    apply RefCounts.held_perm (RefCounts.held_share h.held alive (h.creating d made))
    exact List.perm_middle.symm

theorem cancels_counted (h : Counted s) (member : d ∈ s.delegates) :
    Counted (onRequestCancelled s d) := by
  have held := holds_delegate member
  have shared := RefCounts.held_share h.held (RefCounts.alive_of_held h.held held)
    (h.held.known _ held)
  have posted := RefCounts.held_perm shared (posted_ui (t := .platformRequestCancelled d) rfl
    (d.request :: s.threads.destroyed))
  have cleared := RefCounts.held_release (RefCounts.held_perm posted (clear_holders member))
  exact ⟨cleared, h.numbered, h.creating⟩

theorem runsUi_counted {t : UiTask} {ui : List UiTask} (h : Counted s) (free : s.running = none)
    (queue : s.threads.ui = t :: ui) :
    Counted (runUi { s with threads := { s.threads with ui } } t) := by
  have same : (holders s).Perm (holders (runUi { s with threads := { s.threads with ui } } t)) := by
    rw [List.perm_iff_count]
    intro ptr
    cases t <;>
      simp only [holders, runUi, ShellLoginDialog.prepDialog,
        ShellLoginDialog.platformRequestCancelled, queue, free, Option.toList_none,
        Option.toList_some, List.map_cons, List.map_nil, List.count_append, List.count_cons,
        List.count_nil]
    · omega
    · omega
  have held := RefCounts.held_perm h.held same
  cases t with
  | prepDialog d host realm => exact ⟨held, h.numbered, h.creating⟩
  | platformRequestCancelled d => exact ⟨held, h.numbered, h.creating⟩

theorem finishes_counted {t : UiTask} (h : Counted s) (inside : s.running = some t) :
    Counted { s with running := none, refs := RefCounts.release s.refs t.dialog.ptr } := by
  refine ⟨RefCounts.held_release (RefCounts.held_perm h.held ?_), h.numbered, h.creating⟩
  rw [List.perm_iff_count]
  intro ptr
  simp only [holders, inside, Option.toList_none, Option.toList_some, List.map_cons, List.map_nil,
    List.count_append, List.count_cons, List.count_nil]
  omega

theorem sent_queues (threads : LoginThreads) (d : ShellLoginDialog) (success : Bool)
    (username password : Str) :
    let sent := d.sendAuthToRequester threads success username password
    sent.ui = threads.ui ∧ sent.io = threads.io ∧ sent.toJava = threads.toJava ∧
      sent.destroyed = threads.destroyed := by
  cases success with
  | true => exact ⟨rfl, rfl, rfl, rfl⟩
  | false => exact ⟨rfl, rfl, rfl, rfl⟩

/-- The delegate of the request is cleared, if it has one. -/
theorem runIo_cleared (s : State) (t : IoTask) :
    ∃ cleared, (cleared = s ∧ delegateOf s t.dialog.request = none ∨
        ∃ d, delegateOf s t.dialog.request = some d ∧ cleared = clearLoginDelegate s d) ∧
      runIo s t = { cleared with
        threads := t.dialog.sendAuthToRequester s.threads t.success t.username t.password
        refs := RefCounts.release cleared.refs t.dialog.ptr } := by
  cases has : delegateOf s t.dialog.request with
  | none =>
    refine ⟨s, .inl ⟨rfl, rfl⟩, ?_⟩
    simp only [runIo, has, Option.elim_none]
  | some d =>
    refine ⟨clearLoginDelegate s d, .inr ⟨d, rfl, rfl⟩, ?_⟩
    simp only [runIo, has, Option.elim_some]

theorem runsIo_counted {t : IoTask} {io : List IoTask} (h : Counted s)
    (queue : s.threads.io = t :: io) :
    Counted (runIo { s with threads := { s.threads with io } } t) := by
  have popped : (holders s).Perm
      (t.dialog.ptr :: holders { s with threads := { s.threads with io } }) := by
    rw [List.perm_iff_count]
    intro ptr
    simp only [holders, queue, List.map_cons, List.count_append, List.count_cons]
    omega
  have held := RefCounts.held_perm h.held popped
  obtain ⟨sentUi, sentIo, _, _⟩ :=
    sent_queues { s.threads with io } t.dialog t.success t.username t.password
  obtain ⟨cleared, which, same⟩ := runIo_cleared { s with threads := { s.threads with io } } t
  rw [same]
  rcases which with ⟨rfl, _⟩ | ⟨d, has, rfl⟩
  · refine ⟨?_, h.numbered, h.creating⟩
    simp only [holders, sentUi, sentIo]
    exact RefCounts.held_release held
  · refine ⟨?_, h.numbered, h.creating⟩
    have cleared := (clear_holders (delegateOf_mem has).1).cons t.dialog.ptr
    have both := RefCounts.held_perm held (cleared.trans (.swap ..))
    simp only [holders, sentUi, sentIo, clearLoginDelegate]
    exact RefCounts.held_release (RefCounts.held_release both)

theorem responds_counted {response : HttpAuthResponse} (h : Counted s)
    (found : s.dialogs[response.nativeObject]? = some d) :
    Counted (processResponse s d response) := by
  unfold processResponse
  split
  · exact ⟨h.held, h.numbered, h.creating⟩
  · next alive =>
    have below : d.ptr < s.dialogs.length := by
      rw [h.numbered _ d found]
      exact (List.getElem?_eq_some_iff.mp found).1
    refine ⟨?_, h.numbered, h.creating⟩
    have shared := RefCounts.held_share h.held alive below
    unfold ShellLoginDialog.processResponse
    split
    · exact RefCounts.held_perm shared (posted_io rfl)
    · exact RefCounts.held_perm shared (posted_io rfl)

theorem moves_counted {e : Event} (h : Counted s) (moves : Moves s e s') : Counted s' := by
  cases moves with
  | creates free alive none => exact creates_counted h _ _
  | takes made => exact takes_counted h made
  | cancels free has => exact cancels_counted h (delegateOf_mem has).1
  | runsUi free queue => exact runsUi_counted h free queue
  | finishes inside => exact finishes_counted h inside
  | runsIo free queue => exact runsIo_counted h queue
  | responds seen found => exact responds_counted h found

theorem initial_counted : Counted {} := by
  refine ⟨?_, fun n d found => by simp at found, nofun⟩
  simpa [holders] using RefCounts.held_none (κ := Nat)

/-- A dialog is taken by its loader, and answered by Java, while somebody holds it. -/
def InTime (s : State) : Event → Prop
  | .takeDelegate => ∀ d, s.creating = some d → d.ptr ∈ holders s
  | .processResponse response => response.nativeObject ∈ holders s
  | _ => True

theorem moves_dangled {e : Event} (h : Counted s) (sound : s.dangled = false)
    (moves : Moves s e s') : s'.dangled = false ↔ InTime s e := by
  cases moves with
  | @takes d made =>
    have alive := RefCounts.held_iff_alive h.held (h.creating d made)
    simp only [InTime, made, Option.some.injEq, forall_eq', alive, takeDelegate]
    split
    · next freed => simp [freed]
    · next kept => simp [kept, sound]
  | @responds d response seen found =>
    have ptr := h.numbered _ d found
    have below := (List.getElem?_eq_some_iff.mp found).1
    have alive := RefCounts.held_iff_alive h.held below
    simp only [InTime, alive, processResponse, ptr]
    split
    · next freed => simp [freed]
    · next kept => simp [kept, sound, bind]
  | @runsUi t ui free queue =>
    cases t with
    | prepDialog d host realm => exact iff_of_true sound trivial
    | platformRequestCancelled d => exact iff_of_true sound trivial
  | @runsIo t io free queue =>
    obtain ⟨cleared, which, same⟩ := runIo_cleared { s with threads := { s.threads with io } } t
    rw [same]
    rcases which with ⟨rfl, _⟩ | ⟨d, _, rfl⟩
    · exact iff_of_true sound trivial
    · exact iff_of_true sound trivial
  | creates free alive none => exact iff_of_true sound trivial
  | cancels free has => exact iff_of_true sound trivial
  | finishes inside => exact iff_of_true sound trivial

/-- In every run each dialog is freed when the last task or loader lets it go, once and never
before. The process outlives them exactly when its loaders take and Java answers only dialogs
that somebody holds. -/
theorem freed_with_last_holder {es : List Event} {t : State}
    (reached : Runs.run step {} es = some t) :
    t.refs.freed.Nodup ∧
    (∀ ptr, ptr ∈ t.refs.freed ↔ ptr < t.dialogs.length ∧ ptr ∉ holders t) ∧
    (t.dangled = false ↔ Runs.Along step (fun s e _ => InTime s e) {} es) := by
  have keep : ∀ s e s', Counted s → step s e = some s' → Counted s' :=
    fun s e s' h taken => moves_counted h (step_moves taken).2
  have exact_ : ∀ s e s', Counted s → step s e = some s' → (s'.dangled = false ↔ InTime s e) := by
    intro s e s' h taken
    obtain ⟨sound, moves⟩ := step_moves taken
    exact moves_dangled h sound moves
  have h := Runs.invariant initial_counted keep reached
  refine ⟨h.held.once, h.held.freed_iff, fun sound => ?_, fun along => ?_⟩
  · refine Runs.along_of_unmarked (I := Counted) (fun s => s.dangled = true) initial_counted
      (fun s e s' h taken _ => keep s e s' h taken) ?_ ?_ reached (by simp [sound])
    · intro s e s' h taken late
      exact eq_true_of_ne_false fun sound => late ((exact_ s e s' h taken).mp sound)
    · intro s e s' dangled taken
      rw [(step_moves taken).1] at dangled
      cases dangled
  · refine (Runs.invariant_along (I := fun s => Counted s ∧ s.dangled = false)
      ⟨initial_counted, rfl⟩ ?_ along reached).2
    intro s e s' h taken inTime
    exact ⟨keep s e s' h.1 taken, (exact_ s e s' h.1 taken).mpr inTime⟩

/-- The UI thread shows the dialog before the loader has taken it. -/
def raced : List Event :=
  [.createLoginDelegate ⟨"a.com:80".toList, "staff".toList⟩ 7, .runUiTask, .uiTaskDone,
    .takeDelegate]

theorem freed_with_last_holder_raced :
    ∃ t, Runs.run step {} raced = some t ∧ t.dangled = true ∧ t.refs.freed.Nodup ∧
      (∀ ptr, ptr ∈ t.refs.freed ↔ ptr < t.dialogs.length ∧ ptr ∉ holders t) ∧
      (t.dangled = false ↔ Runs.Along step (fun s e _ => InTime s e) {} raced) := by
  have runs : (Runs.run step {} raced).map (·.dangled) = some true := by decide +kernel
  obtain ⟨t, reached, dangled⟩ := Option.map_eq_some_iff.mp runs
  exact ⟨t, reached, dangled, freed_with_last_holder reached⟩

/-! What Java and the two threads have to keep to. -/

/-- The UI thread is not done with a dialog before the loader has taken it. Java answers a
dialog once, and not when it has been told that the dialog is cancelled. -/
def Prompt (s : State) : Event → Prop
  | .uiTaskDone => s.creating = none ∨ s.running.map UiTask.dialog ≠ s.creating
  | .processResponse response =>
    response.nativeObject ∉ s.answered ∧ toldCancelled s response.nativeObject = false
  | _ => True

instance (s : State) (e : Event) : Decidable (Prompt s e) := by
  cases e <;> unfold Prompt <;> infer_instance

/-- The tasks of the UI thread, with the one that it is in. -/
def uiTasks (s : State) : List UiTask := s.running.toList ++ s.threads.ui

structure Kept (s : State) : Prop where
  counted : Counted s
  creating : ∀ d, s.creating = some d → d.request ∉ s.threads.destroyed ∧
    (∀ x ∈ s.delegates, x.request ≠ d.request) ∧ ∃ t ∈ uiTasks s, t.dialog = d
  /-- Where Java has neither answered nor been told, the loader or a task has the dialog. -/
  waits : ∀ n d, s.dialogs[n]? = some d → s.creating = some d ∨ d ∈ s.delegates ∨
    .platformRequestCancelled d ∈ uiTasks s ∨ toldCancelled s n = true ∨ n ∈ s.answered
  told : ∀ d, s.running = some (.platformRequestCancelled d) → toldCancelled s d.ptr = true
  cancelled : ∀ d, .platformRequestCancelled d ∈ uiTasks s → d.request ∈ s.threads.destroyed
  answers : ∀ t ∈ s.threads.io, t.dialog.ptr ∈ s.answered ∧
    (s.creating = some t.dialog ∨ t.dialog ∈ s.delegates ∨ t.dialog.request ∈ s.threads.destroyed)
  once : (s.threads.io.map (·.dialog.ptr)).Nodup
  apart : (s.delegates.map (·.request)).Nodup
  live : ∀ d ∈ s.delegates, d.request ∉ s.threads.destroyed

theorem Kept.same_delegate {x : ShellLoginDialog} (h : Kept s) (here : d ∈ s.delegates)
    (there : x ∈ s.delegates) (same : d.request = x.request) : d = x :=
  List.inj_on_of_nodup_map h.apart here there same

theorem holds_task {t : UiTask} (member : t ∈ uiTasks s) : t.dialog.ptr ∈ holders s := by
  unfold holders
  rcases List.mem_append.mp member with inside | queued
  · simp only [List.mem_append]
    exact .inl (.inl (.inr (List.mem_map_of_mem inside)))
  · simp only [List.mem_append]
    exact .inl (.inl (.inl (List.mem_map_of_mem queued)))

/-- A dialog that Java may answer is held. -/
theorem Kept.answerable (h : Kept s) {n : Nat} (found : s.dialogs[n]? = some d)
    (unanswered : n ∉ s.answered) (untold : toldCancelled s n = false) : n ∈ holders s := by
  rw [← h.counted.numbered n d found]
  rcases h.waits n d found with made | has | cancels | told | answered
  · obtain ⟨_, _, t, member, about⟩ := h.creating d made
    rw [← about]
    exact holds_task member
  · exact holds_delegate has
  · exact holds_task cancels
  · rw [untold] at told
    cases told
  · exact absurd answered unanswered

theorem Kept.inTime {e : Event} (h : Kept s) (moves : Moves s e s') (prompt : Prompt s e) :
    InTime s e := by
  cases moves with
  | takes made =>
    intro d made
    obtain ⟨_, _, t, member, about⟩ := h.creating d made
    rw [← about]
    exact holds_task member
  | responds seen found => exact h.answerable found prompt.1 prompt.2
  | creates free alive none => trivial
  | cancels free has => trivial
  | runsUi free queue => trivial
  | finishes inside => trivial
  | runsIo free queue => trivial

theorem creates_kept {authInfo : AuthChallengeInfo} {request : Nat} (h : Kept s)
    (free : s.creating = none) (alive : request ∉ s.threads.destroyed)
    (none : delegateOf s request = none) : Kept (createLoginDelegate s authInfo request) := by
  have tasks : uiTasks (createLoginDelegate s authInfo request) = uiTasks s ++
      [.prepDialog ⟨s.dialogs.length, authInfo, request⟩ authInfo.challenger authInfo.realm] :=
    (List.append_assoc ..).symm
  have others : ∀ x ∈ s.delegates, x.request ≠ request := by
    intro x member same
    exact List.find?_eq_none.mp none x member (beq_iff_eq.mpr same)
  constructor
  · exact creates_counted h.counted authInfo request
  · intro d made
    cases made
    rw [tasks]
    exact ⟨alive, others, _, List.mem_append_right _ (List.mem_singleton.mpr rfl), rfl⟩
  · intro n d found
    rw [tasks]
    rcases found_concat found with old | ⟨_, rfl⟩
    · rcases h.waits n d old with made | has | cancels | rest
      · rw [free] at made
        cases made
      · exact .inr (.inl has)
      · exact .inr (.inr (.inl (List.mem_append_left _ cancels)))
      · exact .inr (.inr (.inr rest))
    · exact .inl rfl
  · exact h.told
  · intro d member
    rw [tasks] at member
    rcases List.mem_append.mp member with old | new
    · exact h.cancelled d old
    · cases List.mem_singleton.mp new
  · intro t member
    obtain ⟨answered, made | rest⟩ := h.answers t member
    · rw [free] at made
      cases made
    · exact ⟨answered, .inr rest⟩
  · exact h.once
  · exact h.apart
  · exact h.live

theorem takes_kept (h : Kept s) (made : s.creating = some d) (kept : d.ptr ∉ s.refs.freed) :
    Kept (takeDelegate s d) := by
  have counted := takes_counted h.counted made
  unfold takeDelegate at counted ⊢
  rw [if_neg kept] at counted ⊢
  obtain ⟨alive, others, _⟩ := h.creating d made
  constructor
  · exact counted
  · exact nofun
  · intro n x found
    rcases h.waits n x found with same | has | rest
    · cases made.symm.trans same
      exact .inr (.inl List.mem_cons_self)
    · exact .inr (.inl (List.mem_cons_of_mem d has))
    · exact .inr (.inr rest)
  · exact h.told
  · exact h.cancelled
  · intro t member
    obtain ⟨answered, same | has | gone⟩ := h.answers t member
    · cases made.symm.trans same
      exact ⟨answered, .inr (.inl List.mem_cons_self)⟩
    · exact ⟨answered, .inr (.inl (List.mem_cons_of_mem d has))⟩
    · exact ⟨answered, .inr (.inr gone)⟩
  · exact h.once
  · refine List.nodup_cons.mpr ⟨fun member => ?_, h.apart⟩
    obtain ⟨x, here, same⟩ := List.mem_map.mp member
    exact others x here same
  · intro x member
    rcases List.mem_cons.mp member with rfl | old
    · exact alive
    · exact h.live x old

theorem cancels_kept (h : Kept s) (free : s.creating = none) (member : d ∈ s.delegates) :
    Kept (onRequestCancelled s d) := by
  have tasks : uiTasks (onRequestCancelled s d) = uiTasks s ++ [.platformRequestCancelled d] :=
    (List.append_assoc ..).symm
  have left {x : ShellLoginDialog} (has : x ∈ s.delegates) :
      x = d ∨ x ∈ (onRequestCancelled s d).delegates := by
    by_cases same : x = d
    · exact .inl same
    · exact .inr ((List.mem_erase_of_ne same).mpr has)
  constructor
  · exact cancels_counted h.counted member
  · intro x made
    rw [show s.creating = some x from made] at free
    cases free
  · intro n x found
    rw [tasks]
    rcases h.waits n x found with made | has | cancels | rest
    · exact .inl made
    · rcases left has with rfl | stays
      · exact .inr (.inr (.inl (List.mem_append_right _ (List.mem_singleton.mpr rfl))))
      · exact .inr (.inl stays)
    · exact .inr (.inr (.inl (List.mem_append_left _ cancels)))
    · exact .inr (.inr (.inr rest))
  · exact h.told
  · intro x cancels
    rw [tasks] at cancels
    rcases List.mem_append.mp cancels with old | new
    · exact List.mem_cons_of_mem _ (h.cancelled x old)
    · cases List.mem_singleton.mp new
      exact List.mem_cons_self
  · intro t queued
    obtain ⟨answered, made | has | gone⟩ := h.answers t queued
    · exact ⟨answered, .inl made⟩
    · rcases left has with same | stays
      · refine ⟨answered, .inr (.inr ?_)⟩
        rw [same]
        exact List.mem_cons_self
      · exact ⟨answered, .inr (.inl stays)⟩
    · exact ⟨answered, .inr (.inr (List.mem_cons_of_mem _ gone))⟩
  · exact h.once
  · exact h.apart.sublist (List.erase_sublist.map _)
  · intro x stays
    obtain ⟨other, has⟩ := (List.Nodup.mem_erase_iff (h.apart.of_map _)).mp stays
    intro gone
    rcases List.mem_cons.mp gone with same | before
    · exact other (h.same_delegate has member same)
    · exact h.live x has before

theorem toldCancelled_more {threads : LoginThreads} {m : HttpAuth} {n : Nat}
    (more : threads.toJava = s.threads.toJava ++ [m]) (told : toldCancelled s n = true) :
    toldCancelled { s with threads } n = true := by
  simp only [toldCancelled, more, List.any_append, Bool.or_eq_true]
  exact .inl told

/-- The UI thread takes up its next task, which tells Java something. -/
theorem tells_kept {t : UiTask} {ui : List UiTask} {m : HttpAuth} (h : Kept s)
    (free : s.running = none) (queue : s.threads.ui = t :: ui)
    (told : ∀ d, t = .platformRequestCancelled d → m.nativeObject = d.ptr ∧ m.isCancel = true)
    (counted : Counted { s with
      threads := { s.threads with ui, toJava := s.threads.toJava ++ [m] }, running := some t }) :
    Kept { s with
      threads := { s.threads with ui, toJava := s.threads.toJava ++ [m] }, running := some t } := by
  have tasks : uiTasks s = t :: ui := by simp [uiTasks, free, queue]
  constructor
  · exact counted
  · intro d made
    obtain ⟨alive, others, x, member, about⟩ := h.creating d made
    rw [tasks] at member
    exact ⟨alive, others, x, member, about⟩
  · intro n d found
    rcases h.waits n d found with made | has | cancels | before | answered
    · exact .inl made
    · exact .inr (.inl has)
    · rw [tasks] at cancels
      exact .inr (.inr (.inl cancels))
    · exact .inr (.inr (.inr (.inl (toldCancelled_more rfl before))))
    · exact .inr (.inr (.inr (.inr answered)))
  · intro d inside
    obtain ⟨about, cancels⟩ := told d (Option.some.inj inside)
    simp [toldCancelled, about, cancels]
  · intro d cancels
    apply h.cancelled d
    rw [tasks]
    exact cancels
  · exact h.answers
  · exact h.once
  · exact h.apart
  · exact h.live

theorem runsUi_kept {t : UiTask} {ui : List UiTask} (h : Kept s) (free : s.running = none)
    (queue : s.threads.ui = t :: ui) :
    Kept (runUi { s with threads := { s.threads with ui } } t) := by
  have counted := runsUi_counted h.counted free queue
  cases t with
  | prepDialog d host realm => exact tells_kept (s := s) h free queue (fun d => nofun) counted
  | platformRequestCancelled d =>
    refine tells_kept (s := s) h free queue (fun x same => ?_) counted
    cases same
    exact ⟨rfl, rfl⟩

theorem finishes_kept {t : UiTask} (h : Kept s) (inside : s.running = some t)
    (prompt : Prompt s .uiTaskDone) :
    Kept { s with running := none, refs := RefCounts.release s.refs t.dialog.ptr } := by
  have tasks : uiTasks s = t :: s.threads.ui := by simp [uiTasks, inside]
  constructor
  · exact finishes_counted h.counted inside
  · intro d made
    obtain ⟨alive, others, x, member, about⟩ := h.creating d made
    rw [tasks] at member
    rcases List.mem_cons.mp member with rfl | queued
    · rcases prompt with free | other
      · rw [made] at free
        cases free
      · rw [inside, made, Option.map_some, about] at other
        exact absurd rfl other
    · exact ⟨alive, others, x, queued, about⟩
  · intro n d found
    rcases h.waits n d found with made | has | cancels | rest
    · exact .inl made
    · exact .inr (.inl has)
    · rw [tasks] at cancels
      rcases List.mem_cons.mp cancels with rfl | queued
      · refine .inr (.inr (.inr (.inl ?_)))
        rw [← h.counted.numbered n d found]
        exact h.told d inside
      · exact .inr (.inr (.inl queued))
    · exact .inr (.inr (.inr rest))
  · exact nofun
  · intro d cancels
    apply h.cancelled d
    rw [tasks]
    exact List.mem_cons_of_mem t cancels
  · exact h.answers
  · exact h.once
  · exact h.apart
  · exact h.live

/-- Only the dialog of the answer is cleared, if its request is still there. -/
theorem Kept.cleared (h : Kept s) (free : s.creating = none) {t : IoTask}
    (member : t ∈ s.threads.io) (has : delegateOf s t.dialog.request = some d) : d = t.dialog := by
  obtain ⟨there, same⟩ := delegateOf_mem has
  obtain ⟨_, made | own | gone⟩ := h.answers t member
  · rw [free] at made
    cases made
  · exact h.same_delegate there own same
  · rw [← same] at gone
    exact absurd gone (h.live d there)

/-- The IO thread has sent an answer, and no delegate is gone but the dialog's. -/
theorem sends_kept {t : IoTask} {io : List IoTask} {threads : LoginThreads}
    {refs : RefCounts.Counts Nat} {delegates : List ShellLoginDialog} (h : Kept s)
    (free : s.creating = none) (queue : s.threads.io = t :: io)
    (ui : threads.ui = s.threads.ui) (rest : threads.io = io)
    (toJava : threads.toJava = s.threads.toJava)
    (destroyed : threads.destroyed = s.threads.destroyed)
    (fewer : delegates.Sublist s.delegates)
    (others : ∀ x ∈ s.delegates, x ≠ t.dialog → x ∈ delegates)
    (counted : Counted { s with threads, refs, delegates }) :
    Kept { s with threads, refs, delegates } := by
  have answered := (h.answers t (by simp [queue])).1
  have tasks : uiTasks { s with threads, refs, delegates } = uiTasks s := by simp [uiTasks, ui]
  have told (n : Nat) :
      toldCancelled { s with threads, refs, delegates } n = toldCancelled s n := by
    simp [toldCancelled, toJava]
  have once := h.once
  rw [queue, List.map_cons, List.nodup_cons] at once
  constructor
  · exact counted
  · intro d made
    rw [show s.creating = some d from made] at free
    cases free
  · intro n d found
    rw [tasks, told]
    rcases h.waits n d found with made | has | later
    · exact .inl made
    · by_cases own : d = t.dialog
      · rw [← h.counted.numbered n d found, own]
        exact .inr (.inr (.inr (.inr answered)))
      · exact .inr (.inl (others d has own))
    · exact .inr (.inr later)
  · intro d inside
    rw [told]
    exact h.told d inside
  · intro d cancels
    rw [tasks] at cancels
    rw [destroyed]
    exact h.cancelled d cancels
  · intro x member
    rw [rest] at member
    rw [destroyed]
    have different : x.dialog ≠ t.dialog := by
      intro same
      exact once.1 (same ▸ List.mem_map_of_mem member)
    obtain ⟨done, made | has | gone⟩ := h.answers x (by simp [queue, member])
    · exact ⟨done, .inl made⟩
    · exact ⟨done, .inr (.inl (others _ has different))⟩
    · exact ⟨done, .inr (.inr gone)⟩
  · rw [rest]
    exact once.2
  · exact h.apart.sublist (fewer.map _)
  · intro d member
    rw [destroyed]
    exact h.live d (fewer.subset member)

theorem runsIo_kept {t : IoTask} {io : List IoTask} (h : Kept s) (free : s.creating = none)
    (queue : s.threads.io = t :: io) :
    Kept (runIo { s with threads := { s.threads with io } } t) := by
  have counted := runsIo_counted h.counted queue
  obtain ⟨ui, rest, toJava, destroyed⟩ :=
    sent_queues { s.threads with io } t.dialog t.success t.username t.password
  obtain ⟨cleared, which, same⟩ := runIo_cleared { s with threads := { s.threads with io } } t
  rw [same] at counted ⊢
  rcases which with ⟨rfl, _⟩ | ⟨d, has, rfl⟩
  · exact sends_kept (s := s) h free queue ui rest toJava destroyed (.refl _)
      (fun x there _ => there) counted
  · have own : d = t.dialog := h.cleared free (by simp [queue]) has
    refine sends_kept (s := s) h free queue ui rest toJava destroyed List.erase_sublist ?_ counted
    intro x there other
    rw [own]
    exact (List.mem_erase_of_ne other).mpr there

/-- Java answers a dialog, and the answer is on its way to the IO thread. -/
theorem replies_kept {t : IoTask} (h : Kept s) {n : Nat} (found : s.dialogs[n]? = some t.dialog)
    (unanswered : n ∉ s.answered) (untold : toldCancelled s n = false)
    (counted : Counted { bind s t.dialog { s.threads with io := s.threads.io ++ [t] } with
      answered := t.dialog.ptr :: s.answered }) :
    Kept { bind s t.dialog { s.threads with io := s.threads.io ++ [t] } with
      answered := t.dialog.ptr :: s.answered } := by
  have ptr := h.counted.numbered n _ found
  constructor
  · exact counted
  · exact h.creating
  · intro m d there
    rcases h.waits m d there with made | has | cancels | told | answered
    · exact .inl made
    · exact .inr (.inl has)
    · exact .inr (.inr (.inl cancels))
    · exact .inr (.inr (.inr (.inl told)))
    · exact .inr (.inr (.inr (.inr (List.mem_cons_of_mem _ answered))))
  · exact h.told
  · exact h.cancelled
  · intro x member
    rcases List.mem_append.mp member with old | new
    · obtain ⟨answered, rest⟩ := h.answers x old
      exact ⟨List.mem_cons_of_mem _ answered, rest⟩
    · cases List.mem_singleton.mp new
      refine ⟨List.mem_cons_self, ?_⟩
      rcases h.waits n _ found with made | has | cancels | told | answered
      · exact .inl made
      · exact .inr (.inl has)
      · exact .inr (.inr (h.cancelled _ cancels))
      · rw [untold] at told
        cases told
      · exact absurd answered unanswered
  · change ((s.threads.io ++ [t]).map (·.dialog.ptr)).Nodup
    rw [List.map_append, List.map_singleton, ← List.concat_eq_append]
    apply h.once.concat
    intro member
    obtain ⟨x, queued, same⟩ := List.mem_map.mp member
    have answered := (h.answers x queued).1
    rw [same, ptr] at answered
    exact unanswered answered
  · exact h.apart
  · exact h.live

theorem responds_kept {response : HttpAuthResponse} (h : Kept s)
    (found : s.dialogs[response.nativeObject]? = some d)
    (prompt : Prompt s (.processResponse response)) : Kept (processResponse s d response) := by
  obtain ⟨unanswered, untold⟩ := prompt
  have held := h.answerable found unanswered untold
  rw [← h.counted.numbered _ d found] at held
  have counted := responds_counted h.counted found
  unfold processResponse at counted ⊢
  rw [if_neg (RefCounts.alive_of_held h.counted.held held)] at counted ⊢
  unfold ShellLoginDialog.processResponse at counted ⊢
  split at counted
  · next cancels =>
    rw [if_pos cancels]
    exact replies_kept (t := { dialog := d, success := false }) h found unanswered untold counted
  · next accepts =>
    rw [if_neg accepts]
    exact replies_kept (t := ⟨d, true, response.username, response.password⟩) h found unanswered
      untold counted

theorem moves_kept {e : Event} (h : Kept s) (moves : Moves s e s') (prompt : Prompt s e) :
    Kept s' := by
  have inTime := h.inTime moves prompt
  cases moves with
  | creates free alive none => exact creates_kept h free alive none
  | takes made =>
    exact takes_kept h made (RefCounts.alive_of_held h.counted.held (inTime _ made))
  | cancels free has => exact cancels_kept h free (delegateOf_mem has).1
  | runsUi free queue => exact runsUi_kept h free queue
  | finishes inside => exact finishes_kept h inside prompt
  | runsIo free queue => exact runsIo_kept h free queue
  | responds seen found => exact responds_kept h found prompt

theorem initial_kept : Kept {} := by
  refine ⟨initial_counted, nofun, fun n d found => by simp at found, nofun, fun d none => ?_,
    fun t none => (List.not_mem_nil none).elim, List.nodup_nil, List.nodup_nil,
    fun d none => (List.not_mem_nil none).elim⟩
  simp [uiTasks] at none

/-- Where the loaders take their dialogs before the UI thread is done with them, and Java answers
each dialog once and none that it was told is cancelled, no dialog is used that has been freed;
and each that Java may still answer is there. -/
theorem answerable_dialogs_live {es : List Event} {t : State}
    (prompt : Runs.Along step (fun s e _ => Prompt s e) {} es)
    (reached : Runs.run step {} es = some t) :
    t.dangled = false ∧ ∀ n, n < t.dialogs.length → n ∉ t.answered → toldCancelled t n = false →
      n ∉ t.refs.freed := by
  have keep : ∀ s e s', Kept s ∧ s.dangled = false → step s e = some s' → Prompt s e →
      Kept s' ∧ s'.dangled = false := by
    intro s e s' h taken prompt
    obtain ⟨sound, moves⟩ := step_moves taken
    exact ⟨moves_kept h.1 moves prompt,
      (moves_dangled h.1.counted sound moves).mpr (h.1.inTime moves prompt)⟩
  obtain ⟨h, sound⟩ := Runs.invariant_along ⟨initial_kept, rfl⟩ keep prompt reached
  refine ⟨sound, fun n below unanswered untold => ?_⟩
  apply RefCounts.alive_of_held h.counted.held
  exact h.answerable (List.getElem?_eq_getElem below) unanswered untold

/-- The first password is wrong, and the user is asked again. -/
def askedTwice : List Event :=
  [.createLoginDelegate ⟨"a.com:80".toList, "staff".toList⟩ 7, .takeDelegate, .runUiTask,
    .processResponse { nativeObject := 0, username := "u".toList, password := "p".toList },
    .uiTaskDone, .runIoTask,
    .createLoginDelegate ⟨"a.com:80".toList, "staff".toList⟩ 7, .takeDelegate, .runUiTask,
    .uiTaskDone]

theorem answerable_dialogs_live_twice :
    ∃ t, Runs.run step {} askedTwice = some t ∧ t.refs.freed = [0] ∧ t.dangled = false ∧
      ∀ n, n < t.dialogs.length → n ∉ t.answered → toldCancelled t n = false →
        n ∉ t.refs.freed := by
  have prompt : Runs.Along step (fun s e _ => Prompt s e) {} askedTwice := by decide +kernel
  have runs : (Runs.run step {} askedTwice).map (·.refs.freed) = some [0] := by decide +kernel
  obtain ⟨t, reached, freed⟩ := Option.map_eq_some_iff.mp runs
  exact ⟨t, reached, freed, answerable_dialogs_live prompt reached⟩

end LoginLifetimes

end Seaturtle
