import Seaturtle.Dialog.JavaScript
import Seaturtle.Lib.Runs

/-! The answers to the JavaScript dialogs of one shell. -/
namespace Seaturtle.DialogRuns
open ShellJavaScriptDialogManager

structure RegisteredShell where
  browser : Browser
  shell : Shell
  found : browser.forWebContents shell.wc.ptr = some shell

/-- Dialogs are numbered in the order they are opened. -/
structure State where
  jdm : DialogManagers := .empty
  opened : Nat := 0
  /-- The dialogs that Java was shown and did not answer yet. -/
  shown : List (Nat × JavascriptDialog) := []
  cancelled : List Nat := []
  ran : List CallbackRun := []
  aborted : Bool := false

inductive Event where
  | runJavaScriptDialog (originUrl : Gurl) (acceptLang : Str) (type : JavaScriptMessageType)
      (messageText defaultPromptText : Str)
  | runBeforeUnloadDialog (messageText : Str) (isReload : Bool)
  | cancelActiveAndPendingDialogs
  | webContentsDestroyed
  /-- Java's answer to the dialog with this number. -/
  | answer (dialog : Nat) (success : Bool) (text : Str)

def manager (r : RegisteredShell) (s : State) : ShellJavaScriptDialogManager :=
  (s.jdm r.shell.ptr).getD {}

def present (r : RegisteredShell) (s : State)
    (dialog : JavascriptDialog × ShellJavaScriptDialogManager) : State :=
  { s with
    jdm := s.jdm.set r.shell.ptr dialog.2
    opened := s.opened + 1
    shown := s.shown ++ [(s.opened, dialog.1)] }

def cancel (r : RegisteredShell) (s : State) (dm : ShellJavaScriptDialogManager) : State :=
  { s with
    jdm := s.jdm.set r.shell.ptr dm
    cancelled := s.cancelled ++ s.shown.map (·.1) }

def close (r : RegisteredShell) (s : State) (d : Nat × JavascriptDialog) (success : Bool)
    (text : Str) : State :=
  let s := { s with shown := s.shown.filter (·.1 != d.1) }
  match dialogClosed r.browser s.jdm ⟨d.2.nativeWebContents, success, text⟩ with
  | .error _ => { s with aborted := true }
  | .ok (run, jdm) => { s with jdm, ran := s.ran ++ [run] }

def step (r : RegisteredShell) (s : State) (e : Event) : Option State :=
  if s.aborted then none
  else match e with
    | .runJavaScriptDialog originUrl acceptLang type messageText defaultPromptText =>
      some (present r s ((manager r s).runJavaScriptDialog r.shell.wc.ptr originUrl acceptLang type
        messageText defaultPromptText s.opened).2)
    | .runBeforeUnloadDialog messageText isReload =>
      some (present r s ((manager r s).runBeforeUnloadDialog r.shell.wc.ptr messageText isReload
        s.opened))
    | .cancelActiveAndPendingDialogs =>
      some (cancel r s (manager r s).cancelActiveAndPendingDialogs)
    | .webContentsDestroyed => some (cancel r s (manager r s).webContentsDestroyed)
    | .answer dialog success text =>
      (s.shown.find? (·.1 == dialog)).map fun d => close r s d success text

/-- The answer runs the callback of its own dialog, or none if that was cancelled. -/
def HandledRight (s : State) (e : Event) (s' : State) : Prop :=
  match e with
  | .answer dialog success text => s'.aborted = false ∧
      s'.ran = s.ran ++ if dialog ∈ s.cancelled then [] else [⟨dialog, success, text⟩]
  | _ => True

/-- The dialog is the last that was opened, and was not cancelled. -/
def AnswersLast (s : State) : Event → Prop
  | .answer dialog _ _ => dialog + 1 = s.opened ∧ dialog ∉ s.cancelled
  | _ => True

instance (s : State) (e : Event) (s' : State) : Decidable (HandledRight s e s') := by
  cases e <;> unfold HandledRight <;> infer_instance

/-- The slot holds the last dialog until it is cancelled or answered. -/
structure Slot (r : RegisteredShell) (s : State) : Prop where
  alive : s.aborted = false
  own : ∀ d ∈ s.shown, d.2.nativeWebContents = r.shell.wc.ptr
  past : ∀ d ∈ s.shown, d.1 < s.opened
  dropped : ∀ d ∈ s.cancelled, d < s.opened
  slot : ∀ c, (manager r s).lastCallback = some c ↔
    c + 1 = s.opened ∧ c ∉ s.cancelled ∧ c ∈ s.shown.map (·.1)

variable {r : RegisteredShell} {s s' : State}

theorem present_slot {dialog : JavascriptDialog × ShellJavaScriptDialogManager} (h : Slot r s)
    (own : dialog.1.nativeWebContents = r.shell.wc.ptr)
    (slot : dialog.2.lastCallback = some s.opened) : Slot r (present r s dialog) := by
  have new : s.opened ∉ s.cancelled := fun member => Nat.lt_irrefl _ (h.dropped _ member)
  constructor
  · exact h.alive
  · intro d member
    rcases List.mem_append.mp member with old | here
    · exact h.own d old
    · cases List.mem_singleton.mp here
      exact own
  · intro d member
    rcases List.mem_append.mp member with old | here
    · exact Nat.lt_succ_of_lt (h.past d old)
    · cases List.mem_singleton.mp here
      exact Nat.lt_succ_self _
  · intro d member
    exact Nat.lt_succ_of_lt (h.dropped d member)
  · intro c
    simp only [manager, present, manager_set, slot]
    constructor
    · intro here
      cases here
      exact ⟨rfl, new, by simp⟩
    · intro last
      exact congrArg some (Nat.succ.inj last.1).symm

theorem cancel_slot {dm : ShellJavaScriptDialogManager} (h : Slot r s)
    (none : dm.lastCallback = none) : Slot r (cancel r s dm) := by
  constructor
  · exact h.alive
  · exact h.own
  · exact h.past
  · intro d member
    rcases List.mem_append.mp member with old | here
    · exact h.dropped d old
    · obtain ⟨x, hx, rfl⟩ := List.mem_map.mp here
      exact h.past x hx
  · intro c
    simp only [manager, cancel, manager_set, none]
    constructor
    · intro impossible
      cases impossible
    · rintro ⟨_, kept, open_⟩
      exact absurd (List.mem_append_right _ open_) kept

theorem callbackToRun_registered (r : RegisteredShell) (jdm : DialogManagers) (success : Bool)
    (text : Str) :
    callbackToRun r.browser jdm ⟨r.shell.wc.ptr, success, text⟩ =
      match ((jdm r.shell.ptr).getD {}).lastCallback with
      | none => .error .nullCallback
      | some c => .ok (r.shell, c) := by
  cases slot : ((jdm r.shell.ptr).getD {}).lastCallback with
  | none => simp [callbackToRun, r.found, slot]
  | some c => simp [callbackToRun, r.found, slot]

/-- What the code does with an answer is decided by the slot alone. -/
theorem dialogClosed_registered (r : RegisteredShell) (jdm : DialogManagers) (success : Bool)
    (text : Str) :
    dialogClosed r.browser jdm ⟨r.shell.wc.ptr, success, text⟩ =
      match ((jdm r.shell.ptr).getD {}).lastCallback with
      | none => .error .nullCallback
      | some c => .ok (⟨c, success, text⟩, resetLastCallback jdm r.shell) := by
  unfold dialogClosed
  rw [callbackToRun_registered]
  cases ((jdm r.shell.ptr).getD {}).lastCallback <;> rfl

theorem close_null {d : Nat × JavascriptDialog} {success : Bool} {text : Str}
    (own : d.2.nativeWebContents = r.shell.wc.ptr) (null : (manager r s).lastCallback = none) :
    (close r s d success text).aborted = true := by
  unfold manager at null
  simp only [close, own, dialogClosed_registered, null]

theorem close_some {d : Nat × JavascriptDialog} {success : Bool} {text : Str}
    {c : DialogClosedCallback} (own : d.2.nativeWebContents = r.shell.wc.ptr)
    (holds : (manager r s).lastCallback = some c) :
    close r s d success text = { s with
      shown := s.shown.filter (·.1 != d.1)
      jdm := resetLastCallback s.jdm r.shell
      ran := s.ran ++ [⟨c, success, text⟩] } := by
  unfold manager at holds
  simp only [close, own, dialogClosed_registered, holds]

theorem close_slot {d : Nat × JavascriptDialog} {success : Bool} {text : Str} (h : Slot r s)
    (member : d ∈ s.shown) (last : d.1 + 1 = s.opened) (kept : d.1 ∉ s.cancelled) :
    Slot r (close r s d success text) := by
  have holds := (h.slot d.1).mpr ⟨last, kept, List.mem_map_of_mem member⟩
  rw [close_some (h.own d member) holds]
  constructor
  · exact h.alive
  · exact fun x hx => h.own x (List.mem_filter.mp hx).1
  · exact fun x hx => h.past x (List.mem_filter.mp hx).1
  · exact h.dropped
  · intro c
    simp only [manager, resetLastCallback, manager_set]
    constructor
    · intro impossible
      cases impossible
    · rintro ⟨last', _, open_⟩
      obtain ⟨x, hx, rfl⟩ := List.mem_map.mp open_
      have same : x.1 = d.1 := Nat.succ.inj (last'.trans last.symm)
      have other := (List.mem_filter.mp hx).2
      simp [same] at other

theorem answered {dialog : Nat} {success : Bool} {text : Str}
    (hs : step r s (.answer dialog success text) = some s') :
    ∃ d ∈ s.shown, d.1 = dialog ∧ s' = close r s d success text := by
  unfold step at hs
  split at hs
  · cases hs
  · obtain ⟨d, found, rfl⟩ := Option.map_eq_some_iff.mp hs
    exact ⟨d, List.mem_of_find?_eq_some found, by simpa using List.find?_some found, rfl⟩

theorem step_slot {e : Event} (h : Slot r s) (hs : step r s e = some s') (last : AnswersLast s e) :
    Slot r s' := by
  have moved := hs
  unfold step at moved
  rw [h.alive, if_neg Bool.false_ne_true] at moved
  cases e with
  | answer dialog success text =>
    obtain ⟨d, member, rfl, rfl⟩ := answered hs
    exact close_slot h member last.1 last.2
  | runJavaScriptDialog originUrl acceptLang type messageText defaultPromptText =>
    cases moved
    exact present_slot h rfl rfl
  | runBeforeUnloadDialog messageText isReload =>
    cases moved
    exact present_slot h rfl rfl
  | cancelActiveAndPendingDialogs =>
    cases moved
    exact cancel_slot h rfl
  | webContentsDestroyed =>
    cases moved
    exact cancel_slot h rfl

theorem handled_right_iff {e : Event} (h : Slot r s) (hs : step r s e = some s') :
    HandledRight s e s' ↔ AnswersLast s e := by
  cases e with
  | answer dialog success text =>
    obtain ⟨d, member, rfl, rfl⟩ := answered hs
    have own := h.own d member
    have open_ : d.1 ∈ s.shown.map (·.1) := List.mem_map_of_mem member
    constructor
    · rintro ⟨alive, ran⟩
      cases slot : (manager r s).lastCallback with
      | none =>
        rw [close_null own slot] at alive
        cases alive
      | some c =>
        rw [close_some own slot] at ran
        have one := List.append_cancel_left ran
        split at one
        · cases one
        · cases one
          obtain ⟨last, kept, _⟩ := (h.slot d.1).mp slot
          exact ⟨last, kept⟩
    · rintro ⟨last, kept⟩
      have holds := (h.slot d.1).mpr ⟨last, kept, open_⟩
      refine ⟨(close_slot h member last kept).alive, ?_⟩
      rw [close_some own holds, if_neg kept]
  | _ => exact Iff.rfl

/-- In a run every answer is handled right exactly when every answer is for the
dialog opened last, before that is cancelled. -/
theorem answers_reach_own_dialog_iff (r : RegisteredShell) (es : List Event) :
    Runs.Along (step r) HandledRight {} es ↔
      Runs.Along (step r) (fun s e _ => AnswersLast s e) {} es := by
  apply Runs.along_iff (Slot r)
  · constructor
    · rfl
    · exact fun d member => (List.not_mem_nil member).elim
    · exact fun d member => (List.not_mem_nil member).elim
    · exact fun d member => (List.not_mem_nil member).elim
    · exact fun c => ⟨fun h => (by cases h), fun h => (List.not_mem_nil h.2.2).elim⟩
  · exact fun s e s' h hs last => step_slot h hs last
  · exact fun s e s' h hs => handled_right_iff h hs

/-- The page goes away under an alert, and the user then taps OK. -/
def lateAnswer : List Event :=
  [.runJavaScriptDialog (Gurl.parseCanonical "http://a.com/".toList) "en".toList .alert
      "hello".toList [], .cancelActiveAndPendingDialogs, .answer 0 true []]

/-- A second dialog takes the slot, and the first is answered. -/
def crossedAnswer : List Event :=
  [.runBeforeUnloadDialog "leave?".toList false, .runBeforeUnloadDialog "really?".toList false,
    .answer 0 true []]

def launched : RegisteredShell where
  browser := Browser.launchShell { settings := {} } 0
  shell := { ptr := 1, wc := ⟨0, .global⟩, sbc := none, parentShell := 0 }
  found := rfl

theorem late_answer_aborts :
    (Runs.run (step launched) {} lateAnswer).map (·.aborted) = some true ∧
      (Runs.run (step launched) {} crossedAnswer).map (·.ran) = some [⟨1, true, []⟩] ∧
      ¬ ∀ es, Runs.Along (step launched) HandledRight {} es := by
  have aborts : (Runs.run (step launched) {} lateAnswer).map (·.aborted) = some true := by
    decide +kernel
  have crosses : (Runs.run (step launched) {} crossedAnswer).map (·.ran) =
      some [⟨1, true, []⟩] := by decide +kernel
  refine ⟨aborts, crosses, fun right => ?_⟩
  have along := right lateAnswer
  revert along
  decide +kernel

end Seaturtle.DialogRuns
