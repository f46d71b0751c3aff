import Seaturtle.Dialog.JavaScript
import Seaturtle.Shell.Ownership
import Mathlib.Data.List.Nodup

/-! The JavaScript dialogs of all shells, while shells are launched, opened as popups and
closed. Callbacks are tokens of the page. A callback that `DialogClosed` runs may do any of
this, and bring more answers, before it returns. -/
namespace Seaturtle.TabDialogs
open ShellJavaScriptDialogManager

inductive Fatal where
  | dialog (fatal : DialogFatal)
  /-- `dm` is used after its shell has gone. -/
  | managerGone
  deriving DecidableEq

structure State where
  browser : Browser
  jdm : DialogManagers := .empty
  toJava : List JavascriptDialog := []
  /-- The shells whose `DialogClosed` has called a callback that did not return, the last first. -/
  running : List Shell := []
  ran : List (JavascriptDialogClosed × DialogClosedCallback) := []
  fatal : Option Fatal := none

inductive Event where
  | shells (e : ShellRuns.Event)
  | runJavaScriptDialog (shell : Nat) (originUrl : Gurl) (acceptLang : Str)
      (type : JavaScriptMessageType) (messageText defaultPromptText : Str)
      (callback : DialogClosedCallback)
  | runBeforeUnloadDialog (shell : Nat) (messageText : Str) (isReload : Bool)
      (callback : DialogClosedCallback)
  | cancelActiveAndPendingDialogs (shell : Nat)
  /-- `DialogClosed` up to the call of the callback. -/
  | dialogClosed (p : JavascriptDialogClosed)
  /-- The rest of the innermost `DialogClosed`. -/
  | callbackReturns

def manager (s : State) (sh : Shell) : ShellJavaScriptDialogManager := (s.jdm sh.ptr).getD {}

def present (s : State) (sh : Shell) (dialog : JavascriptDialog × ShellJavaScriptDialogManager) :
    State :=
  { s with jdm := s.jdm.set sh.ptr dialog.2, toJava := s.toJava ++ [dialog.1] }

/-- `~Shell` after `SendCommand`: `wc_` goes first and tells the manager, which goes next. -/
def closeDialogs (jdm : DialogManagers) : ShellRuns.Event → DialogManagers
  | .close shell => jdm.erase shell
  | _ => jdm

def answer (s : State) (p : JavascriptDialogClosed) : State :=
  match callbackToRun s.browser s.jdm p with
  | .error fatal => { s with fatal := some (.dialog fatal) }
  | .ok (sh, callback) => { s with running := sh :: s.running, ran := s.ran ++ [(p, callback)] }

def giveBack (s : State) (sh : Shell) (outer : List Shell) : State :=
  if (s.jdm sh.ptr).isSome then { s with jdm := resetLastCallback s.jdm sh, running := outer }
  else { s with fatal := some .managerGone }

def step (s : State) (e : Event) : Option State :=
  if s.fatal.isSome then none
  else match e with
    | .shells e => (ShellRuns.step s.browser e).map fun browser =>
      { s with browser, jdm := closeDialogs s.jdm e }
    | .runJavaScriptDialog shell originUrl acceptLang type messageText defaultPromptText callback =>
      (s.browser.forPtr shell).map fun sh =>
        present s sh ((manager s sh).runJavaScriptDialog sh.wc.ptr originUrl acceptLang type
          messageText defaultPromptText callback).2
    | .runBeforeUnloadDialog shell messageText isReload callback =>
      (s.browser.forPtr shell).map fun sh =>
        present s sh ((manager s sh).runBeforeUnloadDialog sh.wc.ptr messageText isReload callback)
    | .cancelActiveAndPendingDialogs shell =>
      (s.browser.forPtr shell).map fun sh =>
        { s with jdm := s.jdm.set sh.ptr (manager s sh).cancelActiveAndPendingDialogs }
    | .dialogClosed p => some (answer s p)
    | .callbackReturns =>
      match s.running with
      | [] => none
      | sh :: outer => some (giveBack s sh outer)

def initial (settings : AllSettings) : State := { browser := ShellRuns.initial settings }

/-! What happens to the dialogs of a page. -/

inductive Note where
  | opened (contents : Nat) (callback : DialogClosedCallback)
  | cancelled (contents : Nat)
  | closed (contents : Nat)
  | answered (p : JavascriptDialogClosed)
  | returned (contents : Nat)
  deriving DecidableEq

def Note.contents : Note → Nat
  | .opened contents _ | .cancelled contents | .closed contents | .returned contents => contents
  | .answered p => p.nativeWebContents

def note (s : State) : Event → Option Note
  | .shells (.close shell) => (s.browser.forPtr shell).map fun sh => .closed sh.wc.ptr
  | .shells _ => none
  | .runJavaScriptDialog shell _ _ _ _ _ callback | .runBeforeUnloadDialog shell _ _ callback =>
    (s.browser.forPtr shell).map fun sh => .opened sh.wc.ptr callback
  | .cancelActiveAndPendingDialogs shell =>
    (s.browser.forPtr shell).map fun sh => .cancelled sh.wc.ptr
  | .dialogClosed p => some (.answered p)
  | .callbackReturns => s.running.head?.map fun sh => .returned sh.wc.ptr

def journal (settings : AllSettings) (es : List Event) : List Note :=
  Runs.chronicle step note (initial settings) es

/-- A page by itself: the callback that an answer would run, and those that were run. -/
structure Page where
  waiting : Option DialogClosedCallback := none
  ran : List (JavascriptDialogClosed × DialogClosedCallback) := []

def Page.note (page : Page) : Note → Page
  | .opened _ callback => { page with waiting := some callback }
  | .answered p => { page with ran := page.ran ++ page.waiting.toList.map (p, ·) }
  | .cancelled _ | .closed _ | .returned _ => { page with waiting := none }

def pageOf (contents : Nat) (notes : List Note) : Page :=
  (notes.filter (·.contents == contents)).foldl Page.note {}

/-- An answer comes while a callback waits at its page, and a callback returns to a page that
was not closed. -/
def Served (past : List Note) : Note → Prop
  | .answered p => (pageOf p.nativeWebContents past).waiting.isSome
  | .returned contents => .closed contents ∉ past
  | _ => True

instance (past : List Note) (n : Note) : Decidable (Served past n) := by
  cases n <;> unfold Served <;> infer_instance

theorem pageOf_own {contents : Nat} {notes : List Note} {n : Note} (own : n.contents = contents) :
    pageOf contents (notes ++ [n]) = (pageOf contents notes).note n := by
  simp [pageOf, own]

theorem pageOf_other {contents : Nat} {notes : List Note} {n : Note}
    (other : n.contents ≠ contents) : pageOf contents (notes ++ [n]) = pageOf contents notes := by
  simp [pageOf, other]

theorem waiting_kept {notes : List Note} {n : Note}
    (keeps : ((pageOf n.contents notes).note n).waiting = (pageOf n.contents notes).waiting)
    (contents : Nat) :
    (pageOf contents (notes ++ [n])).waiting = (pageOf contents notes).waiting := by
  by_cases own : n.contents = contents
  · subst own
    rw [pageOf_own rfl, keeps]
  · rw [pageOf_other own]

theorem ran_kept {notes : List Note} {n : Note}
    (keeps : ∀ page : Page, (page.note n).ran = page.ran)
    (contents : Nat) : (pageOf contents (notes ++ [n])).ran = (pageOf contents notes).ran := by
  by_cases own : n.contents = contents
  · rw [pageOf_own own, keeps]
  · rw [pageOf_other own]

theorem answered_idle {page : Page} (p : JavascriptDialogClosed) (idle : page.waiting = none) :
    page.note (.answered p) = page := by
  cases page
  cases idle
  simp [Page.note]

/-- What was run at a page was opened there. -/
theorem pageOf_opened (contents : Nat) (notes : List Note) :
    (∀ c, (pageOf contents notes).waiting = some c → .opened contents c ∈ notes) ∧
      ∀ x ∈ (pageOf contents notes).ran, .opened contents x.2 ∈ notes := by
  induction notes using List.reverseRecOn with
  | nil => exact ⟨nofun, fun x none => (List.not_mem_nil none).elim⟩
  | append_singleton notes n ih =>
    have later {m : Note} (old : m ∈ notes) : m ∈ notes ++ [n] := List.mem_append_left _ old
    by_cases own : n.contents = contents
    · rw [pageOf_own own]
      cases n with
      | opened c callback =>
        cases own
        refine ⟨fun c here => ?_, fun x member => later (ih.2 x member)⟩
        cases here
        exact List.mem_append_right _ (List.mem_singleton.mpr rfl)
      | answered p =>
        refine ⟨fun c here => later (ih.1 c here), fun x member => ?_⟩
        rcases List.mem_append.mp member with old | new
        · exact later (ih.2 x old)
        · obtain ⟨c, waits, rfl⟩ := List.mem_map.mp new
          exact later (ih.1 c (Option.mem_toList.mp waits))
      | cancelled c => exact ⟨nofun, fun x member => later (ih.2 x member)⟩
      | closed c => exact ⟨nofun, fun x member => later (ih.2 x member)⟩
      | returned c => exact ⟨nofun, fun x member => later (ih.2 x member)⟩
    · rw [pageOf_other own]
      exact ⟨fun c here => later (ih.1 c here), fun x member => later (ih.2 x member)⟩

/-! The registry. -/

structure Listed (b : Browser) : Prop where
  below : ∀ sh ∈ b.allShells, sh.wc.ptr < b.nextPtr ∧ sh.ptr < b.nextPtr
  shells : (b.allShells.map (·.ptr)).Nodup
  contents : (b.allShells.map (·.wc.ptr)).Nodup

variable {b b' : Browser} {sh x : Shell}

theorem Listed.same_shell (h : Listed b) (here : sh ∈ b.allShells) (there : x ∈ b.allShells)
    (same : sh.ptr = x.ptr) : sh = x := List.inj_on_of_nodup_map h.shells here there same

theorem Listed.same_contents (h : Listed b) (here : sh ∈ b.allShells) (there : x ∈ b.allShells)
    (same : sh.wc.ptr = x.wc.ptr) : sh = x := List.inj_on_of_nodup_map h.contents here there same

theorem shells_opens {new : Shell} (opens : ShellRuns.Opens b b' new) (ptr : Nat) :
    ptr ∈ b'.allShells.map (·.ptr) ↔ ptr ∈ b.allShells.map (·.ptr) ∨ ptr = new.ptr := by
  simp [opens.shells]

theorem contents_opens {new : Shell} (opens : ShellRuns.Opens b b' new) (contents : Nat) :
    contents ∈ b'.allShells.map (·.wc.ptr) ↔
      contents ∈ b.allShells.map (·.wc.ptr) ∨ contents = new.wc.ptr := by
  simp [opens.shells]

/-- A shell that is opened has addresses that no shell has. -/
theorem opens_apart {new : Shell} (h : Listed b) (opens : ShellRuns.Opens b b' new) :
    new.ptr ∉ b.allShells.map (·.ptr) ∧ new.wc.ptr ∉ b.allShells.map (·.wc.ptr) := by
  have contents := opens.contents
  have ptr := opens.ptr
  constructor
  · intro member
    obtain ⟨sh, here, same⟩ := List.mem_map.mp member
    have below := h.below sh here
    omega
  · intro member
    obtain ⟨sh, here, same⟩ := List.mem_map.mp member
    have below := h.below sh here
    omega

theorem opens_listed {new : Shell} (h : Listed b) (opens : ShellRuns.Opens b b' new) :
    Listed b' := by
  have contents := opens.contents
  have ptr := opens.ptr
  obtain ⟨unlisted, unknown⟩ := opens_apart h opens
  constructor
  · intro sh member
    rw [opens.next]
    rw [opens.shells] at member
    rcases List.mem_append.mp member with old | here
    · have below := h.below sh old
      omega
    · cases List.mem_singleton.mp here
      omega
  · have once := h.shells.concat unlisted
    rw [List.concat_eq_append] at once
    rw [opens.shells, List.map_append]
    exact once
  · have once := h.contents.concat unknown
    rw [List.concat_eq_append] at once
    rw [opens.shells, List.map_append]
    exact once

theorem mem_close (h : Listed b) (member : sh ∈ b.allShells) :
    x ∈ (b.close sh).allShells ↔ x ∈ b.allShells ∧ x ≠ sh := by
  obtain ⟨destroyed, toJava, closed⟩ := ShellRuns.close_eq b sh
  rw [closed]
  constructor
  · intro left
    refine ⟨List.mem_of_mem_eraseP left, ?_⟩
    rintro rfl
    have erased : x.ptr ∈ (b.allShells.map (·.ptr)).erase x.ptr := by
      rw [List.erase_eq_eraseP', List.eraseP_map]
      exact List.mem_map_of_mem left
    exact (h.shells.mem_erase_iff.mp erased).1 rfl
  · rintro ⟨listed, other⟩
    refine (List.mem_eraseP_of_neg fun here => ?_).mpr listed
    exact other (h.same_shell listed member (beq_iff_eq.mp here))

theorem shells_close (h : Listed b) (member : sh ∈ b.allShells) (ptr : Nat) :
    ptr ∈ (b.close sh).allShells.map (·.ptr) ↔ ptr ∈ b.allShells.map (·.ptr) ∧ ptr ≠ sh.ptr := by
  constructor
  · intro left
    obtain ⟨x, here, rfl⟩ := List.mem_map.mp left
    obtain ⟨old, other⟩ := (mem_close h member).mp here
    exact ⟨List.mem_map_of_mem old, fun same => other (h.same_shell old member same)⟩
  · rintro ⟨listed, other⟩
    obtain ⟨x, here, rfl⟩ := List.mem_map.mp listed
    exact List.mem_map_of_mem ((mem_close h member).mpr ⟨here, fun same => other (same ▸ rfl)⟩)

theorem contents_close (h : Listed b) (member : sh ∈ b.allShells) (contents : Nat) :
    contents ∈ (b.close sh).allShells.map (·.wc.ptr) ↔
      contents ∈ b.allShells.map (·.wc.ptr) ∧ contents ≠ sh.wc.ptr := by
  constructor
  · intro left
    obtain ⟨x, here, rfl⟩ := List.mem_map.mp left
    obtain ⟨old, other⟩ := (mem_close h member).mp here
    exact ⟨List.mem_map_of_mem old, fun same => other (h.same_contents old member same)⟩
  · rintro ⟨known, other⟩
    obtain ⟨x, here, rfl⟩ := List.mem_map.mp known
    exact List.mem_map_of_mem ((mem_close h member).mpr ⟨here, fun same => other (same ▸ rfl)⟩)

theorem close_nextPtr (b : Browser) (sh : Shell) : (b.close sh).nextPtr = b.nextPtr := by
  obtain ⟨destroyed, toJava, closed⟩ := ShellRuns.close_eq b sh
  rw [closed]

theorem close_listed (h : Listed b) : Listed (b.close sh) := by
  obtain ⟨destroyed, toJava, closed⟩ := ShellRuns.close_eq b sh
  rw [closed]
  exact ⟨fun x left => h.below x (List.mem_of_mem_eraseP left),
    h.shells.sublist (List.eraseP_sublist.map _), h.contents.sublist (List.eraseP_sublist.map _)⟩

/-! What a step can do. -/

inductive Moves (s : State) : Option Note → State → Prop
  | opens {b : Browser} {new : Shell} (opens : ShellRuns.Opens s.browser b new) :
      Moves s none { s with browser := b }
  | settings (settings : AllSettings) :
      Moves s none { s with browser := s.browser.updateGlobalSettings settings }
  | closes {sh : Shell} (member : sh ∈ s.browser.allShells) : Moves s (some (.closed sh.wc.ptr))
      { s with browser := s.browser.close sh, jdm := s.jdm.erase sh.ptr }
  | presents {sh : Shell} {callback : DialogClosedCallback} {toJava : List JavascriptDialog}
      (member : sh ∈ s.browser.allShells) : Moves s (some (.opened sh.wc.ptr callback))
        { s with jdm := s.jdm.set sh.ptr ⟨some callback⟩, toJava }
  | cancels {sh : Shell} (member : sh ∈ s.browser.allShells) :
      Moves s (some (.cancelled sh.wc.ptr)) { s with jdm := s.jdm.set sh.ptr ⟨none⟩ }
  | answers {sh : Shell} {p : JavascriptDialogClosed} {callback : DialogClosedCallback}
      (found : callbackToRun s.browser s.jdm p = .ok (sh, callback)) : Moves s (some (.answered p))
        { s with running := sh :: s.running, ran := s.ran ++ [(p, callback)] }
  | unanswered {p : JavascriptDialogClosed} {fatal : DialogFatal}
      (missing : callbackToRun s.browser s.jdm p = .error fatal) : Moves s (some (.answered p))
        { s with fatal := some (.dialog fatal) }
  | returns {sh : Shell} {outer : List Shell} (innermost : s.running = sh :: outer)
      (there : (s.jdm sh.ptr).isSome) : Moves s (some (.returned sh.wc.ptr))
        { s with jdm := s.jdm.set sh.ptr ⟨none⟩, running := outer }
  | dangles {sh : Shell} {outer : List Shell} (innermost : s.running = sh :: outer)
      (gone : s.jdm sh.ptr = none) : Moves s (some (.returned sh.wc.ptr))
        { s with fatal := some .managerGone }

variable {s s' : State}

theorem shells_moves {e : ShellRuns.Event} (hs : ShellRuns.step s.browser e = some b) :
    Moves s (note s (.shells e)) { s with browser := b, jdm := closeDialogs s.jdm e } := by
  cases e with
  | launchShell parent =>
    cases hs
    obtain ⟨new, opens⟩ := ShellRuns.launchShell_opens s.browser parent
    exact .opens opens
  | addNewContents opener =>
    obtain ⟨sh, _, rfl⟩ := Option.map_eq_some_iff.mp hs
    obtain ⟨new, opens⟩ := ShellRuns.addNewContents_opens s.browser sh
    exact .opens opens
  | close ptr =>
    obtain ⟨sh, found, rfl⟩ := Option.map_eq_some_iff.mp hs
    have same : sh.ptr = ptr := by simpa using List.find?_some found
    subst same
    simp only [note, found, Option.map_some, closeDialogs]
    exact .closes (ShellRuns.forPtr_mem found)
  | updateGlobalSettings settings =>
    cases hs
    exact .settings settings

theorem answer_moves (s : State) (p : JavascriptDialogClosed) :
    Moves s (some (.answered p)) (answer s p) := by
  unfold answer
  split
  · next missing => exact .unanswered missing
  · next found => exact .answers found

theorem giveBack_moves {outer : List Shell} (innermost : s.running = sh :: outer) :
    Moves s (some (.returned sh.wc.ptr)) (giveBack s sh outer) := by
  unfold giveBack
  split
  · next there => exact .returns innermost there
  · next gone => exact .dangles innermost (Option.not_isSome_iff_eq_none.mp gone)

theorem step_moves {e : Event} (hs : step s e = some s') :
    s.fatal = none ∧ Moves s (note s e) s' := by
  unfold step at hs
  split at hs
  · cases hs
  · next running =>
    refine ⟨Option.not_isSome_iff_eq_none.mp running, ?_⟩
    cases e with
    | shells e =>
      obtain ⟨b, stepped, rfl⟩ := Option.map_eq_some_iff.mp hs
      exact shells_moves stepped
    | runJavaScriptDialog shell originUrl acceptLang type messageText defaultPromptText callback =>
      obtain ⟨sh, found, rfl⟩ := Option.map_eq_some_iff.mp hs
      simp only [note, found, Option.map_some]
      exact .presents (ShellRuns.forPtr_mem found)
    | runBeforeUnloadDialog shell messageText isReload callback =>
      obtain ⟨sh, found, rfl⟩ := Option.map_eq_some_iff.mp hs
      simp only [note, found, Option.map_some]
      exact .presents (ShellRuns.forPtr_mem found)
    | cancelActiveAndPendingDialogs shell =>
      obtain ⟨sh, found, rfl⟩ := Option.map_eq_some_iff.mp hs
      simp only [note, found, Option.map_some]
      exact .cancels (ShellRuns.forPtr_mem found)
    | dialogClosed p =>
      cases hs
      exact answer_moves s p
    | callbackReturns =>
      cases innermost : s.running with
      | nil => simp [innermost] at hs
      | cons sh outer =>
        simp only [innermost, Option.some.injEq] at hs
        subst hs
        simp only [note, innermost, List.head?_cons, Option.map_some]
        exact giveBack_moves innermost

/-! What has been noted tells where callbacks wait. -/

structure Told (notes : List Note) (s : State) : Prop where
  listed : Listed s.browser
  managers : ∀ ptr, ptr ∉ s.browser.allShells.map (·.ptr) → s.jdm ptr = none
  slots : ∀ sh ∈ s.browser.allShells,
    (manager s sh).lastCallback = (pageOf sh.wc.ptr notes).waiting
  nowhere : ∀ contents, contents ∉ s.browser.allShells.map (·.wc.ptr) →
    (pageOf contents notes).waiting = none
  closed : ∀ contents, .closed contents ∈ notes →
    contents < s.browser.nextPtr ∧ contents ∉ s.browser.allShells.map (·.wc.ptr)
  running : ∀ sh ∈ s.running, sh.ptr < s.browser.nextPtr ∧
    (sh ∈ s.browser.allShells ∧ (s.jdm sh.ptr).isSome ∨
      .closed sh.wc.ptr ∈ notes ∧ sh.ptr ∉ s.browser.allShells.map (·.ptr))
  ran : ∀ contents,
    s.ran.filter (·.1.nativeWebContents == contents) = (pageOf contents notes).ran
  alive : s.fatal = none ↔ Runs.Throughout Served notes

section
variable {notes : List Note}

theorem callback_waits (h : Told notes s) {p : JavascriptDialogClosed}
    {callback : DialogClosedCallback}
    (found : callbackToRun s.browser s.jdm p = .ok (sh, callback)) :
    sh ∈ s.browser.allShells ∧ sh.wc.ptr = p.nativeWebContents ∧ (s.jdm sh.ptr).isSome ∧
      (pageOf p.nativeWebContents notes).waiting = some callback := by
  unfold callbackToRun at found
  split at found
  · cases found
  · next shell looked =>
    split at found
    · cases found
    · next c holds =>
      cases found
      have member := List.mem_of_find?_eq_some looked
      have contents : sh.wc.ptr = p.nativeWebContents := by simpa using List.find?_some looked
      refine ⟨member, contents, ?_, ?_⟩
      · cases made : s.jdm sh.ptr with
        | none => simp [made] at holds
        | some dm => rfl
      · rw [← contents, ← h.slots sh member]
        exact holds

theorem nothing_waits (h : Told notes s) {p : JavascriptDialogClosed} {fatal : DialogFatal}
    (missing : callbackToRun s.browser s.jdm p = .error fatal) :
    (pageOf p.nativeWebContents notes).waiting = none := by
  unfold callbackToRun at missing
  split at missing
  · next unknown =>
    apply h.nowhere
    intro member
    obtain ⟨sh, here, same⟩ := List.mem_map.mp member
    exact List.find?_eq_none.mp unknown sh here (beq_iff_eq.mpr same)
  · next shell looked =>
    have contents : shell.wc.ptr = p.nativeWebContents := by simpa using List.find?_some looked
    split at missing
    · next empty =>
      rw [← contents, ← h.slots shell (List.mem_of_find?_eq_some looked)]
      exact empty
    · cases missing

theorem closed_kept {n : Note} {contents : Nat} (open_ : ∀ c, n ≠ .closed c)
    (member : .closed contents ∈ notes ++ [n]) : .closed contents ∈ notes := by
  rcases List.mem_append.mp member with old | new
  · exact old
  · exact absurd (List.mem_singleton.mp new).symm (open_ contents)

/-- A slot is written, and the note says what it holds. -/
theorem write_told {dm : ShellJavaScriptDialogManager} {n : Note} {toJava : List JavascriptDialog}
    {running : List Shell} (h : Told notes s) (member : sh ∈ s.browser.allShells)
    (own : n.contents = sh.wc.ptr)
    (sets : ∀ page : Page, page.note n = { page with waiting := dm.lastCallback })
    (open_ : ∀ c, n ≠ .closed c) (served : Served notes n) (less : ∀ x ∈ running, x ∈ s.running) :
    Told (notes ++ [n]) { s with jdm := s.jdm.set sh.ptr dm, toJava, running } := by
  constructor
  · exact h.listed
  · intro ptr unlisted
    have other : ptr ≠ sh.ptr := by
      rintro rfl
      exact unlisted (List.mem_map_of_mem member)
    change s.jdm.set sh.ptr dm ptr = none
    rw [HashMap.set_apply, if_neg other]
    exact h.managers ptr unlisted
  · intro x here
    simp only [manager, HashMap.set_apply]
    by_cases same : x.ptr = sh.ptr
    · cases h.listed.same_shell here member same
      rw [if_pos rfl, pageOf_own own, sets]
      rfl
    · have apart : n.contents ≠ x.wc.ptr := by
        intro about
        cases h.listed.same_contents here member (about.symm.trans own)
        exact same rfl
      rw [if_neg same, pageOf_other apart]
      exact h.slots x here
  · intro contents unknown
    have apart : n.contents ≠ contents := by
      rintro rfl
      rw [own] at unknown
      exact unknown (List.mem_map_of_mem member)
    rw [pageOf_other apart]
    exact h.nowhere contents unknown
  · exact fun contents gone => h.closed contents (closed_kept open_ gone)
  · intro x inside
    obtain ⟨below, still | gone⟩ := h.running x (less x inside)
    · refine ⟨below, .inl ⟨still.1, ?_⟩⟩
      change (s.jdm.set sh.ptr dm x.ptr).isSome
      rw [HashMap.set_apply]
      split
      · rfl
      · exact still.2
    · exact ⟨below, .inr ⟨List.mem_append_left _ gone.1, gone.2⟩⟩
  · intro contents
    rw [ran_kept fun page => by rw [sets]]
    exact h.ran contents
  · rw [Runs.throughout_concat, ← h.alive]
    exact (and_iff_left served).symm

/-- Nothing but the end of the process, or a call, comes of the note. -/
theorem quiet_told {n : Note} {running : List Shell}
    {ran : List (JavascriptDialogClosed × DialogClosedCallback)} {fatal : Option Fatal}
    (h : Told notes s) (quiet : ∀ contents,
      (pageOf contents (notes ++ [n])).waiting = (pageOf contents notes).waiting)
    (open_ : ∀ c, n ≠ .closed c)
    (called : ∀ x ∈ running, x ∈ s.running ∨ x ∈ s.browser.allShells ∧ (s.jdm x.ptr).isSome)
    (calls : ∀ contents, ran.filter (·.1.nativeWebContents == contents) =
      (pageOf contents (notes ++ [n])).ran)
    (alive : fatal = none ↔ Runs.Throughout Served (notes ++ [n])) :
    Told (notes ++ [n]) { s with running, ran, fatal } := by
  constructor
  · exact h.listed
  · exact h.managers
  · intro x here
    rw [quiet]
    exact h.slots x here
  · intro contents unknown
    rw [quiet]
    exact h.nowhere contents unknown
  · exact fun contents gone => h.closed contents (closed_kept open_ gone)
  · intro x inside
    rcases called x inside with old | ⟨member, made⟩
    · obtain ⟨below, still | gone⟩ := h.running x old
      · exact ⟨below, .inl still⟩
      · exact ⟨below, .inr ⟨List.mem_append_left _ gone.1, gone.2⟩⟩
    · exact ⟨(h.listed.below x member).2, .inl ⟨member, made⟩⟩
  · exact calls
  · exact alive

theorem opens_told {new : Shell} (h : Told notes s) (opens : ShellRuns.Opens s.browser b new) :
    Told notes { s with browser := b } := by
  have address := opens.ptr
  have contents := opens.contents
  have later : s.browser.nextPtr ≤ b.nextPtr := by
    rw [opens.next]
    omega
  obtain ⟨unlisted, unknown⟩ := opens_apart h.listed opens
  constructor
  · exact opens_listed h.listed opens
  · intro ptr none
    exact h.managers ptr fun old => none ((shells_opens opens ptr).mpr (.inl old))
  · intro x member
    change x ∈ b.allShells at member
    rw [opens.shells] at member
    rcases List.mem_append.mp member with old | here
    · exact h.slots x old
    · cases List.mem_singleton.mp here
      rw [h.nowhere new.wc.ptr unknown]
      simp only [manager, h.managers new.ptr unlisted, Option.getD_none]
  · intro c none
    exact h.nowhere c fun old => none ((contents_opens opens c).mpr (.inl old))
  · intro c gone
    obtain ⟨below, away⟩ := h.closed c gone
    refine ⟨Nat.lt_of_lt_of_le below later, fun member => ?_⟩
    rcases (contents_opens opens c).mp member with old | new
    · exact away old
    · omega
  · intro x inside
    obtain ⟨below, still | gone⟩ := h.running x inside
    · refine ⟨Nat.lt_of_lt_of_le below later, .inl ⟨?_, still.2⟩⟩
      change x ∈ b.allShells
      rw [opens.shells]
      exact List.mem_append_left _ still.1
    · refine ⟨Nat.lt_of_lt_of_le below later, .inr ⟨gone.1, fun member => ?_⟩⟩
      rcases (shells_opens opens x.ptr).mp member with old | new
      · exact gone.2 old
      · omega
  · exact h.ran
  · exact h.alive

/-- The contents that were closed are not those of any shell, nor will be. -/
theorem closes_away (h : Told notes s) (member : sh ∈ s.browser.allShells) {contents : Nat}
    (gone : .closed contents ∈ notes ++ [.closed sh.wc.ptr]) :
    contents < (s.browser.close sh).nextPtr ∧
      contents ∉ (s.browser.close sh).allShells.map (·.wc.ptr) := by
  rw [close_nextPtr, contents_close h.listed member]
  rcases List.mem_append.mp gone with old | new
  · obtain ⟨below, away⟩ := h.closed contents old
    exact ⟨below, fun known => away known.1⟩
  · cases List.mem_singleton.mp new
    exact ⟨(h.listed.below sh member).1, fun known => known.2 rfl⟩

/-- A callback of the shell that is closed goes on without its manager. -/
theorem closes_running (h : Told notes s) (member : sh ∈ s.browser.allShells)
    (inside : x ∈ s.running) :
    x.ptr < (s.browser.close sh).nextPtr ∧
      (x ∈ (s.browser.close sh).allShells ∧ (s.jdm.erase sh.ptr x.ptr).isSome ∨
        .closed x.wc.ptr ∈ notes ++ [.closed sh.wc.ptr] ∧
          x.ptr ∉ (s.browser.close sh).allShells.map (·.ptr)) := by
  rw [close_nextPtr, shells_close h.listed member, mem_close h.listed member]
  obtain ⟨below, still | gone⟩ := h.running x inside
  · refine ⟨below, ?_⟩
    by_cases same : x = sh
    · subst same
      exact .inr ⟨List.mem_append_right _ (List.mem_singleton.mpr rfl), fun known => known.2 rfl⟩
    · have apart : x.ptr ≠ sh.ptr := fun ptr => same (h.listed.same_shell still.1 member ptr)
      rw [HashMap.erase_apply, if_neg apart]
      exact .inl ⟨⟨still.1, same⟩, still.2⟩
  · exact ⟨below, .inr ⟨List.mem_append_left _ gone.1, fun known => gone.2 known.1⟩⟩

theorem closes_told (h : Told notes s) (member : sh ∈ s.browser.allShells) :
    Told (notes ++ [.closed sh.wc.ptr])
      { s with browser := s.browser.close sh, jdm := s.jdm.erase sh.ptr } := by
  constructor
  · exact close_listed h.listed
  · intro ptr unlisted
    change s.jdm.erase sh.ptr ptr = none
    rw [HashMap.erase_apply]
    split
    · rfl
    · next other =>
      exact h.managers ptr fun old => unlisted ((shells_close h.listed member ptr).mpr ⟨old, other⟩)
  · intro x here
    obtain ⟨old, other⟩ := (mem_close h.listed member).mp here
    have apart : x.ptr ≠ sh.ptr := fun same => other (h.listed.same_shell old member same)
    have elsewhere : sh.wc.ptr ≠ x.wc.ptr :=
      fun same => other (h.listed.same_contents old member same.symm)
    rw [pageOf_other (n := .closed sh.wc.ptr) elsewhere]
    simp only [manager, HashMap.erase_apply, if_neg apart]
    exact h.slots x old
  · intro c unknown
    by_cases own : sh.wc.ptr = c
    · rw [pageOf_own (n := .closed sh.wc.ptr) own]
      rfl
    · rw [pageOf_other (n := .closed sh.wc.ptr) own]
      refine h.nowhere c fun old => unknown ?_
      exact (contents_close h.listed member c).mpr ⟨old, Ne.symm own⟩
  · exact fun c gone => closes_away h member gone
  · exact fun x inside => closes_running h member inside
  · intro c
    rw [ran_kept fun page => rfl]
    exact h.ran c
  · rw [Runs.throughout_concat, ← h.alive]
    exact (and_iff_left trivial).symm

theorem answers_told {p : JavascriptDialogClosed} {callback : DialogClosedCallback}
    (h : Told notes s) (running : s.fatal = none)
    (found : callbackToRun s.browser s.jdm p = .ok (sh, callback)) :
    Told (notes ++ [.answered p])
      { s with running := sh :: s.running, ran := s.ran ++ [(p, callback)] } := by
  obtain ⟨member, contents, made, waits⟩ := callback_waits h found
  apply quiet_told h
  · exact waiting_kept rfl
  · exact fun c => nofun
  · intro x inside
    rcases List.mem_cons.mp inside with rfl | outer
    · exact .inr ⟨member, made⟩
    · exact .inl outer
  · intro c
    rw [List.filter_append, h.ran]
    by_cases own : p.nativeWebContents = c
    · rw [own] at waits
      rw [pageOf_own (n := .answered p) own]
      simp [Page.note, own, waits]
    · rw [pageOf_other (n := .answered p) own]
      simp [own]
  · rw [Runs.throughout_concat, ← h.alive]
    refine iff_of_true running ⟨running, ?_⟩
    simp [Served, waits]

theorem unanswered_told {p : JavascriptDialogClosed} {fatal : DialogFatal} (h : Told notes s)
    (missing : callbackToRun s.browser s.jdm p = .error fatal) :
    Told (notes ++ [.answered p]) { s with fatal := some (.dialog fatal) } := by
  have none := nothing_waits h missing
  have same (c : Nat) : pageOf c (notes ++ [.answered p]) = pageOf c notes := by
    by_cases own : p.nativeWebContents = c
    · rw [own] at none
      rw [pageOf_own (n := .answered p) own, answered_idle p none]
    · exact pageOf_other (n := .answered p) own
  apply quiet_told h
  · intro c
    rw [same]
  · exact fun c => nofun
  · exact fun x inside => .inl inside
  · intro c
    rw [same, h.ran]
  · rw [Runs.throughout_concat]
    refine iff_of_false nofun fun both => ?_
    have waits := both.2
    simp [Served, none] at waits

theorem returns_told {outer : List Shell} (h : Told notes s) (innermost : s.running = sh :: outer)
    (there : (s.jdm sh.ptr).isSome) : Told (notes ++ [.returned sh.wc.ptr])
      { s with jdm := s.jdm.set sh.ptr ⟨none⟩, running := outer } := by
  have inside : sh ∈ s.running := by simp [innermost]
  obtain ⟨_, ⟨member, _⟩ | ⟨_, unlisted⟩⟩ := h.running sh inside
  · have served : Served notes (.returned sh.wc.ptr) :=
      fun gone => (h.closed _ gone).2 (List.mem_map_of_mem member)
    have less : ∀ x ∈ outer, x ∈ s.running := by
      intro x outside
      rw [innermost]
      exact List.mem_cons_of_mem sh outside
    exact write_told h member rfl (fun page => rfl) (fun c => nofun) served less
  · rw [h.managers sh.ptr unlisted] at there
    cases there

theorem dangles_told {outer : List Shell} (h : Told notes s) (innermost : s.running = sh :: outer)
    (gone : s.jdm sh.ptr = none) :
    Told (notes ++ [.returned sh.wc.ptr]) { s with fatal := some .managerGone } := by
  have inside : sh ∈ s.running := by simp [innermost]
  obtain ⟨_, ⟨_, made⟩ | ⟨closed, _⟩⟩ := h.running sh inside
  · rw [gone] at made
    cases made
  · have nothing := h.nowhere sh.wc.ptr (h.closed _ closed).2
    apply quiet_told h
    · exact waiting_kept nothing.symm
    · exact fun c => nofun
    · exact fun x inside => .inl inside
    · intro c
      rw [ran_kept fun page => rfl]
      exact h.ran c
    · rw [Runs.throughout_concat]
      exact iff_of_false nofun fun both => both.2 closed

theorem moves_told {n : Option Note} (h : Told notes s) (running : s.fatal = none)
    (moves : Moves s n s') : Told (notes ++ n.toList) s' := by
  cases moves with
  | opens opens =>
    rw [Option.toList_none, List.append_nil]
    exact opens_told h opens
  | settings settings =>
    rw [Option.toList_none, List.append_nil]
    exact ⟨⟨h.listed.below, h.listed.shells, h.listed.contents⟩, h.managers, h.slots, h.nowhere,
      h.closed, h.running, h.ran, h.alive⟩
  | closes member => exact closes_told h member
  | presents member =>
    exact write_told h member rfl (fun page => rfl) (fun c => nofun) trivial fun x inside => inside
  | cancels member =>
    exact write_told h member rfl (fun page => rfl) (fun c => nofun) trivial fun x inside => inside
  | answers found => exact answers_told h running found
  | unanswered missing => exact unanswered_told h missing
  | returns innermost there => exact returns_told h innermost there
  | dangles innermost gone => exact dangles_told h innermost gone

theorem initial_told (settings : AllSettings) : Told [] (initial settings) := by
  refine ⟨⟨?_, List.nodup_nil, List.nodup_nil⟩, fun _ _ => rfl, ?_, fun _ _ => rfl, ?_, ?_,
    fun _ => rfl, iff_of_true rfl Runs.throughout_nil⟩
  · exact fun sh none => (List.not_mem_nil none).elim
  · exact fun sh none => (List.not_mem_nil none).elim
  · exact fun contents none => (List.not_mem_nil none).elim
  · exact fun sh none => (List.not_mem_nil none).elim

theorem run_told {settings : AllSettings} {es : List Event}
    (reached : Runs.run step (initial settings) es = some s) : Told (journal settings es) s := by
  refine Runs.invariant_chronicle [] (initial_told settings) ?_ reached
  intro past s e s' h taken
  obtain ⟨running, moves⟩ := step_moves taken
  exact moves_told h running moves

end

/-! `ForWebContents` compares addresses, and the address of a page that was closed may be given
out again. -/

/-- The page that is at the address of `contents`. -/
def pageAt (native : Nat → Nat) (b : Browser) (contents : Nat) : Nat :=
  ((b.allShells.find? (native ·.wc.ptr == native contents)).map (·.wc.ptr)).getD contents

def answerAt (native : Nat → Nat) (s : State) (p : JavascriptDialogClosed) : State :=
  let found := pageAt native s.browser p.nativeWebContents
  match callbackToRun s.browser s.jdm { p with nativeWebContents := found } with
  | .error fatal => { s with fatal := some (.dialog fatal) }
  | .ok (sh, callback) => { s with running := sh :: s.running, ran := s.ran ++ [(p, callback)] }

def stepAt (native : Nat → Nat) (s : State) : Event → Option State
  | .dialogClosed p => if s.fatal.isSome then none else some (answerAt native s p)
  | e => step s e

def journalAt (native : Nat → Nat) (settings : AllSettings) (es : List Event) : List Note :=
  Runs.chronicle (stepAt native) note (initial settings) es

/-- Java answers no page whose address another page has got. -/
def Current (native : Nat → Nat) (s : State) : Event → Prop
  | .dialogClosed p => ∀ sh ∈ s.browser.allShells,
    native sh.wc.ptr = native p.nativeWebContents → sh.wc.ptr = p.nativeWebContents
  | _ => True

instance (native : Nat → Nat) (s : State) (e : Event) : Decidable (Current native s e) := by
  cases e <;> unfold Current <;> infer_instance

theorem pageAt_current {native : Nat → Nat} {s : State} {p : JavascriptDialogClosed}
    (current : Current native s (.dialogClosed p)) :
    pageAt native s.browser p.nativeWebContents = p.nativeWebContents := by
  unfold pageAt
  cases found : s.browser.allShells.find? (native ·.wc.ptr == native p.nativeWebContents) with
  | none => rfl
  | some sh =>
    exact current sh (List.mem_of_find?_eq_some found) (by simpa using List.find?_some found)

theorem stepAt_current {native : Nat → Nat} {s : State} {e : Event}
    (current : Current native s e) : stepAt native s e = step s e := by
  cases e with
  | dialogClosed p =>
    rw [stepAt, answerAt, pageAt_current current]
    rfl
  | _ => rfl

/-- Whatever the other tabs do, the answers about a page run what is waiting at that page, as
if there were no other; no answer crosses to a callback that was not opened there. -/
theorem answers_kept_to_pages {native : Nat → Nat} {settings : AllSettings} {es : List Event}
    {t : State} (reached : Runs.run (stepAt native) (initial settings) es = some t)
    (current : Runs.Along (stepAt native) (fun s e _ => Current native s e) (initial settings) es)
    (contents : Nat) :
    t.ran.filter (·.1.nativeWebContents == contents) =
        (pageOf contents (journalAt native settings es)).ran ∧
      ∀ x ∈ t.ran, .opened x.1.nativeWebContents x.2 ∈ journalAt native settings es := by
  have same (s : State) (e : Event) (s' : State) (now : Current native s e)
      (taken : stepAt native s e = some s') : step s e = some s' :=
    (stepAt_current now).symm.trans taken
  obtain ⟨reached', noted⟩ := Runs.chronicle_along same current reached
  have h := run_told reached'
  rw [journal, noted] at h
  refine ⟨h.ran contents, fun x member => ?_⟩
  have own : x ∈ (pageOf x.1.nativeWebContents (journalAt native settings es)).ran := by
    rw [journalAt, ← h.ran]
    exact List.mem_filter.mpr ⟨member, beq_iff_eq.mpr rfl⟩
  exact (pageOf_opened _ _).2 x own

/-- Two tabs ask at once. The first is answered and closed, and a third gets its address. -/
def threeTabs : List Event :=
  [.shells (.launchShell 0), .shells (.launchShell 0),
    .runBeforeUnloadDialog 1 "leave?".toList false 7,
    .runBeforeUnloadDialog 3 "stay?".toList false 8,
    .dialogClosed ⟨0, true, []⟩, .callbackReturns, .shells (.close 1), .dialogClosed ⟨2, false, []⟩,
    .shells (.launchShell 0), .runBeforeUnloadDialog 5 "go?".toList false 9,
    .dialogClosed ⟨4, true, []⟩]

def thirdAsFirst (contents : Nat) : Nat := if contents = 4 then 0 else contents

theorem answers_kept_to_pages_reused :
    ∃ t, Runs.run (stepAt thirdAsFirst) (initial {}) threeTabs = some t ∧
      t.ran.filter (·.1.nativeWebContents == 4) = [(⟨4, true, []⟩, 9)] ∧
      ∀ x ∈ t.ran, .opened x.1.nativeWebContents x.2 ∈ journalAt thirdAsFirst {} threeTabs := by
  have runs : (Runs.run (stepAt thirdAsFirst) (initial {}) threeTabs).isSome = true := by
    decide +kernel
  obtain ⟨t, reached⟩ := Option.isSome_iff_exists.mp runs
  obtain ⟨third, own⟩ := answers_kept_to_pages reached (by decide +kernel) 4
  have alone : (pageOf 4 (journalAt thirdAsFirst {} threeTabs)).ran = [(⟨4, true, []⟩, 9)] := by
    decide +kernel
  exact ⟨t, reached, third.trans alone, own⟩

/-- A late answer about the first tab runs what waits at the third. -/
example : (Runs.run (stepAt thirdAsFirst) (initial {})
    [.shells (.launchShell 0), .shells (.launchShell 0), .shells (.close 1),
      .shells (.launchShell 0), .runBeforeUnloadDialog 5 "go?".toList false 9,
      .dialogClosed ⟨0, true, []⟩]).map (·.ran) = some [(⟨0, true, []⟩, 9)] := by
  decide +kernel

/-- The process outlives its dialogs exactly when each answer finds a callback waiting at its
page, and no callback returns to a page that was closed meanwhile. -/
theorem dialogs_survived_iff {settings : AllSettings} {es : List Event} {t : State}
    (reached : Runs.run step (initial settings) es = some t) :
    t.fatal = none ↔ Runs.Throughout Served (journal settings es) := (run_told reached).alive

/-- A tab is closed by the callback of its own dialog. -/
def closedInside : List Event :=
  [.shells (.launchShell 0), .runBeforeUnloadDialog 1 "leave?".toList false 7,
    .dialogClosed ⟨0, true, []⟩, .shells (.close 1), .callbackReturns]

theorem dialogs_survived_iff_closed_inside :
    ∃ t, Runs.run step (initial {}) closedInside = some t ∧ t.fatal = some .managerGone ∧
      ¬ Runs.Throughout Served (journal {} closedInside) := by
  have runs :
      (Runs.run step (initial {}) closedInside).map (·.fatal) = some (some .managerGone) := by
    decide +kernel
  obtain ⟨t, reached, gone⟩ := Option.map_eq_some_iff.mp runs
  refine ⟨t, reached, gone, fun served => ?_⟩
  rw [(dialogs_survived_iff reached).mpr served] at gone
  cases gone

end Seaturtle.TabDialogs
