import Seaturtle.Lib.Forest
import Seaturtle.Shell.Ownership
import Seaturtle.Shell.RequestContext

/-! Tab isolation: with `single_context` off, two tabs share their stores exactly
when they are of one popup tree. -/
namespace Seaturtle.TabRuns

/-- The registry, the IO thread, and the history of the shells with their openers. -/
structure System where
  browser : Browser
  io : IoState
  births : List (Forest.Birth Nat BrowserContext) := []

inductive Event where
  | shells (e : ShellRuns.Event)
  | use (client : Client)

/-- The shell that the event put at the end of `all_shells_`. -/
def born (b' : Browser) : ShellRuns.Event → List (Forest.Birth Nat BrowserContext)
  | .launchShell _ =>
    b'.allShells.getLast?.toList.map fun sh => ⟨sh.ptr, none, sh.wc.browserContext⟩
  | .addNewContents opener =>
    b'.allShells.getLast?.toList.map fun sh => ⟨sh.ptr, some opener, sh.wc.browserContext⟩
  | _ => []

def created (b : Browser) : Client → Bool
  | .context (.isolated n) => decide (n < b.nextContext)
  | _ => true

def step (s : System) : Event → Option System
  | .shells e => (ShellRuns.step s.browser e).map fun b =>
      { s with browser := b, births := born b e ++ s.births }
  | .use client =>
    if created s.browser client then
      (s.io.getURLRequestContext s.browser.settings client).map fun (_, io) => { s with io }
    else none

def initial (settings : AllSettings) (contextPath : Str) : System :=
  { browser := ShellRuns.initial settings, io := { contextPath } }

/-- What the two clients are using once both have asked their getters. -/
def System.ask (s : System) (a b : Client) : Option (RequestContext × RequestContext) := do
  let (ra, io) ← s.io.getURLRequestContext s.browser.settings a
  let (rb, _) ← io.getURLRequestContext s.browser.settings b
  return (ra, rb)

def client (sh : Shell) : Client := .context sh.wc.browserContext

structure Isolated (s : System) : Prop where
  /-- Two tabs have a store in common exactly when one popup tree holds both. -/
  tabs : ∀ a ∈ s.browser.allShells, ∀ b ∈ s.browser.allShells,
    ∃ ra rb, s.ask (client a) (client b) = some (ra, rb) ∧
      (ra.cookieStore = rb.cookieStore ↔ Forest.SameTree s.births a.ptr b.ptr) ∧
      (ra.httpCache = rb.httpCache ↔ Forest.SameTree s.births a.ptr b.ptr) ∧
      (ra.transportSecurityState = rb.transportSecurityState ↔
        Forest.SameTree s.births a.ptr b.ptr)
  /-- No tab uses a store of the singleton or of the fetcher. -/
  fetcher : ∀ a ∈ s.browser.allShells, ∃ ra rf, s.ask (client a) .fetcher = some (ra, rf) ∧
    StoreRef.shared ∉ ra.stores ∧ ∀ st ∈ ra.stores, st ∉ rf.stores

/-! The getters. -/

structure Private (io : IoState) : Prop where
  own : ∀ c rc, io.urlRequestContext c = some rc →
    ∀ st ∈ rc.stores, ∃ n, n < io.nextStore ∧ st = .own n
  apart : ∀ c d rc rd, c ≠ d → io.urlRequestContext c = some rc →
    io.urlRequestContext d = some rd → ∀ st ∈ rc.stores, st ∉ rd.stores

theorem getURLRequestContext_new {io : IoState} {settings : AllSettings} {c : Client}
    (off : settings.state.singleContext = false) (unused : io.urlRequestContext c = none) :
    ∃ rc, io.getURLRequestContext settings c = some (rc,
        { io with
          nextStore := io.nextStore + 4, urlRequestContext := io.urlRequestContext.set c rc }) ∧
      rc.stores = [.own io.nextStore, .own (io.nextStore + 1), .own (io.nextStore + 2),
        .own (io.nextStore + 3)] := by
  refine ⟨⟨settings.network.spdyEnabled, .own io.nextStore, .own (io.nextStore + 1),
    .own (io.nextStore + 2), .own (io.nextStore + 3)⟩, ?_, rfl⟩
  simp [IoState.getURLRequestContext, unused, IoState.chooseCookieStore, IoState.chooseCaches,
    IoState.mayShare, off, IoState.createStore]

theorem private_set {io : IoState} {c : Client} {rc : RequestContext} (h : Private io)
    (stores : rc.stores = [.own io.nextStore, .own (io.nextStore + 1), .own (io.nextStore + 2),
      .own (io.nextStore + 3)]) :
    Private { io with
      nextStore := io.nextStore + 4, urlRequestContext := io.urlRequestContext.set c rc } := by
  have new : ∀ st ∈ rc.stores, ∃ n, io.nextStore ≤ n ∧ n < io.nextStore + 4 ∧ st = .own n := by
    intro st member
    simp only [stores, List.mem_cons, List.not_mem_nil, or_false] at member
    rcases member with rfl | rfl | rfl | rfl
    all_goals exact ⟨_, by omega, by omega, rfl⟩
  have old_new : ∀ d rd, io.urlRequestContext d = some rd → ∀ st ∈ rd.stores, st ∉ rc.stores := by
    intro d rd hd st member member'
    obtain ⟨n, below, hn⟩ := h.own d rd hd st member
    obtain ⟨m, above, _, hm⟩ := new st member'
    cases hn.symm.trans hm
    omega
  constructor
  · intro d rd hd st member
    rcases HashMap.set_some hd with ⟨_, rfl⟩ | ⟨_, old⟩
    · obtain ⟨n, _, below, hn⟩ := new st member
      exact ⟨n, below, hn⟩
    · obtain ⟨n, below, hn⟩ := h.own d rd old st member
      exact ⟨n, Nat.lt_add_right 4 below, hn⟩
  · intro d e rd re different hd he st member
    rcases HashMap.set_some hd with ⟨isd, rfl⟩ | ⟨_, oldd⟩
    · rcases HashMap.set_some he with ⟨ise, _⟩ | ⟨_, olde⟩
      · exact absurd (isd.trans ise.symm) different
      · intro member'
        exact old_new e re olde st member' member
    · rcases HashMap.set_some he with ⟨_, rfl⟩ | ⟨_, olde⟩
      · exact old_new d rd oldd st member
      · exact h.apart d e rd re different oldd olde st member

theorem getURLRequestContext_private {io : IoState} {settings : AllSettings} (c : Client)
    (h : Private io) (off : settings.state.singleContext = false) :
    ∃ rc io', io.getURLRequestContext settings c = some (rc, io') ∧ Private io' ∧
      io'.urlRequestContext c = some rc ∧
      ∀ d rd, io.urlRequestContext d = some rd → io'.urlRequestContext d = some rd := by
  cases used : io.urlRequestContext c with
  | some rc =>
    refine ⟨rc, io, ?_, h, used, fun d rd hd => hd⟩
    rw [IoState.getURLRequestContext, used]
  | none =>
    obtain ⟨rc, made, stores⟩ := getURLRequestContext_new off used
    refine ⟨rc, _, made, private_set h stores, ?_, fun d rd hd => ?_⟩
    · simp [HashMap.set_apply]
    · have different : d ≠ c := fun same => by rw [same, used] at hd; cases hd
      simp [HashMap.set_apply, different, hd]

theorem ask_private {s : System} (a b : Client) (h : Private s.io)
    (off : s.browser.settings.state.singleContext = false) :
    ∃ ra rb, s.ask a b = some (ra, rb) ∧ StoreRef.shared ∉ ra.stores ∧ (a = b → ra = rb) ∧
      (a ≠ b → ∀ st ∈ ra.stores, st ∉ rb.stores) := by
  obtain ⟨ra, io, asked, h, has, _⟩ := getURLRequestContext_private a h off
  obtain ⟨rb, io', asked', h', has', keeps⟩ := getURLRequestContext_private b h off
  have has := keeps a ra has
  have both : s.ask a b = some (ra, rb) := by simp [System.ask, asked, asked']
  refine ⟨ra, rb, both, fun shared => ?_, fun same => ?_, fun diff => ?_⟩
  · obtain ⟨n, _, hn⟩ := h'.own a ra has _ shared
    cases hn
  · subst same
    exact Option.some.inj (has.symm.trans has')
  · exact h'.apart a b ra rb diff has has'

/-! The shells. -/

structure Traced (s : System) : Prop where
  forest : Forest.Inherited s.births
  live : ∀ sh ∈ s.browser.allShells, ∃ b ∈ s.births,
    b.node = sh.ptr ∧ b.label = sh.wc.browserContext
  ptr : ∀ b ∈ s.births, b.node < s.browser.nextPtr
  context : ∀ b ∈ s.births, ∃ n, n < s.browser.nextContext ∧ b.label = .isolated n

theorem newborn_traced {s : System} {b : Browser} {x : Forest.Birth Nat BrowserContext}
    (h : Traced s) (forest : Forest.Inherited (x :: s.births))
    (live : ∀ sh ∈ b.allShells, sh ∈ s.browser.allShells ∨
      x.node = sh.ptr ∧ x.label = sh.wc.browserContext)
    (ptr : s.browser.nextPtr ≤ b.nextPtr ∧ x.node < b.nextPtr)
    (context : s.browser.nextContext ≤ b.nextContext ∧
      ∃ n, n < b.nextContext ∧ x.label = .isolated n) :
    Traced { s with browser := b, births := x :: s.births } := by
  constructor
  · exact forest
  · intro sh member
    rcases live sh member with old | new
    · obtain ⟨y, hy, named⟩ := h.live sh old
      exact ⟨y, List.mem_cons_of_mem x hy, named⟩
    · exact ⟨x, List.mem_cons_self, new⟩
  · intro y hy
    rcases List.mem_cons.mp hy with rfl | old
    · exact ptr.2
    · exact Nat.lt_of_lt_of_le (h.ptr y old) ptr.1
  · intro y hy
    rcases List.mem_cons.mp hy with rfl | old
    · exact context.2
    · obtain ⟨n, below, label⟩ := h.context y old
      exact ⟨n, Nat.lt_of_lt_of_le below context.1, label⟩

theorem node_fresh {s : System} (h : Traced s) :
    ∀ y ∈ s.births, y.node ≠ s.browser.nextPtr + 1 := by
  intro y hy
  have below := h.ptr y hy
  omega

theorem launchShell_traced {s : System} {parent : Nat} (h : Traced s)
    (off : s.browser.settings.state.singleContext = false) :
    Traced { s with
      browser := s.browser.launchShell parent
      births := born (s.browser.launchShell parent) (.launchShell parent) ++ s.births } := by
  have launched : s.browser.launchShell parent =
      ({ s.browser with
          nextContext := s.browser.nextContext + 1, nextPtr := s.browser.nextPtr + 1 }).createShell
        ⟨s.browser.nextPtr, .isolated s.browser.nextContext⟩ parent
        (some (.isolated s.browser.nextContext)) := by
    simp [Browser.launchShell, off, Browser.createWebContents]
  have bornHere : born (s.browser.launchShell parent) (.launchShell parent) =
      [⟨s.browser.nextPtr + 1, none, .isolated s.browser.nextContext⟩] := by
    simp [launched, born, Browser.createShell]
  rw [bornHere, launched]
  apply newborn_traced h
  · apply Forest.inherited_founder h.forest rfl (node_fresh h)
    intro y hy same
    obtain ⟨n, below, label⟩ := h.context y hy
    cases label.symm.trans same
    exact Nat.lt_irrefl _ below
  · intro sh member
    rcases ShellRuns.mem_createShell.mp member with old | rfl
    · exact .inl old
    · exact .inr ⟨rfl, rfl⟩
  · exact ⟨Nat.le_add_right _ 2, Nat.lt_succ_self _⟩
  · exact ⟨Nat.le_succ _, _, Nat.lt_succ_self _, rfl⟩

theorem popup_traced {s : System} {opener : Nat} {b : Browser} (h : Traced s)
    (hs : ShellRuns.step s.browser (.addNewContents opener) = some b) :
    Traced { s with browser := b, births := born b (.addNewContents opener) ++ s.births } := by
  obtain ⟨sh, found, rfl⟩ := Option.map_eq_some_iff.mp hs
  obtain ⟨mine, hm, node, label⟩ := h.live sh (ShellRuns.forPtr_mem found)
  have bornHere : born ((s.browser.createWebContents sh.wc.browserContext).2.addNewContents sh
      (s.browser.createWebContents sh.wc.browserContext).1) (.addNewContents opener) =
      [⟨s.browser.nextPtr + 1, some opener, sh.wc.browserContext⟩] := by
    simp [born, Browser.addNewContents, Browser.openPopup, Browser.createShell, Browser.sendCommand,
      Browser.createWebContents]
  simp only [bornHere]
  apply newborn_traced h
  · apply Forest.inherited_child h.forest hm _ (node_fresh h) label
    rw [node, ShellRuns.forPtr_ptr found]
  · intro new member
    rcases ShellRuns.mem_createShell.mp member with old | rfl
    · exact .inl old
    · exact .inr ⟨rfl, rfl⟩
  · exact ⟨Nat.le_add_right _ 2, Nat.lt_succ_self _⟩
  · obtain ⟨n, below, isolated⟩ := h.context mine hm
    exact ⟨Nat.le_refl _, n, below, label.symm.trans isolated⟩

theorem close_nextPtr (b : Browser) (sh : Shell) : (b.close sh).nextPtr = b.nextPtr := by
  obtain ⟨destroyed, toJava, closed⟩ := ShellRuns.close_eq b sh
  rw [closed]

theorem shells_traced {s : System} {e : ShellRuns.Event} {b : Browser} (h : Traced s)
    (off : s.browser.settings.state.singleContext = false)
    (hs : ShellRuns.step s.browser e = some b) :
    Traced { s with browser := b, births := born b e ++ s.births } := by
  cases e with
  | launchShell parent =>
    cases hs
    exact launchShell_traced h off
  | addNewContents opener => exact popup_traced h hs
  | close ptr =>
    obtain ⟨sh, _, rfl⟩ := Option.map_eq_some_iff.mp hs
    constructor
    · exact h.forest
    · exact fun a member => h.live a (ShellRuns.close_shells member)
    · intro a ha
      rw [close_nextPtr]
      exact h.ptr a ha
    · intro a ha
      rw [ShellRuns.close_nextContext]
      exact h.context a ha
  | updateGlobalSettings settings =>
    cases hs
    exact ⟨h.forest, h.live, h.ptr, h.context⟩

/-! The system. -/

def KeepsOff : Event → Prop
  | .shells (.updateGlobalSettings settings) => settings.state.singleContext = false
  | _ => True

structure Invariant (s : System) : Prop where
  off : s.browser.settings.state.singleContext = false
  traced : Traced s
  getters : Private s.io

theorem step_invariant {s s' : System} {e : Event} (h : Invariant s) (hs : step s e = some s')
    (keeps : KeepsOff e) : Invariant s' := by
  cases e with
  | shells e =>
    obtain ⟨b, hb, rfl⟩ := Option.map_eq_some_iff.mp hs
    refine ⟨?_, shells_traced h.traced h.off hb, h.getters⟩
    rcases ShellRuns.step_settings hb with same | ⟨settings, rfl, updated⟩
    · exact same ▸ h.off
    · exact updated ▸ keeps
  | use c =>
    simp only [step] at hs
    split at hs
    · obtain ⟨rc, io, asked, getters, _⟩ := getURLRequestContext_private c h.getters h.off
      rw [asked] at hs
      cases hs
      exact ⟨h.off, ⟨h.traced.forest, h.traced.live, h.traced.ptr, h.traced.context⟩, getters⟩
    · cases hs

theorem initial_invariant {settings : AllSettings} (contextPath : Str)
    (off : settings.state.singleContext = false) : Invariant (initial settings contextPath) := by
  refine ⟨off, ⟨Forest.inherited_nil, ?_, ?_, ?_⟩, ⟨?_, ?_⟩⟩
  · exact fun _ h => (List.not_mem_nil h).elim
  · exact fun _ h => (List.not_mem_nil h).elim
  · exact fun _ h => (List.not_mem_nil h).elim
  · intro c rc used
    cases used
  · intro c d rc rd _ used
    cases used

theorem sameTree_iff_client {s : System} (h : Traced s) {a b : Shell}
    (ha : a ∈ s.browser.allShells) (hb : b ∈ s.browser.allShells) :
    Forest.SameTree s.births a.ptr b.ptr ↔ client a = client b := by
  obtain ⟨x, hx, node, label⟩ := h.live a ha
  obtain ⟨y, hy, node', label'⟩ := h.live b hb
  rw [← node, ← node', Forest.sameTree_iff h.forest hx hy, label, label']
  exact ⟨congrArg Client.context, Client.context.inj⟩

theorem invariant_isolated {s : System} (h : Invariant s) : Isolated s := by
  constructor
  · intro a ha b hb
    obtain ⟨ra, rb, asked, _, same, apart⟩ := ask_private (client a) (client b) h.getters h.off
    have common (store : RequestContext → StoreRef) (used : ∀ rc, store rc ∈ rc.stores) :
        store ra = store rb ↔ Forest.SameTree s.births a.ptr b.ptr := by
      rw [sameTree_iff_client h.traced ha hb]
      constructor
      · intro eq
        by_contra different
        exact apart different (store ra) (used ra) (eq ▸ used rb)
      · intro one
        rw [same one]
    refine ⟨ra, rb, asked, common _ ?_, common _ ?_, common _ ?_⟩
    all_goals intro rc; simp [RequestContext.stores]
  · intro a _
    obtain ⟨ra, rf, asked, unshared, _, apart⟩ := ask_private (client a) .fetcher h.getters h.off
    exact ⟨ra, rf, asked, unshared, apart fun same => by cases same⟩

/-- In every state of a run with `single_context` off, tabs are isolated. -/
theorem tabs_isolated {settings : AllSettings} {contextPath : Str} {es : List Event} {t : System}
    (off : settings.state.singleContext = false) (keeps : ∀ e ∈ es, KeepsOff e)
    (reached : Runs.run step (initial settings contextPath) es = some t) : Isolated t := by
  have along : Runs.Along step (fun _ e _ => KeepsOff e) (initial settings contextPath) es :=
    Runs.along_of_events _ es keeps
  exact invariant_isolated (Runs.invariant_along (initial_invariant contextPath off)
    (fun s e s' h hs keeps => step_invariant h hs keeps) along reached)

/-- A tab, its popup and another tab; the getters are used, and the first tab is closed. -/
def popupSession : List Event :=
  [.shells (.launchShell 0), .shells (.addNewContents 1), .use (.context (.isolated 0)),
    .use .fetcher, .shells (.launchShell 0), .shells (.close 1)]

theorem tabs_isolated_popup :
    ∃ t, Runs.run step (initial { state := { singleContext := false } } "data".toList)
      popupSession = some t ∧ t.browser.allShells.map (·.ptr) = [3, 5] ∧ Isolated t := by
  have keeps : ∀ e ∈ popupSession, KeepsOff e := by simp [popupSession, KeepsOff]
  have live : (Runs.run step (initial { state := { singleContext := false } } "data".toList)
      popupSession).map (fun t => t.browser.allShells.map (·.ptr)) = some [3, 5] := by
    decide +kernel
  obtain ⟨t, reached, ptrs⟩ := Option.map_eq_some_iff.mp live
  exact ⟨t, reached, ptrs, tabs_isolated rfl keeps reached⟩

end Seaturtle.TabRuns
