import Seaturtle.Block.Selectors
import Seaturtle.Lib.Lag
import Seaturtle.Lib.Runs

/-! The way of the style sheets into a frame. The render process says that the frame has
a new document element, the browser process decides by the URL that it knows of the frame,
and the render process styles the document that the frame has by then. content is taken to
deliver the messages about one frame in the order in which they were sent, each way. -/
namespace Seaturtle.InjectionRuns

/-- A document element: the number of its document in the frame, and the URL that the document
had when the element was created. -/
structure Element where
  document : Nat
  url : Gurl
  deriving DecidableEq

/-- Messages about a frame. The notification itself does not say which element it is about. -/
inductive ToBrowser where
  /-- content's message about a navigation. -/
  | didCommit (url : Gurl)
  | notifyDidCreateDocumentElement (element : Element)
  deriving DecidableEq

def ToBrowser.notified : ToBrowser → Option Element
  | didCommit _ => none
  | notifyDidCreateDocumentElement element => some element

/-- Whether an element's document is to be styled, and the setting and the whitelist by which
that was decided. -/
structure Decision where
  element : Element
  injectCss : Bool
  blocker : Blocker
  injects : Bool

/-- A delivered `InjectCssInFrame`: the document it was sent for, and the one it came upon. -/
structure Injection where
  decidedFor : Nat
  into : Nat
  deriving DecidableEq

/-- `GURL()`. -/
def emptyUrl : Gurl := ⟨[], false, [], [], []⟩

/-- A frame on both sides, with the messages in flight and what has happened, each with the
oldest first. -/
structure Frame (WebString : Type) where
  /-- The blocker of the frame's process. -/
  render : RenderBlocker WebString
  document : WebDocument WebString
  /-- How many navigations to another document it has committed. -/
  number : Nat := 0
  /-- Whether any navigation was committed, within the document or to another. -/
  committed : Bool := false
  toBrowser : List ToBrowser := []
  /-- `GetLastCommittedURL()`, in the browser process. -/
  lastCommittedUrl : Gurl := emptyUrl
  /-- `InjectCssInFrame` messages, by the documents they were sent for. -/
  toRender : List Nat := []
  created : List Element := []
  decisions : List Decision := []
  injections : List Injection := []

namespace Frame
variable {WebString : Type}

/-- The URL of its document, `GURL()` until a navigation is committed. -/
def url (f : Frame WebString) : Gurl := if f.committed then f.document.url else emptyUrl

/-- How often the document that the frame has was styled. -/
def stylings (f : Frame WebString) : Nat := f.injections.countP (·.into == f.number)

end Frame

/-- `filters.inject_css`, the whitelist, and the frames, each in an open shell. -/
structure State (WebString : Type) where
  injectCss : Bool
  blocker : Blocker
  frames : Nat → Frame WebString

variable {WebString : Type} (fromUTF8 : Str → WebString)

/-- Whether the handler sends an `InjectCssInFrame`. -/
def onNotifyDidCreateDocumentElement (s : State WebString) (lastCommittedUrl : Gurl) : Bool :=
  if !s.injectCss then false
  else !s.blocker.isWhitelisted lastCommittedUrl

inductive Event where
  | updateGlobalSettings (injectCss : Bool)
  | updateWhitelist (ubw : UpdateBlockingWhitelist)
  | commit (frame : Nat) (url : Gurl)
  /-- A navigation within the document, not `is_navigation_to_different_page()`. -/
  | commitInPage (frame : Nat) (url : Gurl)
  | didCreateDocumentElement (frame : Nat)
  | receiveInBrowser (frame : Nat)
  | receiveInRender (frame : Nat)

namespace Frame

def commit (f : Frame WebString) (url : Gurl) : Frame WebString :=
  { f with
    document := { url }
    number := f.number + 1
    committed := true
    toBrowser := f.toBrowser ++ [.didCommit url] }

/-- The document stays, and its host does: content lets it go to no URL of another origin. -/
def commitInPage (f : Frame WebString) (url : Gurl) : Option (Frame WebString) :=
  if lowerHost url = lowerHost f.document.url then
    some { f with
      document := { f.document with url }
      committed := true
      toBrowser := f.toBrowser ++ [.didCommit url] }
  else none

def didCreateDocumentElement (f : Frame WebString) : Frame WebString :=
  let element : Element := ⟨f.number, f.url⟩
  { f with
    toBrowser := f.toBrowser ++ [.notifyDidCreateDocumentElement element]
    created := f.created ++ [element] }

/-- The handler of the next message, in the browser process. -/
def receiveInBrowser (s : State WebString) (f : Frame WebString) : Option (Frame WebString) :=
  match f.toBrowser with
  | [] => none
  | .didCommit url :: rest => some { f with toBrowser := rest, lastCommittedUrl := url }
  | .notifyDidCreateDocumentElement element :: rest =>
    let injects := onNotifyDidCreateDocumentElement s f.lastCommittedUrl
    some { f with
      toBrowser := rest
      toRender := f.toRender ++ if injects then [element.document] else []
      decisions := f.decisions ++ [⟨element, s.injectCss, s.blocker, injects⟩] }

/-- `OnInjectCssInFrame`, whatever document the frame has now. -/
def onInjectCssInFrame (f : Frame WebString) : Option (Frame WebString) :=
  match f.toRender with
  | [] => none
  | document :: rest =>
    some { f with
      toRender := rest
      document := f.render.injectStyleSheets fromUTF8 f.document
      injections := f.injections ++ [⟨document, f.number⟩] }

end Frame

def State.set (s : State WebString) (i : Nat) (f : Frame WebString) : State WebString :=
  { s with frames := fun j => if j = i then f else s.frames j }

def step (s : State WebString) : Event → Option (State WebString)
  | .updateGlobalSettings injectCss => some { s with injectCss }
  | .updateWhitelist ubw => some { s with blocker := s.blocker.updateWhitelist ubw }
  | .commit i url => some (s.set i ((s.frames i).commit url))
  | .commitInPage i url => ((s.frames i).commitInPage url).map (s.set i)
  | .didCreateDocumentElement i => some (s.set i (s.frames i).didCreateDocumentElement)
  | .receiveInBrowser i => ((s.frames i).receiveInBrowser s).map (s.set i)
  | .receiveInRender i => ((s.frames i).onInjectCssInFrame fromUTF8).map (s.set i)

/-- Frames with their initial documents, about which nothing has been said yet. -/
def initial (injectCss : Bool) (blocker : Blocker) (render : Nat → RenderBlocker WebString)
    (blank : Nat → Gurl) : State WebString where
  injectCss
  blocker
  frames i := { render := render i, document := { url := blank i } }

/-! Two pages and a frame that hides something on every page. -/

def news : Gurl := Gurl.parseCanonical "http://news.example/".toList
def shop : Gurl := Gurl.parseCanonical "http://shop.example/".toList

def shopExempt : Blocker := ({} : Blocker).updateWhitelist ⟨[⟨"shop.example".toList, []⟩]⟩

def adRules : RenderBlocker Str := ({} : RenderBlocker Str).updateRulesForRenderProcess id
  ⟨[⟨[], false, ".ad".toList⟩]⟩

def fresh : State Str := initial true shopExempt (fun _ => adRules) fun _ => emptyUrl

/-- One page load, with all its messages. -/
def load (url : Gurl) : List Event :=
  [.commit 0 url, .didCreateDocumentElement 0, .receiveInBrowser 0, .receiveInBrowser 0,
    .receiveInRender 0]

/-! One round of `InjectStyleSheets`. -/

/-- What it puts into a document with that URL. -/
def sheetsFor (b : RenderBlocker WebString) (url : Gurl) : List WebString :=
  (b.injectStyleSheets fromUTF8 { url }).styleSheets

theorem sheetsFor_host (b : RenderBlocker WebString) {url url' : Gurl}
    (same : lowerHost url = lowerHost url') :
    sheetsFor fromUTF8 b url = sheetsFor fromUTF8 b url' := by
  simp only [sheetsFor, RenderBlocker.injectStyleSheets_eq, same]

theorem injectStyleSheets_url (b : RenderBlocker WebString) (doc : WebDocument WebString) :
    (b.injectStyleSheets fromUTF8 doc).url = doc.url := by
  have globals (sheets : List WebString) (doc : WebDocument WebString) :
      (sheets.foldl WebDocument.insertStyleSheet doc).url = doc.url := by
    induction sheets generalizing doc with
    | nil => rfl
    | cons s sheets ih => exact ih (doc.insertStyleSheet s)
  simp only [RenderBlocker.injectStyleSheets]
  split
  · exact globals _ doc
  · exact globals _ doc

theorem injectStyleSheets_appends (b : RenderBlocker WebString) (doc : WebDocument WebString) :
    (b.injectStyleSheets fromUTF8 doc).styleSheets =
      doc.styleSheets ++ sheetsFor fromUTF8 b doc.url := by
  simp only [sheetsFor, RenderBlocker.injectStyleSheets_eq, List.nil_append, List.append_assoc]

/-! What the browser process knows of a frame. -/

def hear (known : Gurl) : ToBrowser → Gurl
  | .didCommit url => url
  | .notifyDidCreateDocumentElement _ => known

def tells : ToBrowser → Gurl → Prop
  | .didCommit _, _ => True
  | .notifyDidCreateDocumentElement element, url => element.url = url

/-! The invariant of a frame. -/

structure Tracked (f : Frame WebString) : Prop where
  behind : Lag.Behind hear tells f.lastCommittedUrl f.toBrowser f.url
  decided : ∀ d ∈ f.decisions, d.injects = (d.injectCss && !d.blocker.isWhitelisted d.element.url)
  created : ∀ x ∈ f.created, x.document ≤ f.number
  /-- No notification is lost, doubled or overtaken, and no decision is. -/
  notified : f.created = f.decisions.map (·.element) ++ f.toBrowser.filterMap (·.notified)
  order : (f.decisions.filter (·.injects)).map (·.element.document) =
    f.injections.map (·.decidedFor) ++ f.toRender
  pending : ∀ n ∈ f.toRender, n ≤ f.number
  landed : ∀ x ∈ f.injections, x.decidedFor ≤ x.into ∧ x.into ≤ f.number
  sheets : f.document.styleSheets =
    (List.replicate f.stylings (sheetsFor fromUTF8 f.render f.document.url)).flatten

variable {fromUTF8} {s s' : State WebString} {f f' : Frame WebString}

theorem onNotify_eq (s : State WebString) (url : Gurl) :
    onNotifyDidCreateDocumentElement s url = (s.injectCss && !s.blocker.isWhitelisted url) := by
  cases enabled : s.injectCss <;> simp [onNotifyDidCreateDocumentElement, enabled]

/-- What the browser process makes of the next message. -/
theorem receiveInBrowser_cases (received : f.receiveInBrowser s = some f') :
    (∃ url rest, f.toBrowser = .didCommit url :: rest ∧
      f' = { f with toBrowser := rest, lastCommittedUrl := url }) ∨
    ∃ element rest, f.toBrowser = .notifyDidCreateDocumentElement element :: rest ∧
      f' = { f with
        toBrowser := rest
        toRender := f.toRender ++
          if onNotifyDidCreateDocumentElement s f.lastCommittedUrl then [element.document] else []
        decisions := f.decisions ++ [⟨element, s.injectCss, s.blocker,
          onNotifyDidCreateDocumentElement s f.lastCommittedUrl⟩] } := by
  unfold Frame.receiveInBrowser at received
  split at received
  · cases received
  · next url rest first => exact .inl ⟨url, rest, first, (Option.some.inj received).symm⟩
  · next element rest first => exact .inr ⟨element, rest, first, (Option.some.inj received).symm⟩

/-- What the render process makes of the next message. -/
theorem onInjectCssInFrame_cases (received : f.onInjectCssInFrame fromUTF8 = some f') :
    ∃ document rest, f.toRender = document :: rest ∧
      f' = { f with
        toRender := rest
        document := f.render.injectStyleSheets fromUTF8 f.document
        injections := f.injections ++ [⟨document, f.number⟩] } := by
  unfold Frame.onInjectCssInFrame at received
  split at received
  · cases received
  · next document rest first => exact ⟨document, rest, first, (Option.some.inj received).symm⟩

theorem commitInPage_cases {url : Gurl} (committed : f.commitInPage url = some f') :
    lowerHost url = lowerHost f.document.url ∧
      f' = { f with
        document := { f.document with url }
        committed := true
        toBrowser := f.toBrowser ++ [.didCommit url] } := by
  unfold Frame.commitInPage at committed
  split at committed
  · next same => exact ⟨same, (Option.some.inj committed).symm⟩
  · cases committed

theorem commit_tracked (h : Tracked fromUTF8 f) (url : Gurl) : Tracked fromUTF8 (f.commit url) := by
  constructor
  · exact Lag.behind_send (m := ToBrowser.didCommit url) h.behind trivial
  · exact h.decided
  · exact fun x member => Nat.le_succ_of_le (h.created x member)
  · simp [Frame.commit, h.notified, ToBrowser.notified]
  · exact h.order
  · exact fun n member => Nat.le_succ_of_le (h.pending n member)
  · intro x member
    have bounds := h.landed x member
    exact ⟨bounds.1, Nat.le_succ_of_le bounds.2⟩
  · have none : (f.commit url).stylings = 0 := by
      apply List.countP_eq_zero.mpr
      intro x member same
      have earlier := (h.landed x member).2
      have onto := beq_iff_eq.mp same
      simp only [Frame.commit] at onto
      omega
    rw [none]
    rfl

theorem commitInPage_tracked {url : Gurl} (h : Tracked fromUTF8 f)
    (committed : f.commitInPage url = some f') : Tracked fromUTF8 f' := by
  obtain ⟨same, rfl⟩ := commitInPage_cases committed
  constructor
  · exact Lag.behind_send (m := ToBrowser.didCommit url) h.behind trivial
  · exact h.decided
  · exact h.created
  · simp [h.notified, ToBrowser.notified]
  · exact h.order
  · exact h.pending
  · exact h.landed
  · -- The rules go by the host, which is the same.
    rw [sheetsFor_host fromUTF8 f.render same]
    exact h.sheets

theorem didCreateDocumentElement_tracked (h : Tracked fromUTF8 f) :
    Tracked fromUTF8 f.didCreateDocumentElement := by
  constructor
  · exact Lag.behind_send (m := ToBrowser.notifyDidCreateDocumentElement ⟨f.number, f.url⟩)
      h.behind rfl
  · exact h.decided
  · intro x member
    rcases List.mem_append.mp member with old | new
    · exact h.created x old
    · cases List.mem_singleton.mp new
      exact Nat.le_refl _
  · simp [Frame.didCreateDocumentElement, h.notified, ToBrowser.notified]
  · exact h.order
  · exact h.pending
  · exact h.landed
  · exact h.sheets

theorem receiveInBrowser_tracked (h : Tracked fromUTF8 f)
    (received : f.receiveInBrowser s = some f') : Tracked fromUTF8 f' := by
  have behind := h.behind
  have notified := h.notified
  rcases receiveInBrowser_cases received with ⟨url, rest, first, rfl⟩ | ⟨element, rest, first, rfl⟩
  · rw [first] at behind notified
    exact ⟨behind.2, h.decided, h.created, notified, h.order, h.pending, h.landed, h.sheets⟩
  · rw [first] at behind notified
    -- The message is behind those of all earlier navigations and ahead of those of later ones.
    have own : element.url = f.lastCommittedUrl := behind.1
    have bound : element.document ≤ f.number :=
      h.created element (by simp [notified, ToBrowser.notified])
    constructor
    · exact behind.2
    · intro d member
      rcases List.mem_append.mp member with old | new
      · exact h.decided d old
      · cases List.mem_singleton.mp new
        rw [onNotify_eq, own]
    · exact h.created
    · simp [notified, ToBrowser.notified]
    · simp only [List.filter_append, List.map_append, h.order]
      cases onNotifyDidCreateDocumentElement s f.lastCommittedUrl with
      | true => simp
      | false => simp
    · intro n member
      rcases List.mem_append.mp member with old | new
      · exact h.pending n old
      · split at new
        · cases List.mem_singleton.mp new
          exact bound
        · cases new
    · exact h.landed
    · exact h.sheets

theorem onto_stylings {document : Nat} (same : f'.number = f.number)
    (onto : f'.injections = f.injections ++ [⟨document, f.number⟩]) :
    f'.stylings = f.stylings + 1 := by
  simp [Frame.stylings, same, onto]

theorem onInjectCssInFrame_tracked (h : Tracked fromUTF8 f)
    (received : f.onInjectCssInFrame fromUTF8 = some f') : Tracked fromUTF8 f' := by
  have order := h.order
  have pending := h.pending
  obtain ⟨document, rest, first, here⟩ := onInjectCssInFrame_cases received
  have once : f'.stylings = f.stylings + 1 := by
    rw [here]
    exact onto_stylings rfl rfl
  subst here
  rw [first] at order pending
  constructor
  · rw [Frame.url, injectStyleSheets_url]
    exact h.behind
  · exact h.decided
  · exact h.created
  · exact h.notified
  · simp [order]
  · intro n member
    exact pending n (List.mem_cons_of_mem _ member)
  · intro x member
    rcases List.mem_append.mp member with old | new
    · exact h.landed x old
    · cases List.mem_singleton.mp new
      exact ⟨pending document List.mem_cons_self, Nat.le_refl _⟩
  · rw [injectStyleSheets_appends, injectStyleSheets_url, h.sheets, once,
      List.replicate_succ', List.flatten_append, List.flatten_singleton]

/-! Runs. -/

theorem set_frames (s : State WebString) (i j : Nat) (f : Frame WebString) :
    (s.set i f).frames j = if j = i then f else s.frames j := rfl

/-- What a step does to a frame. -/
inductive Moves (fromUTF8 : Str → WebString) (s : State WebString) (i : Nat) :
    Event → Frame WebString → Prop where
  | stays {e : Event} : Moves fromUTF8 s i e (s.frames i)
  | commits (url : Gurl) : Moves fromUTF8 s i (.commit i url) ((s.frames i).commit url)
  | commitsInPage {url : Gurl} {f' : Frame WebString}
    (committed : (s.frames i).commitInPage url = some f') :
    Moves fromUTF8 s i (.commitInPage i url) f'
  | creates : Moves fromUTF8 s i (.didCreateDocumentElement i) (s.frames i).didCreateDocumentElement
  | browser {f' : Frame WebString} (received : (s.frames i).receiveInBrowser s = some f') :
    Moves fromUTF8 s i (.receiveInBrowser i) f'
  | render {f' : Frame WebString} (received : (s.frames i).onInjectCssInFrame fromUTF8 = some f') :
    Moves fromUTF8 s i (.receiveInRender i) f'

theorem step_moves {e : Event} (taken : step fromUTF8 s e = some s') (i : Nat) :
    Moves fromUTF8 s i e (s'.frames i) := by
  cases e with
  | updateGlobalSettings injectCss =>
    cases taken
    exact .stays
  | updateWhitelist ubw =>
    cases taken
    exact .stays
  | commit j url =>
    cases taken
    rw [set_frames]
    split
    · next here => exact here ▸ .commits url
    · exact .stays
  | commitInPage j url =>
    obtain ⟨f', committed, rfl⟩ := Option.map_eq_some_iff.mp taken
    rw [set_frames]
    split
    · next here => exact here ▸ .commitsInPage (here ▸ committed)
    · exact .stays
  | didCreateDocumentElement j =>
    cases taken
    rw [set_frames]
    split
    · next here => exact here ▸ .creates
    · exact .stays
  | receiveInBrowser j =>
    obtain ⟨f', received, rfl⟩ := Option.map_eq_some_iff.mp taken
    rw [set_frames]
    split
    · next here => exact here ▸ .browser (here ▸ received)
    · exact .stays
  | receiveInRender j =>
    obtain ⟨f', received, rfl⟩ := Option.map_eq_some_iff.mp taken
    rw [set_frames]
    split
    · next here => exact here ▸ .render (here ▸ received)
    · exact .stays

theorem step_tracked {e : Event} (h : ∀ i, Tracked fromUTF8 (s.frames i))
    (taken : step fromUTF8 s e = some s') (i : Nat) : Tracked fromUTF8 (s'.frames i) := by
  have moved := step_moves taken i
  generalize s'.frames i = f' at moved ⊢
  cases moved with
  | stays => exact h i
  | commits url => exact commit_tracked (h i) url
  | commitsInPage committed => exact commitInPage_tracked (h i) committed
  | creates => exact didCreateDocumentElement_tracked (h i)
  | browser received => exact receiveInBrowser_tracked (h i) received
  | render received => exact onInjectCssInFrame_tracked (h i) received

theorem initial_tracked (injectCss : Bool) (blocker : Blocker)
    (render : Nat → RenderBlocker WebString) (blank : Nat → Gurl) (i : Nat) :
    Tracked fromUTF8 ((initial injectCss blocker render blank).frames i) := by
  constructor
  · rfl
  · exact fun d none => (List.not_mem_nil none).elim
  · exact fun x none => (List.not_mem_nil none).elim
  · rfl
  · rfl
  · exact fun n none => (List.not_mem_nil none).elim
  · exact fun x none => (List.not_mem_nil none).elim
  · rfl

section
variable {injectCss : Bool} {blocker : Blocker} {render : Nat → RenderBlocker WebString}
  {blank : Nat → Gurl} {es : List Event} {t : State WebString}

theorem run_tracked
    (reached : Runs.run (step fromUTF8) (initial injectCss blocker render blank) es = some t)
    (i : Nat) :
    Tracked fromUTF8 (t.frames i) :=
  Runs.invariant (initial_tracked injectCss blocker render blank)
    (fun _ _ _ h taken => step_tracked h taken) reached i

/-- What a frame has been through: nothing is lost, doubled or reordered on the way, and the
document has just the style sheets of the messages that came upon it. -/
structure Accounted (fromUTF8 : Str → WebString) (f : Frame WebString) : Prop where
  notified : f.created = f.decisions.map (·.element) ++ f.toBrowser.filterMap (·.notified)
  decided : (f.decisions.filter (·.injects)).map (·.element.document) =
    f.injections.map (·.decidedFor) ++ f.toRender
  landed : ∀ x ∈ f.injections, x.decidedFor ≤ x.into
  sheets : f.document.styleSheets =
    (List.replicate f.stylings (sheetsFor fromUTF8 f.render f.document.url)).flatten

theorem accounted {f : Frame WebString} (h : Tracked fromUTF8 f) : Accounted fromUTF8 f :=
  ⟨h.notified, h.order, fun x member => (h.landed x member).1, h.sheets⟩

theorem injections_accounted
    (reached : Runs.run (step fromUTF8) (initial injectCss blocker render blank) es = some t)
    (i : Nat) :
    Accounted fromUTF8 (t.frames i) := by
  exact accounted (run_tracked reached i)

theorem injections_accounted_load :
    ∃ t, Runs.run (step id) fresh (load news) = some t ∧ Accounted id (t.frames 0) := by
  have loads : (Runs.run (step id) fresh (load news)).isSome = true := by decide +kernel
  obtain ⟨t, reached⟩ := Option.isSome_iff_exists.mp loads
  exact ⟨t, reached, injections_accounted reached 0⟩

end

/-! Navigations that wait for the messages about the frame. -/

def Frame.Settled (f : Frame WebString) : Prop :=
  f.toRender = [] ∧ f.toBrowser.filterMap (·.notified) = []

instance (f : Frame WebString) : Decidable f.Settled := inferInstanceAs (Decidable (_ ∧ _))

/-- No navigation to another document commits between a document element and what comes of it. -/
def Undisturbed (s : State WebString) : Event → Prop
  | .commit i _ => (s.frames i).Settled
  | _ => True

instance (s : State WebString) (e : Event) : Decidable (Undisturbed s e) := by
  cases e <;> unfold Undisturbed <;> infer_instance

/-- All that is on its way is about the document that the frame has. -/
structure OnTime (f : Frame WebString) : Prop where
  notified : ∀ x ∈ f.toBrowser.filterMap (·.notified), x.document = f.number
  sent : ∀ n ∈ f.toRender, n = f.number
  landed : ∀ x ∈ f.injections, x.decidedFor = x.into

theorem commit_onTime (h : OnTime f) (settled : f.Settled) (url : Gurl) :
    OnTime (f.commit url) := by
  obtain ⟨none, silent⟩ := settled
  constructor
  · intro x member
    rw [Frame.commit, List.filterMap_append, silent] at member
    cases member
  · intro n member
    rw [Frame.commit, none] at member
    cases member
  · exact h.landed

theorem commitInPage_onTime {url : Gurl} (h : OnTime f)
    (committed : f.commitInPage url = some f') : OnTime f' := by
  obtain ⟨_, rfl⟩ := commitInPage_cases committed
  constructor
  · intro x member
    rw [List.filterMap_append, List.mem_append] at member
    exact h.notified x (member.resolve_right List.not_mem_nil)
  · exact h.sent
  · exact h.landed

theorem didCreateDocumentElement_onTime (h : OnTime f) : OnTime f.didCreateDocumentElement := by
  constructor
  · intro x member
    rw [Frame.didCreateDocumentElement, List.filterMap_append, List.mem_append] at member
    rcases member with old | new
    · exact h.notified x old
    · cases List.mem_singleton.mp new
      rfl
  · exact h.sent
  · exact h.landed

theorem receiveInBrowser_onTime (h : OnTime f) (received : f.receiveInBrowser s = some f') :
    OnTime f' := by
  have notified := h.notified
  rcases receiveInBrowser_cases received with ⟨url, rest, first, rfl⟩ | ⟨element, rest, first, rfl⟩
  · rw [first] at notified
    exact ⟨notified, h.sent, h.landed⟩
  · rw [first] at notified
    constructor
    · exact fun x member => notified x (List.mem_cons_of_mem _ member)
    · intro n member
      rcases List.mem_append.mp member with old | new
      · exact h.sent n old
      · split at new
        · cases List.mem_singleton.mp new
          exact notified element List.mem_cons_self
        · cases new
    · exact h.landed

theorem onInjectCssInFrame_onTime (h : OnTime f)
    (received : f.onInjectCssInFrame fromUTF8 = some f') : OnTime f' := by
  have sent := h.sent
  obtain ⟨document, rest, first, rfl⟩ := onInjectCssInFrame_cases received
  rw [first] at sent
  refine ⟨h.notified, fun n member => sent n (List.mem_cons_of_mem _ member), fun x member => ?_⟩
  rcases List.mem_append.mp member with old | new
  · exact h.landed x old
  · cases List.mem_singleton.mp new
    exact sent document List.mem_cons_self

theorem moves_onTime {e : Event} {i : Nat} (h : OnTime (s.frames i))
    (undisturbed : Undisturbed s e) (moved : Moves fromUTF8 s i e f') : OnTime f' := by
  cases moved with
  | stays => exact h
  | commits url => exact commit_onTime h undisturbed url
  | commitsInPage committed => exact commitInPage_onTime h committed
  | creates => exact didCreateDocumentElement_onTime h
  | browser received => exact receiveInBrowser_onTime h received
  | render received => exact onInjectCssInFrame_onTime h received

/-- How often the document that the frame has was decided to be styled. -/
def Frame.granted (f : Frame WebString) : Nat :=
  f.decisions.countP fun d => d.injects && d.element.document == f.number

theorem granted_eq (h : Accounted fromUTF8 f) (onTime : OnTime f) :
    f.granted = f.stylings + f.toRender.length := by
  have counts := congrArg (List.count f.number) h.decided
  rw [List.count_append] at counts
  have decided :
      ((f.decisions.filter (·.injects)).map (·.element.document)).count f.number = f.granted := by
    rw [List.count, List.countP_map, List.countP_filter, Frame.granted]
    apply List.countP_congr
    intro d _
    simp [and_comm]
  have landed : (f.injections.map (·.decidedFor)).count f.number = f.stylings := by
    rw [List.count, List.countP_map, Frame.stylings]
    apply List.countP_congr
    intro x member
    simp [onTime.landed x member]
  have sent : f.toRender.count f.number = f.toRender.length := by
    rw [List.count_eq_length]
    intro n member
    exact (onTime.sent n member).symm
  rw [← decided, counts, landed, sent]

section
variable {injectCss : Bool} {blocker : Blocker} {render : Nat → RenderBlocker WebString}
  {blank : Nat → Gurl} {es : List Event} {t : State WebString}

theorem run_onTime
    (reached : Runs.run (step fromUTF8) (initial injectCss blocker render blank) es = some t)
    (undisturbed : Runs.Along (step fromUTF8) (fun s e _ => Undisturbed s e)
      (initial injectCss blocker render blank) es) (i : Nat) : OnTime (t.frames i) := by
  have start : ∀ i, OnTime ((initial injectCss blocker render blank).frames i) := by
    intro i
    exact ⟨fun n none => (List.not_mem_nil none).elim, fun n none => (List.not_mem_nil none).elim,
      fun x none => (List.not_mem_nil none).elim⟩
  apply Runs.invariant_along (I := fun s => ∀ i, OnTime (s.frames i)) start _ undisturbed reached
  intro s e s' h taken calm i
  exact moves_onTime (h i) calm (step_moves taken i)

/-- Then each message comes upon the document that it was sent for, and the document of a
frame has been styled as often as it was decided, but for the messages on their way. -/
theorem styled_as_decided
    (reached : Runs.run (step fromUTF8) (initial injectCss blocker render blank) es = some t)
    (undisturbed : Runs.Along (step fromUTF8) (fun s e _ => Undisturbed s e)
      (initial injectCss blocker render blank) es) (i : Nat) :
    (∀ x ∈ (t.frames i).injections, x.decidedFor = x.into) ∧
      (t.frames i).granted = (t.frames i).stylings + (t.frames i).toRender.length := by
  have onTime := run_onTime reached undisturbed i
  exact ⟨onTime.landed, granted_eq (accounted (run_tracked reached i)) onTime⟩

theorem styled_as_decided_load :
    ∃ t, Runs.run (step id) fresh (load news) = some t ∧
      (∀ x ∈ (t.frames 0).injections, x.decidedFor = x.into) ∧
      (t.frames 0).granted = (t.frames 0).stylings + (t.frames 0).toRender.length := by
  have loads : (Runs.run (step id) fresh (load news)).isSome = true := by decide +kernel
  obtain ⟨t, reached⟩ := Option.isSome_iff_exists.mp loads
  exact ⟨t, reached, styled_as_decided reached (by decide +kernel) 0⟩

/-- A navigation that does not wait: the exempt shop is styled in the place of the news. -/
example : (Runs.run (step id) fresh [.commit 0 news, .didCreateDocumentElement 0,
      .receiveInBrowser 0, .receiveInBrowser 0, .commit 0 shop, .receiveInRender 0]).map
    (fun t => ((t.frames 0).document.url.host, (t.frames 0).document.styleSheets)) =
      some ("shop.example".toList, [".ad {display:none !important;}".toList]) := by
  decide +kernel

/-- Every decision is taken by a setting and a whitelist that say the same of the URL
throughout. -/
theorem steady_decisions {url : Gurl} {styled : Bool}
    (reached : Runs.run (step fromUTF8) (initial injectCss blocker render blank) es = some t)
    (steady : Runs.Always (step fromUTF8)
      (fun s => (s.injectCss && !s.blocker.isWhitelisted url) = styled)
      (initial injectCss blocker render blank) es) (i : Nat) :
    ∀ d ∈ (t.frames i).decisions, (d.injectCss && !d.blocker.isWhitelisted url) = styled := by
  have start : ∀ i, ∀ d ∈ ((initial injectCss blocker render blank).frames i).decisions,
      (d.injectCss && !d.blocker.isWhitelisted url) = styled := by
    intro i d none
    exact (List.not_mem_nil none).elim
  apply Runs.invariant_along (I := fun s => ∀ i, ∀ d ∈ (s.frames i).decisions,
    (d.injectCss && !d.blocker.isWhitelisted url) = styled) start _
    (Runs.along_of_always steady) reached
  intro s e s' h taken verdict i
  have moved := step_moves taken i
  generalize s'.frames i = f' at moved ⊢
  cases moved with
  | stays => exact h i
  | commits u => exact h i
  | commitsInPage committed =>
    obtain ⟨_, rfl⟩ := commitInPage_cases committed
    exact h i
  | creates => exact h i
  | browser received =>
    rcases receiveInBrowser_cases received with ⟨u, rest, _, rfl⟩ | ⟨element, rest, _, rfl⟩
    · exact h i
    · intro d member
      rcases List.mem_append.mp member with old | new
      · exact h i d old
      · cases List.mem_singleton.mp new
        exact verdict
  | render received =>
    obtain ⟨document, rest, _, rfl⟩ := onInjectCssInFrame_cases received
    exact h i

/-- The page moves on to a place within it. -/
def readOn : List Event :=
  load news ++ [.commitInPage 0 (Gurl.parseCanonical "http://news.example/#sport".toList)]

end

end Seaturtle.InjectionRuns
