import Seaturtle.Lib.Runs
import Seaturtle.Shell.Commands

/-! The pictures of favicons, from the icons that a page lists to what Java gets of them. -/
namespace Seaturtle

/-- `SkColorType`, as far as the code tells it apart. -/
inductive SkColorType where
  | alpha8
  | argb4444
  | n32
  | rgb565
  | other (type : Int)
  deriving DecidableEq

structure SkBitmap where
  isNull : Bool := false
  colorType : SkColorType
  width : Int
  height : Int
  /-- The `getSafeSize()` bytes from `getPixels()` on. -/
  pixels : Str
  deriving DecidableEq

inductive ImageConfig where
  | alpha8
  | argb4444
  | argb8888
  | rgb565
  deriving DecidableEq

structure Image where
  height : Option Int := none
  width : Option Int := none
  config : Option ImageConfig := none
  pixels : Option Str := none
  deriving DecidableEq

structure FaviconDownloaded where
  url : Str
  image : Image
  deriving DecidableEq

def imageConfig : SkColorType → Option ImageConfig
  | .alpha8 => some .alpha8
  | .argb4444 => some .argb4444
  | .n32 => some .argb8888
  | .rgb565 => some .rgb565
  | .other _ => none

/-- `none` where nothing of the image is set. -/
def skBitmapToProto (bitmap : SkBitmap) : Option Image :=
  if bitmap.isNull then none
  else (imageConfig bitmap.colorType).map fun config =>
    { height := some bitmap.height, width := some bitmap.width, config := some config
      pixels := some bitmap.pixels }

/-- `FaviconDownloaded`; a picture that cannot be converted is sent all the same, empty. -/
def faviconDownloaded (siteUrl : Gurl) (images : List SkBitmap) : Option FaviconDownloaded :=
  images.head?.map fun image => ⟨siteUrl.spec, (skBitmapToProto image).getD {}⟩

namespace FaviconRuns

structure State where
  bridge : BridgeRuns.State
  /-- The shells and the numbers of the requests that content has answered. -/
  answered : List (Nat × Nat) := []
  toJava : List FaviconDownloaded := []

inductive Event where
  | bridge (e : BridgeRuns.Event)
  /-- content answers a request to the contents of a shell. -/
  | imageDownloaded (shell request : Nat) (images : List SkBitmap)

/-- What is assumed of content: it answers a request at most once. -/
def AnswersOnce (s : State) (shell request : Nat) : Prop := (shell, request) ∉ s.answered

instance (s : State) (shell request : Nat) : Decidable (AnswersOnce s shell request) :=
  inferInstanceAs (Decidable (_ ∉ _))

def step (env : Https.Externals) (policy : Gurl → Gurl → Bool) (pageEnv : PageExternals)
    (s : State) : Event → Option State
  | .bridge e => (BridgeRuns.step env policy pageEnv s.bridge e).map fun bridge => { s with bridge }
  | .imageDownloaded shell request images =>
    if s.bridge.fatal.isSome || s.bridge.attribution.fatal.isSome then none
    else if AnswersOnce s shell request then
      match (s.bridge.pages shell).requests[request]? with
      | some (.downloadImage download) =>
        some { s with
          answered := (shell, request) :: s.answered
          toJava := s.toJava ++ (faviconDownloaded download.siteUrl images).toList }
      | _ => none
    else none

def initial (blocker : Blocker) (httpsRewriter : Https.HttpsRewriter) (settings : AllSettings) :
    State :=
  { bridge := BridgeRuns.initial blocker httpsRewriter settings }

/-- What happens to the favicon of a shell. -/
def note (s : State) : Event → Option (Nat × Favicon.Event)
  | .bridge (.page shell (.didNavigateMainFrame _ _)) =>
    (s.bridge.browser.forPtr shell).map fun sh => (sh.ptr, .didNavigateMainFrame)
  | .bridge (.page shell (.didUpdateFaviconUrl candidates)) =>
    (s.bridge.browser.forPtr shell).map fun sh => (sh.ptr, .didUpdateFaviconURL candidates)
  | .bridge (.shellCommand shell .downloadFavicon) =>
    (s.bridge.browser.forPtr shell).map fun sh =>
      (sh.ptr, .downloadFavicon (s.bridge.pages sh.ptr).url)
  | _ => none

def journal (env : Https.Externals) (policy : Gurl → Gurl → Bool) (pageEnv : PageExternals)
    (s : State) (es : List Event) : List (Nat × Favicon.Event) :=
  Runs.chronicle (step env policy pageEnv) note s es

/-! The favicon of a page runs by what happens to it. -/

def download? : PageRequest → Option Favicon.ImageDownload
  | .downloadImage download => some download
  | _ => none

def tabOf (page : Page) : Favicon.Tab := ⟨page.faviconCandidate, page.requests.filterMap download?⟩

def tabs (s : State) (shell : Nat) : Favicon.Tab := tabOf (s.bridge.pages shell)

/-- The page asks for more, and for nothing less. -/
def Asks (page page' : Page) : Prop := page.requests <+: page'.requests

theorem tabOf_ask {page : Page} {request : PageRequest} (other : download? request = none) :
    tabOf (page.ask request) = tabOf page := by
  simp [tabOf, Page.ask, other]

theorem tabOf_load (env : PageExternals) (page : Page) (surl : Str) (asDesktop : Bool) :
    tabOf (page.load env surl asDesktop) = tabOf page := by
  simp [tabOf, Page.load, Page.ask, download?]

theorem tabOf_reload (env : PageExternals) (page : Page) (asDesktop : Bool) :
    tabOf (page.reload env asDesktop) = tabOf page := by
  unfold Page.reload
  split
  · split
    · exact tabOf_load env page _ true
    · exact tabOf_ask rfl
  · exact tabOf_ask rfl

theorem tabOf_findInPage (page : Page) (fip : FindInPage) :
    tabOf (page.findInPage fip) = tabOf page := by
  have stopped : tabOf (if fip.stop then page.ask .stopFinding else page) = tabOf page := by
    split
    · exact tabOf_ask rfl
    · rfl
  simp only [Page.findInPage]
  split
  · exact stopped
  · exact (tabOf_ask rfl).trans stopped

theorem tabOf_downloadFavicon (page : Page) :
    Favicon.step (tabOf page) (.downloadFavicon page.url) = some (tabOf page.downloadFavicon) := by
  unfold Page.downloadFavicon
  cases asked : Favicon.downloadFavicon page.url page.faviconCandidate with
  | none => simp [Favicon.step, tabOf, asked]
  | some download => simp [Favicon.step, tabOf, asked, Page.ask, download?]

section
variable {env : Https.Externals} {policy : Gurl → Gurl → Bool} {pageEnv : PageExternals}

theorem handle_tab {sh : Shell} {page : Page} {command : JavaCommand} {result : CommandResult}
    (other : command ≠ .downloadFavicon)
    (handled : sh.handleShellCommand pageEnv page command = some result) :
    tabOf result.page = tabOf page := by
  cases command with
  | downloadFavicon => exact absurd rfl other
  | unknown n => cases handled
  | loadUrl url override =>
    cases handled
    exact tabOf_load pageEnv page url override
  | reload override =>
    cases handled
    exact tabOf_reload pageEnv page override
  | findInPage fip =>
    cases handled
    exact tabOf_findInPage page fip
  | _ =>
    cases handled
    rfl

theorem asks_ask (page : Page) (request : PageRequest) : Asks page (page.ask request) :=
  List.prefix_append _ _

theorem asks_findInPage (page : Page) (fip : FindInPage) : Asks page (page.findInPage fip) := by
  have stopped : Asks page (if fip.stop then page.ask .stopFinding else page) := by
    split
    · exact asks_ask page _
    · exact List.prefix_rfl
  simp only [Page.findInPage]
  split
  · exact stopped
  · exact stopped.trans (asks_ask _ _)

theorem handle_asks {sh : Shell} {page : Page} {command : JavaCommand} {result : CommandResult}
    (handled : sh.handleShellCommand pageEnv page command = some result) :
    Asks page result.page := by
  have load (surl : Str) (asDesktop : Bool) : Asks page (page.load pageEnv surl asDesktop) :=
    List.prefix_append _ _
  cases command with
  | loadUrl url override =>
    cases handled
    exact load url override
  | reload override =>
    cases handled
    simp only [Page.reload]
    split
    · split
      · exact load _ true
      · exact asks_ask page _
    · exact asks_ask page _
  | downloadFavicon =>
    cases handled
    simp only [Page.downloadFavicon]
    split
    · exact List.prefix_rfl
    · exact asks_ask page _
  | findInPage fip =>
    cases handled
    exact asks_findInPage page fip
  | unknown n => cases handled
  | _ =>
    cases handled
    exact List.prefix_rfl

/-- What content's event makes of the page. -/
def pageAfter (page : Page) : BridgeRuns.PageEvent → Page
  | .didNavigateMainFrame _ _ =>
    { page with faviconCandidate := Favicon.didNavigateMainFrame page.faviconCandidate }
  | .didUpdateFaviconUrl candidates =>
    { page with faviconCandidate := Favicon.didUpdateFaviconURL candidates page.faviconCandidate }
  | .toggleFullscreenModeForTab enterFullscreen => { page with isFullscreen := enterFullscreen }
  | .changed lastCommittedEntry visibleEntry activeEntry url title =>
    { page with lastCommittedEntry, visibleEntry, activeEntry, url, title }
  | _ => page

/-- What a step of the bridge does to the pages. -/
inductive PagesAfter (pageEnv : PageExternals) (s : BridgeRuns.State) :
    BridgeRuns.Event → (Nat → Page) → Prop where
  | attribution (e : AttributionRuns.Event) : PagesAfter pageEnv s (.attribution e) s.pages
  | unknown {shell : Nat} {command : JavaCommand} (other : command ≠ .downloadFavicon) :
    PagesAfter pageEnv s (.shellCommand shell command) s.pages
  | missing {shell : Nat} {command : JavaCommand} (none : s.browser.forPtr shell = none) :
    PagesAfter pageEnv s (.shellCommand shell command) s.pages
  | handled {shell : Nat} {command : JavaCommand} {sh : Shell} {result : CommandResult}
      (found : s.browser.forPtr shell = some sh)
      (handled : sh.handleShellCommand pageEnv (s.pages sh.ptr) command = some result) :
    PagesAfter pageEnv s (.shellCommand shell command) (s.setPage sh.ptr result.page).pages
  | page {shell : Nat} {sh : Shell} (found : s.browser.forPtr shell = some sh)
      (e : BridgeRuns.PageEvent) :
    PagesAfter pageEnv s (.page shell e) (s.setPage sh.ptr (pageAfter (s.pages sh.ptr) e)).pages

variable {b b' : BridgeRuns.State}

theorem respond_pages (b : BridgeRuns.State) (response : Option ShellCommandResponse) :
    (b.respond response).pages = b.pages := by
  cases response <;> rfl

theorem setPage_same (b : BridgeRuns.State) (shell : Nat) :
    (b.setPage shell (b.pages shell)).pages = b.pages := by
  funext ptr
  simp only [BridgeRuns.State.setPage]
  split
  · next here => rw [here]
  · rfl

theorem dispatch_pages (b : BridgeRuns.State) (shell : Nat) (command : JavaCommand) :
    PagesAfter pageEnv b (.shellCommand shell command)
      (b.dispatchShellCommand pageEnv shell command).pages := by
  unfold BridgeRuns.State.dispatchShellCommand
  split
  · next none => exact .missing none
  · next sh found =>
    split
    · next unknown =>
      apply PagesAfter.unknown
      rintro rfl
      cases unknown
    · next result handled =>
      have pages := PagesAfter.handled found handled
      split
      · rw [← respond_pages _ result.response] at pages
        exact pages
      · rw [respond_pages]
        exact pages

theorem pageEvent_pages (sh : Shell) (e : BridgeRuns.PageEvent) :
    (b.pageEvent sh e).pages = (b.setPage sh.ptr (pageAfter (b.pages sh.ptr) e)).pages := by
  cases e with
  | didNavigateMainFrame different url =>
    cases different <;> rfl
  | toggleFullscreenModeForTab enterFullscreen =>
    cases enterFullscreen <;> rfl
  | didFinishLoad isMainFrame url =>
    cases isMainFrame <;> exact (setPage_same b sh.ptr).symm
  | loadingStateChanged isLoading => exact (setPage_same b sh.ptr).symm
  | loadProgressChanged progress => exact (setPage_same b sh.ptr).symm
  | didUpdateFaviconUrl candidates => rfl
  | changed lastCommittedEntry visibleEntry activeEntry url title => rfl

theorem bridge_pages {e : BridgeRuns.Event}
    (taken : BridgeRuns.step env policy pageEnv b e = some b') :
    PagesAfter pageEnv b e b'.pages := by
  unfold BridgeRuns.step at taken
  split at taken
  · cases taken
  · cases e with
    | attribution e =>
      obtain ⟨a, _, rfl⟩ := Option.map_eq_some_iff.mp taken
      exact .attribution e
    | shellCommand shell command =>
      simp only [Option.ite_none_left_eq_some, Option.some.injEq] at taken
      obtain ⟨_, rfl⟩ := taken
      exact dispatch_pages b shell command
    | page shell e =>
      simp only [Option.ite_none_left_eq_some, Option.map_eq_some_iff] at taken
      obtain ⟨_, sh, found, rfl⟩ := taken
      rw [pageEvent_pages]
      exact .page found e

theorem bridge_asks {e : BridgeRuns.Event}
    (taken : BridgeRuns.step env policy pageEnv b e = some b') (shell : Nat) :
    Asks (b.pages shell) (b'.pages shell) := by
  have after := bridge_pages taken
  generalize b'.pages = pages at after ⊢
  cases after with
  | attribution e => exact List.prefix_rfl
  | unknown other => exact List.prefix_rfl
  | missing none => exact List.prefix_rfl
  | @handled _ _ sh result found handled =>
    change Asks _ (if shell = sh.ptr then result.page else b.pages shell)
    split
    · next here => exact here ▸ handle_asks handled
    · exact List.prefix_rfl
  | @page _ sh found e =>
    change Asks _ (if shell = sh.ptr then pageAfter (b.pages sh.ptr) e else b.pages shell)
    split
    · next here =>
      subst here
      cases e <;> exact List.prefix_rfl
    · exact List.prefix_rfl

theorem set_others (b : BridgeRuns.State) (shell : Nat) (page : Page) (l : Nat)
    (other : l ≠ shell) :
    (b.setPage shell page).pages l = b.pages l := if_neg other

theorem set_here (b : BridgeRuns.State) (shell : Nat) (page : Page) :
    (b.setPage shell page).pages shell = page := if_pos rfl

variable {s s' : State}

/-- A page is set, and it is noted what comes of its favicon. -/
theorem set_own {sh : Shell} {page : Page} {d : Favicon.Event}
    (pages : s'.bridge.pages = (s.bridge.setPage sh.ptr page).pages)
    (favicon : Favicon.step (tabs s sh.ptr) d = some (tabOf page)) :
    Runs.OwnStep Favicon.step tabs s (some (sh.ptr, d)) s' := by
  constructor
  · rw [favicon, tabs, pages, set_here]
  · intro l other
    rw [tabs, tabs, pages, set_others s.bridge sh.ptr page l other]

/-- A page is set, and nothing comes of its favicon. -/
theorem set_quiet {sh : Shell} {page : Page}
    (pages : s'.bridge.pages = (s.bridge.setPage sh.ptr page).pages)
    (same : tabOf page = tabs s sh.ptr) : Runs.OwnStep Favicon.step tabs s none s' := by
  intro l
  rw [tabs, pages]
  by_cases here : l = sh.ptr
  · rw [here, set_here, same]
  · rw [set_others s.bridge sh.ptr page l here, tabs]

theorem page_own {shell : Nat} {sh : Shell} (e : BridgeRuns.PageEvent)
    (found : s.bridge.browser.forPtr shell = some sh)
    (pages : s'.bridge.pages =
      (s.bridge.setPage sh.ptr (pageAfter (s.bridge.pages sh.ptr) e)).pages) :
    Runs.OwnStep Favicon.step tabs s (note s (.bridge (.page shell e))) s' := by
  cases e with
  | didNavigateMainFrame different url =>
    simp only [note, found, Option.map_some]
    exact set_own pages rfl
  | didUpdateFaviconUrl candidates =>
    simp only [note, found, Option.map_some]
    exact set_own pages rfl
  | _ => exact set_quiet pages rfl

theorem command_own {shell : Nat} {sh : Shell} {command : JavaCommand} {result : CommandResult}
    (found : s.bridge.browser.forPtr shell = some sh)
    (handled : sh.handleShellCommand pageEnv (s.bridge.pages sh.ptr) command = some result)
    (pages : s'.bridge.pages = (s.bridge.setPage sh.ptr result.page).pages) :
    Runs.OwnStep Favicon.step tabs s (note s (.bridge (.shellCommand shell command))) s' := by
  by_cases asks : command = .downloadFavicon
  · subst asks
    cases handled
    simp only [note, found, Option.map_some]
    exact set_own pages (tabOf_downloadFavicon _)
  · have quiet := set_quiet pages (handle_tab asks handled)
    cases command with
    | downloadFavicon => exact absurd rfl asks
    | _ => exact quiet

theorem step_own {e : Event} (taken : step env policy pageEnv s e = some s') :
    Runs.OwnStep Favicon.step tabs s (note s e) s' := by
  cases e with
  | imageDownloaded shell request images =>
    simp only [step, Option.ite_none_left_eq_some, Option.ite_none_right_eq_some] at taken
    obtain ⟨_, _, taken⟩ := taken
    split at taken
    · cases taken
      exact fun l => rfl
    · cases taken
  | bridge e =>
    obtain ⟨b, stepped, rfl⟩ := Option.map_eq_some_iff.mp taken
    have after := bridge_pages stepped
    generalize same : b.pages = pages at after
    cases after with
    | attribution e =>
      intro l
      simp only [tabs, same]
    | @unknown shell command other =>
      have quiet : Runs.OwnStep Favicon.step tabs s none { s with bridge := b } := by
        intro l
        simp only [tabs, same]
      cases command with
      | downloadFavicon => exact absurd rfl other
      | _ => exact quiet
    | @missing shell command none =>
      have quiet : Runs.OwnStep Favicon.step tabs s Option.none { s with bridge := b } := by
        intro l
        simp only [tabs, same]
      cases command with
      | downloadFavicon =>
        simp only [note, none, Option.map_none]
        exact quiet
      | _ => exact quiet
    | handled found handled => exact command_own found handled same
    | page found e => exact page_own e found same

/-! The pictures and the requests. -/

/-- The picture answers the request of that number, which was for a valid icon that the page
had listed, and for the URL that it was at. -/
def Answers (marked : List (Nat × Favicon.Event)) (s : State) (request : Nat × Nat)
    (picture : FaviconDownloaded) : Prop :=
  ∃ download images,
    (s.bridge.pages request.1).requests[request.2]? = some (.downloadImage download) ∧
    Favicon.Requested (Runs.eventsOf request.1 marked) download ∧
    faviconDownloaded download.siteUrl images = some picture

theorem requested_later {past more : List Favicon.Event} {download : Favicon.ImageDownload}
    (requested : Favicon.Requested past download) : Favicon.Requested (past ++ more) download := by
  obtain ⟨before, e, after, rfl, holds⟩ := requested
  exact ⟨before, e, after ++ more, by simp, holds⟩

theorem answers_later {marked more : List (Nat × Favicon.Event)} {request : Nat × Nat}
    {picture : FaviconDownloaded}
    (asks : ∀ shell, Asks (s.bridge.pages shell) (s'.bridge.pages shell))
    (answers : Answers marked s request picture) : Answers (marked ++ more) s' request picture := by
  obtain ⟨download, images, asked, requested, sent⟩ := answers
  refine ⟨download, images, ?_, ?_, sent⟩
  · obtain ⟨rest, longer⟩ := asks request.1
    obtain ⟨below, _⟩ := List.getElem?_eq_some_iff.mp asked
    rw [← longer, List.getElem?_append_left below, asked]
  · rw [Runs.eventsOf_append]
    exact requested_later requested

structure Pictured (marked : List (Nat × Favicon.Event)) (s : State) : Prop where
  runs : ∀ shell, Runs.run Favicon.step {} (Runs.eventsOf shell marked) = some (tabs s shell)
  pictures : ∃ asked : List (Nat × Nat), asked.Nodup ∧ (∀ x ∈ asked, x ∈ s.answered) ∧
    List.Forall₂ (Answers marked s) asked s.toJava

theorem downloaded_pictured {marked : List (Nat × Favicon.Event)} {shell request : Nat}
    {images : List SkBitmap} (h : Pictured marked s)
    (taken : step env policy pageEnv s (.imageDownloaded shell request images) = some s') :
    Pictured marked s' := by
  simp only [step, Option.ite_none_left_eq_some, Option.ite_none_right_eq_some] at taken
  obtain ⟨_, unanswered, taken⟩ := taken
  split at taken
  · next download asked =>
    cases taken
    obtain ⟨before, once, known, answers⟩ := h.pictures
    refine ⟨h.runs, ?_⟩
    cases sent : faviconDownloaded download.siteUrl images with
    | none =>
      refine ⟨before, once, fun x member => List.mem_cons_of_mem _ (known x member), ?_⟩
      rw [Option.toList_none, List.append_nil]
      exact answers
    | some picture =>
      have new : (shell, request) ∉ before := fun member => unanswered (known _ member)
      have requested : Favicon.Requested (Runs.eventsOf shell marked) download := by
        apply Favicon.downloads_of_the_page (h.runs shell)
        exact List.mem_filterMap.mpr ⟨_, List.mem_of_getElem? asked, rfl⟩
      refine ⟨before ++ [(shell, request)], ?_, ?_, ?_⟩
      · have more := once.concat new
        rwa [List.concat_eq_append] at more
      · intro x member
        rcases List.mem_append.mp member with old | here
        · exact List.mem_cons_of_mem _ (known x old)
        · cases List.mem_singleton.mp here
          exact List.mem_cons_self
      · exact List.rel_append answers (.cons ⟨download, images, asked, requested, sent⟩ .nil)
  · cases taken

theorem step_pictured {marked : List (Nat × Favicon.Event)} {e : Event} (h : Pictured marked s)
    (taken : step env policy pageEnv s e = some s') :
    Pictured (marked ++ (note s e).toList) s' := by
  cases e with
  | imageDownloaded shell request images =>
    change Pictured (marked ++ []) s'
    rw [List.append_nil]
    exact downloaded_pictured h taken
  | bridge e =>
    have own := step_own taken
    obtain ⟨b, stepped, rfl⟩ := Option.map_eq_some_iff.mp taken
    obtain ⟨asked, once, known, answers⟩ := h.pictures
    refine ⟨Runs.ownStep_run own h.runs, asked, once, known, ?_⟩
    exact answers.imp fun _ _ => answers_later (bridge_asks stepped)

theorem initial_pictured (blocker : Blocker) (httpsRewriter : Https.HttpsRewriter)
    (settings : AllSettings) : Pictured [] (initial blocker httpsRewriter settings) :=
  ⟨fun _ => rfl, [], List.nodup_nil, nofun, .nil⟩

end

def grey : SkBitmap := { colorType := .alpha8, width := 1, height := 1, pixels := "g".toList }

/-- Java asks for the favicon of a page, and the page is gone when the picture comes. -/
def faviconRun : List Event :=
  [.bridge (.attribution (.shells (.launchShell 0))),
    .bridge (.page 1 (.changed none none none (Gurl.parseCanonical "http://a.com/".toList) [])),
    .bridge (.page 1 (.didUpdateFaviconUrl
      [⟨Gurl.parseCanonical "http://a.com/i.png".toList, .favicon, []⟩])),
    .bridge (.shellCommand 1 .downloadFavicon),
    .bridge (.page 1 (.changed none none none (Gurl.parseCanonical "http://b.com/".toList) [])),
    .bridge (.page 1 (.didNavigateMainFrame true (Gurl.parseCanonical "http://b.com/".toList))),
    .imageDownloaded 1 0 [grey]]

end FaviconRuns

end Seaturtle
