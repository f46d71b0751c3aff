import Seaturtle.Cookies.SplitCookieStore
import Seaturtle.Lib.Keyed
import Seaturtle.Lib.Runs

/-! The split cookie store against a single backing store. -/
namespace Seaturtle.CookieRuns
open SplitCookieStore (siteHost)

inductive StoreCall where
  | setCookieWithOptions (now : Time) (url : Gurl) (cookieLine : Str) (options : CookieOptions)
  | getCookiesWithOptions (now : Time) (url : Gurl) (options : CookieOptions)
  | getAllCookiesForURL (now : Time) (url : Gurl)
  | deleteCookie (now : Time) (url : Gurl) (cookieName : Str)
  | deleteAllCreatedBetween (now deleteBegin deleteEnd : Time)
  | deleteAllCreatedBetweenForHost (now deleteBegin deleteEnd : Time) (url : Gurl)
  | deleteSessionCookies (now : Time)

inductive Event where
  | call (c : StoreCall)
  | updateFavorites (update : UpdateFavoritesResponse)

def Event.call? : Event → Option StoreCall
  | .call c => some c
  | .updateFavorites _ => none

inductive Answer (Cookie : Type) where
  | cookies (line : Str)
  | cookieList (cookies : List Cookie)
  deriving DecidableEq

variable {Cookie : Type} (lib : UrlLibrary) (cs : CookieStore Cookie)

def onStore : StoreCall → List Cookie → List (Answer Cookie) × List Cookie
  | .setCookieWithOptions now url line options, cookies =>
    ([], (cs.setCookieWithOptions now url line options cookies).2)
  | .getCookiesWithOptions now url options, cookies =>
    let (line, cookies) := cs.getCookiesWithOptions now url options cookies
    ([.cookies line], cookies)
  | .getAllCookiesForURL now url, cookies =>
    let (list, cookies) := cs.getAllCookiesForURL now url cookies
    ([.cookieList list], cookies)
  | .deleteCookie now url name, cookies => ([], (cs.deleteCookie now url name cookies).2)
  | .deleteAllCreatedBetween now b e, cookies =>
    ([], (cs.deleteAllCreatedBetween now b e cookies).2)
  | .deleteAllCreatedBetweenForHost now b e url, cookies =>
    ([], (cs.deleteAllCreatedBetweenForHost now b e url cookies).2)
  | .deleteSessionCookies now, cookies => ([], (cs.deleteSessionCookies now cookies).2)

def onSplit (s : SplitCookieStore Cookie) :
    StoreCall → List (Answer Cookie) × SplitCookieStore Cookie
  | .setCookieWithOptions now url line options =>
    ([], (s.setCookieWithOptions lib cs now url line options).2)
  | .getCookiesWithOptions now url options =>
    let (line, s) := s.getCookiesWithOptions lib cs now url options
    ([.cookies line], s)
  | .getAllCookiesForURL now url =>
    let (list, s) := s.getAllCookiesForURL lib cs now url
    ([.cookieList list], s)
  | .deleteCookie now url name => ([], (s.deleteCookie cs now url name).2)
  | .deleteAllCreatedBetween now b e => ([], (s.deleteAllCreatedBetween cs now b e).2)
  | .deleteAllCreatedBetweenForHost now b e url =>
    ([], (s.deleteAllCreatedBetweenForHost cs now b e url).2)
  | .deleteSessionCookies now => ([], (s.deleteSessionCookies cs now).2)

def storeStep (cookies : List Cookie) (c : StoreCall) :
    Option (List (Answer Cookie) × List Cookie) := some (onStore cs c cookies)

def splitStep (s : SplitCookieStore Cookie) :
    Event → Option (List (Answer Cookie) × SplitCookieStore Cookie)
  | .call c => some (onSplit lib cs s c)
  | .updateFavorites update => (s.updateFavorites lib update).map fun s => ([], s)

def initial (favorites : Finset Str) : SplitCookieStore Cookie := ⟨[], [], favorites⟩

/-- The URL whose store a Set or a Get goes to; a deletion goes to both stores. -/
def StoreCall.routedBy : StoreCall → Option Gurl
  | .setCookieWithOptions _ url _ _ => some url
  | .getCookiesWithOptions _ url _ => some url
  | .getAllCookiesForURL _ url => some url
  | _ => none

theorem onSplit_routed {c : StoreCall} {url : Gurl} (s : SplitCookieStore Cookie)
    (routed : c.routedBy = some url) :
    onSplit lib cs s c = s.onStoreForURL lib url (onStore cs c) := by
  cases c <;> cases routed
  all_goals
    simp only [onSplit, SplitCookieStore.setCookieWithOptions,
      SplitCookieStore.getCookiesWithOptions, SplitCookieStore.getAllCookiesForURL,
      SplitCookieStore.onStoreForURL]
    split <;> rfl

theorem onSplit_deletes {c : StoreCall} (s : SplitCookieStore Cookie) (both : c.routedBy = none) :
    onSplit lib cs s c = ([], { s with
      persistant := (onStore cs c s.persistant).2
      transient := (onStore cs c s.transient).2 }) := by
  cases c <;> first | rfl | cases both

/-! What is assumed of a backing store. -/

def bySite (site : Cookie → Str) (k : Str) (cookies : List Cookie) : List Cookie :=
  cookies.filter fun c => site c = k

/-- A Set or a Get for a URL reads and changes only the cookies of the URL's site;
a deletion treats every site by itself and adds no cookie to it. -/
structure KeepsSites (site : Cookie → Str) : Prop where
  routed : ∀ c url, c.routedBy = some url →
    Keyed.OnlyAt (bySite site) (siteHost lib url) (onStore cs c)
  deletes : ∀ c, c.routedBy = none → Keyed.Partwise (bySite site) [] (onStore cs c)

def elsewhere (s : SplitCookieStore Cookie) (url : Gurl) : List Cookie :=
  if s.isPersistant lib url then s.transient else s.persistant

/-- A Set or a Get finds no cookie of its site in the store it does not go to. -/
def NothingElsewhere (site : Cookie → Str) (s : SplitCookieStore Cookie) : Event → Prop
  | .call c => ∀ url ∈ c.routedBy, bySite site (siteHost lib url) (elsewhere lib s url) = []
  | .updateFavorites _ => True

instance (site : Cookie → Str) (s : SplitCookieStore Cookie) (e : Event) :
    Decidable (NothingElsewhere lib site s e) := by
  cases e with
  | call c => unfold NothingElsewhere bySite; infer_instance
  | updateFavorites update => exact .isTrue trivial

variable {lib cs} {site : Cookie → Str}

def Divides (site : Cookie → Str) (s : SplitCookieStore Cookie) (whole : List Cookie) : Prop :=
  Keyed.Divided (bySite site) [] whole s.persistant s.transient

theorem routed_matched {s : SplitCookieStore Cookie} {whole : List Cookie} {c : StoreCall}
    {url : Gurl} (keeps : KeepsSites lib cs site) (h : Divides site s whole)
    (routed : c.routedBy = some url)
    (none : bySite site (siteHost lib url) (elsewhere lib s url) = []) :
    (onSplit lib cs s c).1 = (onStore cs c whole).1 ∧
      Divides site (onSplit lib cs s c).2 (onStore cs c whole).2 := by
  have only := keeps.routed c url routed
  rw [onSplit_routed lib cs s routed]
  unfold SplitCookieStore.onStoreForURL
  unfold elsewhere at none
  split
  · next here =>
    rw [if_pos here] at none
    exact Keyed.onlyAt_divided h only none
  · next here =>
    rw [if_neg here] at none
    obtain ⟨same, divided⟩ := Keyed.onlyAt_divided (Keyed.divided_symm h) only none
    exact ⟨same, Keyed.divided_symm divided⟩

theorem onStore_deletes {c : StoreCall} (cookies : List Cookie) (both : c.routedBy = none) :
    (onStore cs c cookies).1 = [] := by
  cases c <;> first | rfl | cases both

theorem call_matched {s : SplitCookieStore Cookie} {whole : List Cookie} {c : StoreCall}
    (keeps : KeepsSites lib cs site) (h : Divides site s whole)
    (meets : NothingElsewhere lib site s (.call c)) :
    (onSplit lib cs s c).1 = (onStore cs c whole).1 ∧
      Divides site (onSplit lib cs s c).2 (onStore cs c whole).2 := by
  cases routed : c.routedBy with
  | some url => exact routed_matched keeps h routed (meets url routed)
  | none =>
    rw [onSplit_deletes lib cs s routed, onStore_deletes whole routed]
    exact ⟨rfl, Keyed.partwise_divided h (keeps.deletes c routed)⟩

theorem updateFavorites_stores {s s' : SplitCookieStore Cookie} {update : UpdateFavoritesResponse}
    (h : s.updateFavorites lib update = some s') :
    s'.persistant = s.persistant ∧ s'.transient = s.transient := by
  rw [SplitCookieStore.updateFavorites_eq, Option.ite_none_right_eq_some] at h
  obtain ⟨_, same⟩ := h
  cases same
  exact ⟨rfl, rfl⟩

/-- Every Get of a run returns what it returns on a single store, where no Set and
no Get has cookies of its site in the other store. -/
theorem answers_as_one_store (keeps : KeepsSites lib cs site) {favorites : Finset Str}
    {es : List Event} {answers : List (Answer Cookie)}
    (along : Runs.Along (Runs.silent (splitStep lib cs))
      (fun s e _ => NothingElsewhere lib site s e) (initial favorites) es)
    (ran : Runs.answers (splitStep lib cs) (initial favorites) es = some answers) :
    Runs.answers (storeStep cs) [] (es.filterMap Event.call?) = some answers := by
  refine Runs.answers_simulated (Divides site) ?_ ?_ ?_ along ran
  · intro s whole e c out s' h stepped meets here
    cases e with
    | updateFavorites update => cases here
    | call c =>
      cases here
      obtain ⟨same, divided⟩ := call_matched keeps h meets
      rw [show onSplit lib cs s c = (out, s') from Option.some.inj stepped] at same divided
      exact ⟨_, congrArg some (Prod.ext same.symm rfl), divided⟩
  · intro s whole e out s' h stepped _ here
    cases e with
    | call c => cases here
    | updateFavorites update =>
      obtain ⟨s'', updated, hs⟩ := Option.map_eq_some_iff.mp stepped
      cases hs
      obtain ⟨persistant, transient⟩ := updateFavorites_stores updated
      unfold Divides at h ⊢
      exact ⟨rfl, by rw [persistant, transient]; exact h⟩
  · exact fun _ => .inl ⟨rfl, rfl⟩

/-! A store for cookie lines without attributes, kept in the order of their creation. -/

structure PlainCookie where
  host : Str
  name : Str
  value : Str
  created : Time
  deriving DecidableEq

def PlainCookie.named (c : PlainCookie) (url : Gurl) (name : Str) : Bool :=
  c.host == url.host && c.name == name

def PlainCookie.createdBetween (c : PlainCookie) (deleteBegin deleteEnd : Time) : Bool :=
  decide (deleteBegin ≤ c.created) && decide (c.created < deleteEnd)

def cookieLine (cookies : List PlainCookie) : Str :=
  "; ".toList.intercalate (cookies.map fun c => c.name ++ '=' :: c.value)

def deleteIf (p : PlainCookie → Bool) (cookies : List PlainCookie) : Nat × List PlainCookie :=
  (cookies.countP p, cookies.filter (!p ·))

def plainStore : CookieStore PlainCookie where
  setCookieWithOptions now url line _ cookies :=
    let name := line.takeWhile (· != '=')
    let value := (line.dropWhile (· != '=')).drop 1
    (true, cookies.filter (!·.named url name) ++ [⟨url.host, name, value, now⟩])
  getCookiesWithOptions _ url _ cookies :=
    (cookieLine (cookies.filter (·.host = url.host)), cookies)
  getAllCookiesForURL _ url cookies := (cookies.filter (·.host = url.host), cookies)
  deleteCookie _ url name cookies := ((), cookies.filter (!·.named url name))
  deleteAllCreatedBetween _ b e := deleteIf (·.createdBetween b e)
  deleteAllCreatedBetweenForHost _ b e url :=
    deleteIf fun c => c.host == url.host && c.createdBetween b e
  deleteSessionCookies _ := deleteIf fun _ => true

/-- Every host is taken for a registrable domain of its own. -/
def plainUrls : UrlLibrary where
  parse := Gurl.parseCanonical
  hasHost url := !url.host.isEmpty
  getOrigin url :=
    { url with spec := url.scheme ++ "://".toList ++ url.host ++ ['/'], path := ['/'] }
  hasPort _ := false
  clearPort := id
  setHostStr host url :=
    { url with spec := url.scheme ++ "://".toList ++ host ++ url.path, host }
  getDomainAndRegistry url := url.host

theorem plain_siteHost (url : Gurl) : siteHost plainUrls url = url.host := by
  unfold siteHost SplitCookieStore.getSiteForURL
  by_cases none : url.host = []
  · simp [plainUrls, none, Gurl.empty]
  · simp [plainUrls, none]

theorem bySite_filter (site : Cookie → Str) (p : Cookie → Bool) (k : Str) (cookies : List Cookie) :
    bySite site k (cookies.filter p) = (bySite site k cookies).filter p := by
  simp [bySite, List.filter_filter, Bool.and_comm]

theorem bySite_append (site : Cookie → Str) (k : Str) (xs ys : List Cookie) :
    bySite site k (xs ++ ys) = bySite site k xs ++ bySite site k ys := List.filter_append ..

theorem partwise_filter {α : Type} {site : Cookie → Str} {op : List Cookie → α × List Cookie}
    (p : Cookie → Bool) (filters : ∀ cookies, (op cookies).2 = cookies.filter p) :
    Keyed.Partwise (bySite site) [] op := by
  constructor
  · intro k s t same
    rw [filters, filters, bySite_filter, bySite_filter, same]
  · intro k s none
    rw [filters, bySite_filter, none]
    rfl

theorem bySite_named_other {k name : Str} {url : Gurl} {cookies : List PlainCookie}
    (other : k ≠ url.host) :
    bySite PlainCookie.host k (cookies.filter (!·.named url name)) =
      bySite PlainCookie.host k cookies := by
  rw [bySite_filter]
  apply List.filter_eq_self.mpr
  intro c member
  have mine : c.host = k := by simpa [bySite] using (List.mem_filter.mp member).2
  simp [PlainCookie.named, mine, other]

theorem plainStore_keepsSites : KeepsSites plainUrls plainStore PlainCookie.host := by
  constructor
  · intro c url routed
    rw [plain_siteHost]
    cases c <;> cases routed
    · constructor
      · exact fun s t _ => rfl
      · intro s t same
        simp only [onStore, plainStore, bySite_append, bySite_filter, same]
      · intro j s other
        have created (cookie : PlainCookie) (here : cookie.host = url.host) :
            bySite PlainCookie.host j [cookie] = [] := by simp [bySite, here, Ne.symm other]
        simp only [onStore, plainStore, bySite_append, bySite_named_other other]
        rw [created _ rfl, List.append_nil]
    · constructor
      · intro s t same
        exact congrArg (fun cookies => [Answer.cookies (cookieLine cookies)]) same
      · exact fun s t same => same
      · exact fun j s _ => rfl
    · constructor
      · intro s t same
        exact congrArg (fun cookies => [Answer.cookieList cookies]) same
      · exact fun s t same => same
      · exact fun j s _ => rfl
  · intro c both
    cases c
    case deleteCookie now url name => exact partwise_filter _ fun _ => rfl
    case deleteAllCreatedBetween now b e => exact partwise_filter _ fun _ => rfl
    case deleteAllCreatedBetweenForHost now b e url => exact partwise_filter _ fun _ => rfl
    case deleteSessionCookies now => exact partwise_filter _ fun _ => rfl
    all_goals cases both

def exampleUrl : Gurl := Gurl.parseCanonical "http://a.com/".toList

/-- The site becomes a favorite before its first cookie, and is cleared before it is none again. -/
def favoriteFirst : List Event :=
  [.updateFavorites ⟨["http://a.com/".toList]⟩,
    .call (.setCookieWithOptions 1 exampleUrl "c=1".toList {}),
    .call (.getCookiesWithOptions 2 exampleUrl {}), .call (.deleteSessionCookies 3),
    .updateFavorites ⟨[]⟩, .call (.getAllCookiesForURL 4 exampleUrl)]

theorem answers_as_one_store_favorite :
    Runs.answers (storeStep plainStore) [] (favoriteFirst.filterMap Event.call?) =
      some [.cookies "c=1".toList, .cookieList []] := by
  have along : Runs.Along (Runs.silent (splitStep plainUrls plainStore))
      (fun s e _ => NothingElsewhere plainUrls PlainCookie.host s e) (initial ∅) favoriteFirst := by
    decide +kernel
  have ran : Runs.answers (splitStep plainUrls plainStore) (initial ∅) favoriteFirst =
      some [.cookies "c=1".toList, .cookieList []] := by decide +kernel
  exact answers_as_one_store plainStore_keepsSites along ran

/-- A cookie that was set before its site became a favorite is out of reach. -/
def favoriteAfterwards : List Event :=
  [.call (.setCookieWithOptions 1 exampleUrl "c=1".toList {}),
    .updateFavorites ⟨["http://a.com/".toList]⟩, .call (.getCookiesWithOptions 2 exampleUrl {})]

theorem favorite_hides_cookie :
    ¬ ∀ (es : List Event) (answers : List (Answer PlainCookie)),
      Runs.answers (splitStep plainUrls plainStore) (initial ∅) es = some answers →
        Runs.answers (storeStep plainStore) [] (es.filterMap Event.call?) = some answers := by
  intro same
  have split : Runs.answers (splitStep plainUrls plainStore) (initial ∅) favoriteAfterwards =
      some [.cookies []] := by decide +kernel
  have single := same favoriteAfterwards _ split
  revert single
  decide +kernel

end Seaturtle.CookieRuns
