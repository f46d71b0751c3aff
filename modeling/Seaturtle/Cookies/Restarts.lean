import Seaturtle.Cookies.Persistence

/-! What the split is for: over restarts of the browser, the two stores are one that keeps the
cookies of the favorites and forgets the others when the browser ends. -/
namespace Seaturtle.RestartRuns
open CookieRuns (Answer Divides FavoritesPersisted KeepsSites AddsOwnSite NothingElsewhere
  bySite onStore onSplit elsewhere plainUrls plainStore PlainCookie exampleUrl)
open SplitCookieStore (favoritesOf ValidUrls siteHost)

inductive Event where
  | browse (e : CookieRuns.Event)
  /-- The browser ends and is started again; Java's answer to the constructor of the store. -/
  | restart (now : Time) (answer : UpdateFavoritesResponse)

variable {Cookie : Type}

/-- The constructor of a `SplitCookieStore`, with what the persistent store has loaded. -/
def construct (lib : UrlLibrary) (loaded : List Cookie) (answer : UpdateFavoritesResponse) :
    Option (SplitCookieStore Cookie) :=
  (⟨loaded, [], ∅⟩ : SplitCookieStore Cookie).updateFavorites lib answer

/-- `load` is what a persistent store makes of its file when it is opened. -/
def step (lib : UrlLibrary) (cs : CookieStore Cookie) (load : Time → List Cookie → List Cookie)
    (s : SplitCookieStore Cookie) :
    Event → Option (List (Answer Cookie) × SplitCookieStore Cookie)
  | .browse e => CookieRuns.splitStep lib cs s e
  | .restart now answer => (construct lib (load now s.persistant) answer).map fun s => ([], s)

/-! One store that forgets. -/

structure Jar (Cookie : Type) where
  cookies : List Cookie := []
  favorites : Finset Str

def Jar.kept (site : Cookie → Str) (jar : Jar Cookie) : List Cookie :=
  jar.cookies.filter fun cookie => site cookie ∈ jar.favorites

def Jar.step (lib : UrlLibrary) (cs : CookieStore Cookie) (load : Time → List Cookie → List Cookie)
    (site : Cookie → Str) (jar : Jar Cookie) :
    Event → Option (List (Answer Cookie) × Jar Cookie)
  | .browse (.call c) =>
    let (answers, cookies) := onStore cs c jar.cookies
    some (answers, { jar with cookies })
  | .browse (.updateFavorites update) =>
    if ValidUrls lib update then some ([], { jar with favorites := favoritesOf lib update })
    else none
  | .restart now answer =>
    if ValidUrls lib answer then some ([], ⟨load now (jar.kept site), favoritesOf lib answer⟩)
    else none

/-- What is loaded for a site depends on what the file has for that site. -/
def LoadsBySite (site : Cookie → Str) (load : Time → List Cookie → List Cookie) : Prop :=
  ∀ now k cookies cookies', bySite site k cookies = bySite site k cookies' →
    bySite site k (load now cookies) = bySite site k (load now cookies')

/-- No site that has cookies becomes a favorite or ceases to be one; at a restart, that is
about the sites whose cookies are on disk. -/
def KeepsStatus (lib : UrlLibrary) (load : Time → List Cookie → List Cookie) (site : Cookie → Str)
    (s : SplitCookieStore Cookie) : Event → Prop
  | .browse e => CookieRuns.KeepsStatus lib site s e
  | .restart now answer => ∀ cookie ∈ load now s.persistant, site cookie ∈ favoritesOf lib answer

instance (lib : UrlLibrary) (load : Time → List Cookie → List Cookie) (site : Cookie → Str)
    (s : SplitCookieStore Cookie) (e : Event) : Decidable (KeepsStatus lib load site s e) := by
  cases e with
  | browse e => exact inferInstanceAs (Decidable (CookieRuns.KeepsStatus lib site s e))
  | restart now answer =>
    exact inferInstanceAs (Decidable (∀ cookie ∈ load now s.persistant, _))

/-- The two stores hold what the jar holds, the cookies of the favorites in the persistent one. -/
structure Holds (site : Cookie → Str) (s : SplitCookieStore Cookie) (jar : Jar Cookie) : Prop where
  divides : Divides site s jar.cookies
  persisted : FavoritesPersisted site s
  favorites : s.favorites = jar.favorites

variable {lib : UrlLibrary} {cs : CookieStore Cookie} {load : Time → List Cookie → List Cookie}
  {site : Cookie → Str} {s s' : SplitCookieStore Cookie} {jar : Jar Cookie}
  {out : List (Answer Cookie)}

theorem bySite_eq_nil {k : Str} {cookies : List Cookie} :
    bySite site k cookies = [] ↔ ∀ cookie ∈ cookies, site cookie ≠ k := by
  simp [bySite, List.filter_eq_nil_iff]

theorem nothing_elsewhere (persisted : FavoritesPersisted site s) (c : CookieRuns.StoreCall) :
    NothingElsewhere lib site s (.call c) := by
  intro url _
  rw [bySite_eq_nil, elsewhere, SplitCookieStore.isPersistant]
  intro cookie member same
  by_cases favorite : siteHost lib url ∈ s.favorites
  · rw [if_pos (decide_eq_true favorite)] at member
    exact persisted.2 cookie member (same ▸ favorite)
  · rw [if_neg (by simpa using favorite)] at member
    exact favorite (same ▸ persisted.1 cookie member)

theorem call_holds (keeps : KeepsSites lib cs site) (adds : AddsOwnSite lib cs site)
    (h : Holds site s jar) (c : CookieRuns.StoreCall) :
    (onSplit lib cs s c).1 = (onStore cs c jar.cookies).1 ∧
      Holds site (onSplit lib cs s c).2 { jar with cookies := (onStore cs c jar.cookies).2 } := by
  obtain ⟨same, divides⟩ :=
    CookieRuns.call_matched keeps h.divides (nothing_elsewhere h.persisted c)
  refine ⟨same, divides, CookieRuns.call_persisted adds h.persisted, ?_⟩
  rw [← h.favorites]
  cases routed : c.routedBy with
  | none => rw [CookieRuns.onSplit_deletes lib cs s routed]
  | some url =>
    rw [CookieRuns.onSplit_routed lib cs s routed, SplitCookieStore.onStoreForURL]
    split <;> rfl

theorem update_holds {update : UpdateFavoritesResponse} (h : Holds site s jar)
    (keeps : CookieRuns.KeepsStatus lib site s (.updateFavorites update))
    (updated : s.updateFavorites lib update = some s') :
    ValidUrls lib update ∧ Holds site s' { jar with favorites := favoritesOf lib update } := by
  have persisted := (CookieRuns.update_persisted_iff h.persisted updated).mpr keeps
  rw [SplitCookieStore.updateFavorites_eq, Option.ite_none_right_eq_some] at updated
  obtain ⟨valid, same⟩ := updated
  cases same
  exact ⟨valid, h.divides, persisted, rfl⟩

/-- What is on disk is what the jar keeps, site by site. -/
theorem persistant_kept (h : Holds site s jar) (k : Str) :
    bySite site k s.persistant = bySite site k (jar.kept site) := by
  have kept : bySite site k (jar.kept site) =
      (bySite site k jar.cookies).filter fun cookie => site cookie ∈ jar.favorites := by
    rw [Jar.kept, CookieRuns.bySite_filter]
  rw [kept]
  by_cases favorite : k ∈ jar.favorites
  · have all : (bySite site k jar.cookies).filter (fun cookie => site cookie ∈ jar.favorites) =
        bySite site k jar.cookies := by
      apply List.filter_eq_self.mpr
      intro cookie member
      have mine : site cookie = k := of_decide_eq_true (List.mem_filter.mp member).2
      rw [mine]
      exact decide_eq_true favorite
    have none : bySite site k s.transient = [] := by
      rw [bySite_eq_nil]
      rintro cookie member rfl
      exact h.persisted.2 cookie member (h.favorites ▸ favorite)
    rw [all]
    exact Keyed.part_of_divided h.divides none
  · have none : bySite site k s.persistant = [] := by
      rw [bySite_eq_nil]
      rintro cookie member rfl
      exact favorite (h.favorites ▸ h.persisted.1 cookie member)
    rw [none, eq_comm, List.filter_eq_nil_iff]
    intro cookie member
    have mine : site cookie = k := of_decide_eq_true (List.mem_filter.mp member).2
    rw [mine]
    simpa using favorite

theorem restart_holds {now : Time} {answer : UpdateFavoritesResponse}
    (loads : LoadsBySite site load) (h : Holds site s jar)
    (keeps : ∀ cookie ∈ load now s.persistant, site cookie ∈ favoritesOf lib answer)
    (constructed : construct lib (load now s.persistant) answer = some s') :
    ValidUrls lib answer ∧ Holds site s' ⟨load now (jar.kept site), favoritesOf lib answer⟩ := by
  rw [construct, SplitCookieStore.updateFavorites_eq, Option.ite_none_right_eq_some] at constructed
  obtain ⟨valid, same⟩ := constructed
  cases same
  refine ⟨valid, fun k => .inl ⟨?_, rfl⟩, ⟨keeps, nofun⟩, rfl⟩
  exact loads now k _ _ (persistant_kept h k)

theorem step_holds (keeps : KeepsSites lib cs site) (adds : AddsOwnSite lib cs site)
    (loads : LoadsBySite site load) {e : Event} (h : Holds site s jar)
    (hs : step lib cs load s e = some (out, s')) (status : KeepsStatus lib load site s e) :
    ∃ jar', jar.step lib cs load site e = some (out, jar') ∧ Holds site s' jar' := by
  cases e with
  | browse e =>
    cases e with
    | call c =>
      obtain ⟨same, holds⟩ := call_holds keeps adds h c
      have split : onSplit lib cs s c = (out, s') := Option.some.inj hs
      rw [split] at same holds
      exact ⟨_, congrArg some (Prod.ext same.symm rfl), holds⟩
    | updateFavorites update =>
      obtain ⟨s'', updated, same⟩ := Option.map_eq_some_iff.mp hs
      cases same
      obtain ⟨valid, holds⟩ := update_holds h status updated
      exact ⟨_, if_pos valid, holds⟩
  | restart now answer =>
    obtain ⟨s'', constructed, same⟩ := Option.map_eq_some_iff.mp hs
    cases same
    obtain ⟨valid, holds⟩ := restart_holds loads h status constructed
    exact ⟨_, if_pos valid, holds⟩

/-- A file that is loaded as it is. -/
def whole (_ : Time) (cookies : List PlainCookie) : List PlainCookie := cookies

theorem whole_loadsBySite : LoadsBySite PlainCookie.host whole := fun _ _ _ _ same => same

def otherUrl : Gurl := Gurl.parseCanonical "http://b.com/".toList

/-- A favorite and another site are visited, before a restart and after it. -/
def twoDays : List Event :=
  [.browse (.updateFavorites ⟨["http://a.com/".toList]⟩),
    .browse (.call (.setCookieWithOptions 1 exampleUrl "c=1".toList {})),
    .browse (.call (.setCookieWithOptions 2 otherUrl "d=2".toList {})),
    .browse (.call (.getCookiesWithOptions 3 otherUrl {})),
    .restart 4 ⟨["http://a.com/".toList]⟩,
    .browse (.call (.getCookiesWithOptions 5 exampleUrl {})),
    .browse (.call (.getCookiesWithOptions 6 otherUrl {}))]

end Seaturtle.RestartRuns
