import Seaturtle.Cookies.OneStore

/-! Which cookies are on disk. -/
namespace Seaturtle.CookieRuns
open SplitCookieStore (favoritesOf siteHost)

variable {Cookie : Type} (lib : UrlLibrary) (cs : CookieStore Cookie)

/-- A backing store makes cookies only for the URL of a Set or a Get, and they are of
the URL's site. -/
def AddsOwnSite (site : Cookie → Str) : Prop :=
  ∀ c cookies, ∀ cookie ∈ (onStore cs c cookies).2,
    cookie ∈ cookies ∨ ∃ url ∈ c.routedBy, site cookie = siteHost lib url

/-- The persistent store has cookies of favorites only, and it has all of them. -/
def FavoritesPersisted (site : Cookie → Str) (s : SplitCookieStore Cookie) : Prop :=
  (∀ cookie ∈ s.persistant, site cookie ∈ s.favorites) ∧
    ∀ cookie ∈ s.transient, site cookie ∉ s.favorites

/-- No site that has a cookie in a store becomes a favorite or ceases to be one. -/
def KeepsStatus (site : Cookie → Str) (s : SplitCookieStore Cookie) : Event → Prop
  | .call _ => True
  | .updateFavorites update => ∀ cookie ∈ s.persistant ++ s.transient,
      site cookie ∈ favoritesOf lib update ↔ site cookie ∈ s.favorites

instance (site : Cookie → Str) (s : SplitCookieStore Cookie) (e : Event) :
    Decidable (KeepsStatus lib site s e) :=
  match e with
  | .call _ => .isTrue trivial
  | .updateFavorites update => inferInstanceAs (Decidable (∀ cookie ∈ s.persistant ++ s.transient,
      site cookie ∈ favoritesOf lib update ↔ site cookie ∈ s.favorites))

variable {lib cs} {site : Cookie → Str} {s s' : SplitCookieStore Cookie}

theorem call_persisted {c : StoreCall} (adds : AddsOwnSite lib cs site)
    (h : FavoritesPersisted site s) : FavoritesPersisted site (onSplit lib cs s c).2 := by
  have kept := adds c
  cases routed : c.routedBy with
  | none =>
    have old (cookies : List Cookie) : ∀ cookie ∈ (onStore cs c cookies).2, cookie ∈ cookies := by
      intro cookie member
      simpa [routed] using kept cookies cookie member
    rw [onSplit_deletes lib cs s routed]
    exact ⟨fun cookie member => h.1 cookie (old s.persistant cookie member),
      fun cookie member => h.2 cookie (old s.transient cookie member)⟩
  | some url =>
    rw [onSplit_routed lib cs s routed]
    simp only [SplitCookieStore.onStoreForURL, SplitCookieStore.isPersistant]
    by_cases favorite : siteHost lib url ∈ s.favorites
    · simp only [favorite, decide_true, if_true]
      refine ⟨fun cookie member => ?_, h.2⟩
      rcases kept s.persistant cookie member with old | ⟨url', here, own⟩
      · exact h.1 cookie old
      · cases routed.symm.trans here
        exact own ▸ favorite
    · simp only [favorite, decide_false, Bool.false_eq_true, if_false]
      refine ⟨h.1, fun cookie member => ?_⟩
      rcases kept s.transient cookie member with old | ⟨url', here, own⟩
      · exact h.2 cookie old
      · cases routed.symm.trans here
        exact own ▸ favorite

theorem update_persisted_iff {update : UpdateFavoritesResponse} (h : FavoritesPersisted site s)
    (updated : s.updateFavorites lib update = some s') :
    FavoritesPersisted site s' ↔ KeepsStatus lib site s (.updateFavorites update) := by
  rw [SplitCookieStore.updateFavorites_eq, Option.ite_none_right_eq_some] at updated
  obtain ⟨_, same⟩ := updated
  cases same
  simp only [FavoritesPersisted, KeepsStatus, List.mem_append]
  constructor
  · rintro ⟨persistant, transient⟩ cookie (member | member)
    · exact iff_of_true (persistant cookie member) (h.1 cookie member)
    · exact iff_of_false (transient cookie member) (h.2 cookie member)
  · intro same
    refine ⟨fun cookie member => ?_, fun cookie member => ?_⟩
    · exact (same cookie (.inl member)).mpr (h.1 cookie member)
    · exact fun favorite => h.2 cookie member ((same cookie (.inr member)).mp favorite)

/-- In every state of a run the persistent store has the cookies of the favorites exactly
when no update changes the status of a site that has cookies. -/
theorem only_favorites_persisted_iff (adds : AddsOwnSite lib cs site) (favorites : Finset Str)
    (es : List Event) :
    Runs.Always (Runs.silent (splitStep lib cs)) (FavoritesPersisted site) (initial favorites) es ↔
      Runs.Along (Runs.silent (splitStep lib cs)) (fun s e _ => KeepsStatus lib site s e)
        (initial favorites) es := by
  have start : FavoritesPersisted site (initial favorites) :=
    ⟨fun _ none => (List.not_mem_nil none).elim, fun _ none => (List.not_mem_nil none).elim⟩
  have updates {s s' : SplitCookieStore Cookie} {update : UpdateFavoritesResponse}
      (taken : Runs.silent (splitStep lib cs) s (.updateFavorites update) = some s') :
      s.updateFavorites lib update = some s' := by
    simpa [Runs.silent, splitStep, Function.comp_def] using taken
  apply Runs.always_iff_along (FavoritesPersisted site) es start
  · intro s e s' h taken keeps
    cases e with
    | call c =>
      cases taken
      exact call_persisted adds h
    | updateFavorites update => exact (update_persisted_iff h (updates taken)).mpr keeps
  · exact fun s h => h
  · intro s e s' h taken persisted
    cases e with
    | call c => trivial
    | updateFavorites update => exact (update_persisted_iff h (updates taken)).mp persisted

theorem plainStore_addsOwnSite : AddsOwnSite plainUrls plainStore PlainCookie.host := by
  intro c cookies cookie member
  cases c with
  | setCookieWithOptions now url line options =>
    simp only [onStore, plainStore, List.mem_append, List.mem_filter, List.mem_singleton] at member
    rcases member with old | new
    · exact .inl old.1
    · exact .inr ⟨url, rfl, by rw [new, plain_siteHost]⟩
  | getCookiesWithOptions now url options => exact .inl member
  | getAllCookiesForURL now url => exact .inl member
  | deleteCookie now url name => exact .inl (List.mem_filter.mp member).1
  | deleteAllCreatedBetween now b e => exact .inl (List.mem_filter.mp member).1
  | deleteAllCreatedBetweenForHost now b e url => exact .inl (List.mem_filter.mp member).1
  | deleteSessionCookies now => exact .inl (List.mem_filter.mp member).1

theorem only_favorites_persisted_iff_favorite :
    Runs.Always (Runs.silent (splitStep plainUrls plainStore)) (FavoritesPersisted PlainCookie.host)
      (initial ∅) favoriteFirst := by
  have along : Runs.Along (Runs.silent (splitStep plainUrls plainStore))
      (fun s e _ => KeepsStatus plainUrls PlainCookie.host s e) (initial ∅) favoriteFirst := by
    decide +kernel
  exact (only_favorites_persisted_iff plainStore_addsOwnSite ∅ favoriteFirst).mpr along

/-- A favorite with a cookie is removed. -/
def favoriteRemoved : List Event :=
  [.updateFavorites ⟨["http://a.com/".toList]⟩,
    .call (.setCookieWithOptions 1 exampleUrl "c=1".toList {}), .updateFavorites ⟨[]⟩]

theorem removed_favorite_persisted :
    ∃ s, Runs.run (Runs.silent (splitStep plainUrls plainStore)) (initial ∅) favoriteRemoved =
        some s ∧ s.favorites = ∅ ∧ s.persistant ≠ [] ∧ ¬ FavoritesPersisted PlainCookie.host s := by
  have last : (Runs.run (Runs.silent (splitStep plainUrls plainStore)) (initial ∅)
      favoriteRemoved).map (fun s => (s.persistant, s.favorites)) =
      some ([⟨"a.com".toList, ['c'], ['1'], 1⟩], ∅) := by decide +kernel
  obtain ⟨s, reached, same⟩ := Option.map_eq_some_iff.mp last
  obtain ⟨persistant, favorites⟩ := Prod.mk.inj same
  refine ⟨s, reached, favorites, by simp [persistant], fun only => ?_⟩
  have mine := only.1 ⟨"a.com".toList, ['c'], ['1'], 1⟩ (by simp [persistant])
  rw [favorites] at mine
  exact Finset.notMem_empty _ mine

end Seaturtle.CookieRuns
