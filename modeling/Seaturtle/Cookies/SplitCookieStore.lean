import Mathlib.Data.Finset.Dedup
import Mathlib.Data.Finset.Lattice.Lemmas
import Seaturtle.Url

/-! The split cookie store. The two backing stores and the URL library are
parameters; a store's content is the list of its cookies. -/
namespace Seaturtle

abbrev Time := Int

structure CookieOptions where
  excludeHttponly : Bool := true
  serverTime : Option Time := none
  deriving DecidableEq

/-- What the code calls on a `net::CookieStore`. Each call runs at a time of the
clock, answers its callback, and leaves the cookies that the store then holds. -/
structure CookieStore (Cookie : Type) where
  setCookieWithOptions : Time → Gurl → Str → CookieOptions → List Cookie → Bool × List Cookie
  getCookiesWithOptions : Time → Gurl → CookieOptions → List Cookie → Str × List Cookie
  getAllCookiesForURL : Time → Gurl → List Cookie → List Cookie × List Cookie
  deleteCookie : Time → Gurl → Str → List Cookie → Unit × List Cookie
  deleteAllCreatedBetween : Time → Time → Time → List Cookie → Nat × List Cookie
  deleteAllCreatedBetweenForHost : Time → Time → Time → Gurl → List Cookie → Nat × List Cookie
  deleteSessionCookies : Time → List Cookie → Nat × List Cookie

/-- What `GetSiteForURL` calls of the URL library. -/
structure UrlLibrary where
  parse : Str → Gurl
  hasHost : Gurl → Bool
  getOrigin : Gurl → Gurl
  hasPort : Gurl → Bool
  clearPort : Gurl → Gurl
  setHostStr : Str → Gurl → Gurl
  getDomainAndRegistry : Gurl → Str

def Gurl.empty : Gurl := ⟨[], false, [], [], []⟩

structure UpdateFavoritesResponse where
  url : List Str := []
  deriving DecidableEq

structure SplitCookieStore (Cookie : Type) where
  persistant : List Cookie
  transient : List Cookie
  favorites : Finset Str

namespace SplitCookieStore
variable {Cookie ω : Type} (lib : UrlLibrary) (cs : CookieStore Cookie)

def getSiteForURL (url : Gurl) : Gurl :=
  if !lib.hasHost url then .empty
  else
    let site := lib.getOrigin url
    let site := if lib.hasPort site then lib.clearPort site else site
    let domain := lib.getDomainAndRegistry url
    if domain.isEmpty then site else lib.setHostStr domain site

def siteHost (url : Gurl) : Str := (getSiteForURL lib url).host

/-- The insertion loop; `STNOTREACHED` ends the process at an invalid URL. -/
def updateFavorites (s : SplitCookieStore Cookie) (update : UpdateFavoritesResponse) :
    Option (SplitCookieStore Cookie) := do
  let favorites ← update.url.foldlM (fun favorites url =>
    let gurl := lib.parse url
    if gurl.isValid then some (insert (siteHost lib gurl) favorites) else none) ∅
  return { s with favorites }

/-- The site hosts that the message makes favorites. -/
def favoritesOf (update : UpdateFavoritesResponse) : Finset Str :=
  (update.url.map fun url => siteHost lib (lib.parse url)).toFinset

def ValidUrls (update : UpdateFavoritesResponse) : Prop :=
  ∀ url ∈ update.url, (lib.parse url).isValid = true

instance (update : UpdateFavoritesResponse) : Decidable (ValidUrls lib update) :=
  inferInstanceAs (Decidable (∀ url ∈ update.url, _))

theorem insertion_loop (urls : List Str) (favorites : Finset Str) :
    (urls.foldlM (fun favorites url =>
      let gurl := lib.parse url
      if gurl.isValid then some (insert (siteHost lib gurl) favorites) else none) favorites) =
    if ValidUrls lib ⟨urls⟩ then some (favorites ∪ favoritesOf lib ⟨urls⟩) else none := by
  induction urls generalizing favorites with
  | nil => simp [ValidUrls, favoritesOf]
  | cons url urls ih =>
    cases valid : (lib.parse url).isValid with
    | false => simp [ValidUrls, valid]
    | true =>
      have tail : ValidUrls lib ⟨url :: urls⟩ ↔ ValidUrls lib ⟨urls⟩ := by
        simp [ValidUrls, valid]
      simp only [List.foldlM_cons, valid, if_true, Option.bind_eq_bind, Option.bind_some, ih, tail]
      have new : insert (siteHost lib (lib.parse url)) favorites ∪ favoritesOf lib ⟨urls⟩ =
          favorites ∪ favoritesOf lib ⟨url :: urls⟩ := by
        simp [favoritesOf, Finset.insert_union, Finset.union_insert]
      rw [new]

theorem updateFavorites_eq (s : SplitCookieStore Cookie) (update : UpdateFavoritesResponse) :
    s.updateFavorites lib update =
      if ValidUrls lib update then some { s with favorites := favoritesOf lib update }
      else none := by
  have loop := insertion_loop lib update.url ∅
  simp only [updateFavorites, loop, Finset.empty_union]
  split <;> rfl

def isPersistant (s : SplitCookieStore Cookie) (url : Gurl) : Bool :=
  decide (siteHost lib url ∈ s.favorites)

def onStoreForURL (s : SplitCookieStore Cookie) (url : Gurl) (op : List Cookie → ω × List Cookie) :
    ω × SplitCookieStore Cookie :=
  if s.isPersistant lib url then
    let (answer, cookies) := op s.persistant
    (answer, { s with persistant := cookies })
  else
    let (answer, cookies) := op s.transient
    (answer, { s with transient := cookies })

def setCookieWithOptions (s : SplitCookieStore Cookie) (now : Time) (url : Gurl) (cookieLine : Str)
    (options : CookieOptions) : Bool × SplitCookieStore Cookie :=
  s.onStoreForURL lib url (cs.setCookieWithOptions now url cookieLine options)

def getCookiesWithOptions (s : SplitCookieStore Cookie) (now : Time) (url : Gurl)
    (options : CookieOptions) : Str × SplitCookieStore Cookie :=
  s.onStoreForURL lib url (cs.getCookiesWithOptions now url options)

def getAllCookiesForURL (s : SplitCookieStore Cookie) (now : Time) (url : Gurl) :
    List Cookie × SplitCookieStore Cookie :=
  s.onStoreForURL lib url (cs.getAllCookiesForURL now url)

/-! Deletions run on the transient store first; its callback starts the second
stage on the persistent store. -/

def onTransient (s : SplitCookieStore Cookie) (op : List Cookie → ω × List Cookie) :
    ω × SplitCookieStore Cookie :=
  let (answer, cookies) := op s.transient
  (answer, { s with transient := cookies })

def onPersistant (s : SplitCookieStore Cookie) (op : List Cookie → ω × List Cookie) :
    ω × SplitCookieStore Cookie :=
  let (answer, cookies) := op s.persistant
  (answer, { s with persistant := cookies })

def persistantDeleteCookie (s : SplitCookieStore Cookie) (now : Time) (url : Gurl)
    (cookieName : Str) : Unit × SplitCookieStore Cookie :=
  s.onPersistant (cs.deleteCookie now url cookieName)

def deleteCookie (s : SplitCookieStore Cookie) (now : Time) (url : Gurl) (cookieName : Str) :
    Unit × SplitCookieStore Cookie :=
  let (_, s) := s.onTransient (cs.deleteCookie now url cookieName)
  s.persistantDeleteCookie cs now url cookieName

def deleteComplete (a b : Nat) : Nat := a + b

def persistantDeleteAllCreatedBetween (s : SplitCookieStore Cookie)
    (now deleteBegin deleteEnd : Time) (alreadyDeleted : Nat) : Nat × SplitCookieStore Cookie :=
  let (deleted, s) := s.onPersistant (cs.deleteAllCreatedBetween now deleteBegin deleteEnd)
  (deleteComplete alreadyDeleted deleted, s)

def deleteAllCreatedBetween (s : SplitCookieStore Cookie) (now deleteBegin deleteEnd : Time) :
    Nat × SplitCookieStore Cookie :=
  let (deleted, s) := s.onTransient (cs.deleteAllCreatedBetween now deleteBegin deleteEnd)
  s.persistantDeleteAllCreatedBetween cs now deleteBegin deleteEnd deleted

def persistantDeleteAllCreatedBetweenForHost (s : SplitCookieStore Cookie)
    (now deleteBegin deleteEnd : Time) (url : Gurl) (alreadyDeleted : Nat) :
    Nat × SplitCookieStore Cookie :=
  let (deleted, s) :=
    s.onPersistant (cs.deleteAllCreatedBetweenForHost now deleteBegin deleteEnd url)
  (deleteComplete alreadyDeleted deleted, s)

def deleteAllCreatedBetweenForHost (s : SplitCookieStore Cookie) (now deleteBegin deleteEnd : Time)
    (url : Gurl) : Nat × SplitCookieStore Cookie :=
  let (deleted, s) :=
    s.onTransient (cs.deleteAllCreatedBetweenForHost now deleteBegin deleteEnd url)
  s.persistantDeleteAllCreatedBetweenForHost cs now deleteBegin deleteEnd url deleted

def persistantDeleteSessionCookies (s : SplitCookieStore Cookie) (now : Time)
    (alreadyDeleted : Nat) : Nat × SplitCookieStore Cookie :=
  let (deleted, s) := s.onPersistant (cs.deleteSessionCookies now)
  (deleteComplete alreadyDeleted deleted, s)

def deleteSessionCookies (s : SplitCookieStore Cookie) (now : Time) :
    Nat × SplitCookieStore Cookie :=
  let (deleted, s) := s.onTransient (cs.deleteSessionCookies now)
  s.persistantDeleteSessionCookies cs now deleted

end SplitCookieStore

end Seaturtle
